import AetherKernel.Sched.SignalWake

/-!
# Signals that a blocked process ignores

`notify_signal` ends a block as soon as some pending signal is not masked, and
does not ask whether delivery would drop that signal.
-/

namespace AetherKernel.Sched

open Signal Function Option SignalState

variable {μ : Type} {signals : SignalState} {info : SignalInfo}

/-- Delivery would drop the signal, or the mask holds it back. -/
def harmless (signals : SignalState) (info : SignalInfo) : Bool :=
  (signals.actions[info.signal]?).all fun action =>
    match deliveryFor signals.blocked action info Kernel.supportsUserHandlers with
    | .none | .ignored _ => true
    | _ => false

/-- The signals sent are masked, and so is what is pending when the first of
them arrives and is not displaced by it. -/
def AllMasked (signals : SignalState) (sent : List SignalInfo) : Prop :=
  (∀ info ∈ sent, IsSignal info.signal → isBlocked signals.blocked info.signal) ∧
    ∀ first ∈ sent.head?, Masks signals fun index => ¬Displaces first index

theorem masks_enqueue : Masks (signals.enqueue info) (fun _ => True) ↔
    (IsSignal info.signal → isBlocked signals.blocked info.signal) ∧
      Masks signals fun index => ¬Displaces info index := by
  unfold Masks
  simp only [blocked_enqueue, getElem?_enqueue]
  constructor
  · intro masked
    constructor
    · intro bounds
      exact masked _ info bounds trivial (.inl ⟨bounds, rfl, rfl⟩)
    · intro index other bounds stays found
      exact masked index other bounds trivial (.inr ⟨stays, found⟩)
  · rintro ⟨arrived, masked⟩ index other bounds - (⟨known, -, rfl⟩ | ⟨stays, found⟩)
    · exact arrived known
    · exact masked index other bounds stays found

theorem allMasked_cons {rest : List SignalInfo} : AllMasked signals (info :: rest) ↔
    Masks (signals.enqueue info) (fun _ => True) ∧ AllMasked (signals.enqueue info) rest := by
  simp only [AllMasked, List.forall_mem_cons, List.head?_cons, Option.mem_some, forall_eq',
    blocked_enqueue]
  constructor
  · rintro ⟨⟨first, others⟩, pending⟩
    have masked := masks_enqueue.mpr ⟨first, pending⟩
    exact ⟨masked, others, fun _ _ index other bounds _ => masked index other bounds trivial⟩
  · rintro ⟨masked, others, -⟩
    obtain ⟨first, pending⟩ := masks_enqueue.mp masked
    exact ⟨⟨first, others⟩, pending⟩

namespace Kernel

variable [UserSpaces μ] {kernel : Kernel μ} {pid : Pid} {process : KernelProcess}

/-- The signals arrive one after the other. -/
def sendAll (kernel : Kernel μ) (pid : Pid) (sent : List SignalInfo) : Kernel μ :=
  sent.foldl (fun kernel info => kernel.sendSignal pid info) kernel

/-- The process is still in its block, and its call has no result. -/
def StaysBlocked (kernel : Kernel μ) (pid : Pid) (process : KernelProcess) : Prop :=
  ∃ after, kernel.processes pid = some after ∧ after.state = process.state ∧
    after.wakeResult = process.wakeResult

theorem processes_sendSignal (info : SignalInfo)
    (stored : kernel.processes pid = some process) (live : continued info process = false) :
    (kernel.sendSignal pid info).processes pid =
      some (signalled kernel.monotonicNanos info process) := by
  simp only [sendSignal, notifySignal, signalProcess, stored, live]
  obtain ⟨cpus, timers, futexes, same⟩ := kernel.settle_eq pid process
    (signalled kernel.monotonicNanos info process)
  simp [same, record, store]

/-- Signals do not block a process again. -/
theorem state_sendAll_of_runnable (sent : List SignalInfo)
    (stored : kernel.processes pid = some process) (runnable : process.state = .runnable) :
    ∃ after, (kernel.sendAll pid sent).processes pid = some after ∧ after.state = .runnable := by
  induction sent generalizing kernel process with
  | nil => exact ⟨process, stored, runnable⟩
  | cons info rest ih =>
    refine ih (processes_sendSignal info stored (by simp [continued, runnable])) ?_
    simp [signalled, runnable]

/-- The blocks that signals can end outlast a sequence of signals exactly if
these are masked; a signal that would be dropped ends them. -/
theorem stays_blocked_iff_masked {block : BlockType} (sent : List SignalInfo)
    (stored : kernel.processes pid = some process) (blocked : process.state = .blocked block)
    (ends : block.endsBySignal) :
    StaysBlocked (kernel.sendAll pid sent) pid process ↔ AllMasked process.signals sent := by
  induction sent generalizing kernel process with
  | nil => simp [sendAll, StaysBlocked, stored, AllMasked]
  | cons info rest ih =>
    have sends := processes_sendSignal info stored (by simp [continued, blocked])
    rw [allMasked_cons, ← hasDeliverable_eq_false supportsUserHandlers]
    cases deliverable : (process.signals.enqueue info).hasDeliverable supportsUserHandlers with
    | false =>
      simp only [signalled, deliverable] at sends
      rw [eq_self, true_and]
      exact ih sends blocked
    | true =>
      have woken : (signalled kernel.monotonicNanos info process).state = .runnable := by
        simp only [signalled, deliverable, blocked]
        cases block <;> first | rfl | exact nomatch ends
      obtain ⟨after, found, runs⟩ := state_sendAll_of_runnable rest sends woken
      simp only [Bool.true_eq_false, false_and, iff_false]
      rintro ⟨other, known, same, -⟩
      cases found.symm.trans known
      exact nomatch (runs.symm.trans same).trans blocked

/-- A process that waits in a poll. -/
def sleeper (blocked : BitVec 64) : KernelProcess :=
  { freshProcess 0 ⟨1, 1, none, 1, 1⟩ (program 0x400000 0) 0 0 { SignalState.new with blocked } with
    state := .blocked (.poll none) }

/-- A masked signal leaves it there. -/
theorem stays_blocked_of_masked_user_signal :
    StaysBlocked (((blank 1).store 1 (sleeper (sigbit 10))).sendAll 1 [.kernel 10 0]) 1
      (sleeper (sigbit 10)) := by
  refine (stays_blocked_iff_masked [.kernel 10 0] rfl rfl rfl).mpr ⟨?_, ?_⟩
  · rw [List.forall_mem_singleton]
    exact fun _ => by decide
  · intro first _ index info _ _ found
    simp only [sleeper, freshProcess, SignalState.new, Vector.getElem?_replicate] at found
    split at found <;> cases found

/-- `SIGCHLD` is ignored by default, and the poll returns `EINTR`. -/
theorem sigchld_ends_a_poll : harmless (sleeper 0).signals (.kernel sigchld 0) = true ∧
    ((((blank 1).store 1 (sleeper 0)).sendAll 1 [.kernel sigchld 0]).processes 1).map
      (fun after => (after.state, after.wakeResult)) =
        some (.runnable, some .signalInterrupted) := by
  exact ⟨rfl, rfl⟩

end Kernel

end AetherKernel.Sched
