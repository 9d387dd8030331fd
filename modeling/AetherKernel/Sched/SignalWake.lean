import AetherKernel.Sched.Journal

/-!
# Signals and blocked processes

A signal for a process of the table becomes pending, and ends some blocks at
once.  A signal for a process that a processor holds waits in a queue until the
process is dispatched again, and the recording of a block does not look at it.
-/

namespace AetherKernel.Sched

open Lib Signal Std Function Option SignalState

variable {μ : Type} {signals : SignalState} {info : SignalInfo} {before after : Kernel μ}

/-! ## Signals that interrupt -/

def interrupts : SignalDelivery → Bool
  | .deliver _ _ | .exit _ | .stop _ => true
  | .none | .ignored _ | .continue _ => false

/-- The signal would be handled, or terminate or stop the process. -/
def urgent (signals : SignalState) (info : SignalInfo) : Bool :=
  info.signal ≠ 0 && (signals.actions[info.signal]?).any fun action =>
    interrupts (deliveryFor signals.blocked action info Kernel.supportsUserHandlers)

def Pending (signals : SignalState) (info : SignalInfo) : Prop :=
  ∃ index : Nat, signals.pending[index]? = some (some info)

/-- The signal is pending, or waits for the process in its queue. -/
def Kernel.Awaits (kernel : Kernel μ) (pid : Pid) (signals : SignalState) (info : SignalInfo) :
    Prop :=
  Pending signals info ∨ info ∈ kernel.queuedSignals pid

/-- A parent of a `vfork` waits for the child whatever happens. -/
def BlockType.interruptible : BlockType → Bool
  | .vfork _ => false
  | .timer _ _ _ _ | .file _ _ | .poll _ | .futex _ _ _ | .signalSuspend
  | .waitChild _ _ _ _ _ => true

/-- The blocks that `notify_signal` ends. -/
def BlockType.endsBySignal : BlockType → Bool
  | .timer _ _ _ _ | .poll _ | .futex _ _ _ | .signalSuspend => true
  | .file _ _ | .vfork _ | .waitChild _ _ _ _ _ => false

/-- The numbers that have a place in the tables. -/
def IsSignal (signal : Nat) : Prop :=
  1 ≤ signal ∧ signal ≤ signalMax

/-- The places of the table that `enqueue` writes. -/
def Displaces (info : SignalInfo) (index : Nat) : Prop :=
  IsSignal info.signal ∧ (info.signal = index ∨
    info.signal = sigcont ∧ index ∈ [sigstop, sigtstp, sigttin, sigttou] ∨
    info.signal ∈ [sigstop, sigtstp, sigttin, sigttou] ∧ index = sigcont)

/-- The mask holds back what is pending at the places in question. -/
def Masks (signals : SignalState) (places : Nat → Prop) : Prop :=
  ∀ index info, IsSignal index → places index → signals.pending[index]? = some (some info) →
    isBlocked signals.blocked info.signal

theorem urgent_of_same {other : SignalState} (actions : other.actions = signals.actions)
    (blocked : other.blocked = signals.blocked) (info : SignalInfo) :
    urgent other info = urgent signals info := by
  unfold urgent
  rw [actions, blocked]

theorem actions_enqueue (signals : SignalState) (info : SignalInfo) :
    (signals.enqueue info).actions = signals.actions := by
  unfold enqueue
  split <;> rfl

theorem blocked_enqueue (signals : SignalState) (info : SignalInfo) :
    (signals.enqueue info).blocked = signals.blocked := by
  unfold enqueue
  split <;> rfl

theorem getElem?_clear {pending : Vector (Option SignalInfo) 65} (cleared : List Nat)
    (index : Nat) :
    (cleared.foldl (fun table signal => table.setIfInBounds signal none) pending)[index]? =
      some (some info) ↔ index ∉ cleared ∧ pending[index]? = some (some info) := by
  induction cleared generalizing pending with
  | nil => simp
  | cons signal rest ih =>
    rw [List.foldl_cons, ih, Vector.getElem?_setIfInBounds]
    split
    · subst signal
      split <;> simp
    · rename_i apart
      simp [Ne.symm apart]

/-- What is pending after a signal has been taken. -/
theorem getElem?_enqueue (signals : SignalState) (info other : SignalInfo) (index : Nat) :
    (signals.enqueue info).pending[index]? = some (some other) ↔
      IsSignal info.signal ∧ info.signal = index ∧ other = info ∨
        ¬Displaces info index ∧ signals.pending[index]? = some (some other) := by
  unfold enqueue
  by_cases bounds : IsSignal info.signal
  · have placed : info.signal < 65 := by
      simp only [IsSignal, signalMax] at bounds
      omega
    rw [if_neg (by simp only [IsSignal] at bounds; omega)]
    rw [Vector.getElem?_setIfInBounds]
    simp only [Displaces, bounds]
    split
    · simp_all [eq_comm]
    · rename_i apart
      simp only [apart]
      split
      · rename_i continues
        rw [getElem?_clear, continues]
        simp [sigcont, sigstop, sigtstp, sigttin, sigttou]
      · rename_i proceeds
        split
        · rename_i stops
          rw [getElem?_clear]
          simp [proceeds, stops]
        · rename_i other
          simp [proceeds, other]
  · rw [if_pos (by simp only [IsSignal] at bounds; omega)]
    simp [Displaces, bounds]

/-- What is pending afterwards was so before, or has just arrived. -/
theorem Pending.of_enqueue {other : SignalInfo}
    (pending : Pending (signals.enqueue info) other) : Pending signals other ∨ other = info := by
  obtain ⟨index, found⟩ := pending
  rcases (getElem?_enqueue ..).mp found with ⟨-, -, same⟩ | ⟨-, before⟩
  · exact .inr same
  · exact .inl ⟨index, before⟩

/-- The queue of a process is emptied into its pending signals. -/
theorem Pending.of_foldl {queue : List SignalInfo}
    (pending : Pending (queue.foldl enqueue signals) info) :
    Pending signals info ∨ info ∈ queue := by
  induction queue generalizing signals with
  | nil => exact .inl pending
  | cons first rest ih =>
    rcases ih pending with pending | later
    · rcases pending.of_enqueue with pending | rfl
      · exact .inl pending
      · exact .inr List.mem_cons_self
    · exact .inr (List.mem_cons_of_mem _ later)

theorem urgent_foldl (queue : List SignalInfo) (signals : SignalState) (info : SignalInfo) :
    urgent (queue.foldl enqueue signals) info = urgent signals info := by
  induction queue generalizing signals with
  | nil => rfl
  | cons first rest ih =>
    rw [List.foldl_cons, ih]
    exact urgent_of_same (actions_enqueue _ _) (blocked_enqueue _ _) info

theorem takeInMask_eq (signals : SignalState) (masked : BitVec 64) (numbers : List Nat) :
    ∃ pending, signals.takeInMask masked numbers = { signals with pending } ∧
      ∀ info, Pending { signals with pending } info → Pending signals info := by
  induction numbers with
  | nil => exact ⟨_, rfl, fun _ => id⟩
  | cons number rest ih =>
    rw [takeInMask]
    split
    · split
      · refine ⟨_, rfl, ?_⟩
        rintro info ⟨index, found⟩
        exact ⟨index, ((getElem?_clear [number] index).mp found).2⟩
      · exact ih
    · exact ih

variable {action : SignalAction}

theorem deliveryFor_eq_none {blocked : BitVec 64} {supported : Bool} :
    deliveryFor blocked action info supported = .none ↔ isBlocked blocked info.signal := by
  unfold deliveryFor
  split <;> rename_i masked
  · simp [masked]
  · simp only [masked]
    split
    · simp
    · split <;> split <;> simp

theorem hasDeliverable_eq_false (supported : Bool) :
    signals.hasDeliverable supported = false ↔ Masks signals fun _ => True := by
  simp only [hasDeliverable, List.any_eq_false, List.mem_range'_1, Masks, IsSignal, forall_const]
  refine forall_congr' fun index => ?_
  constructor
  · intro nothing info bounds found
    have known : index < 65 := by
      simp only [signalMax] at bounds
      omega
    have held := nothing (by omega)
    rw [found, Vector.getElem?_eq_getElem known] at held
    simpa [deliveryFor_eq_none] using held
  · intro masked bounds
    split
    · rename_i info action pending _
      have held := masked info (by omega) (join_eq_some_iff.mp pending)
      simpa [deliveryFor_eq_none] using held
    · exact Bool.false_ne_true

/-- A signal that does not make anything deliverable is masked. -/
theorem not_urgent_of_enqueue
    (nothing : (signals.enqueue info).hasDeliverable Kernel.supportsUserHandlers = false) :
    urgent signals info = false := by
  by_contra urgency
  rw [Bool.not_eq_false] at urgency
  simp only [urgent, Bool.and_eq_true, decide_eq_true_eq, any_eq_true] at urgency
  obtain ⟨valid, action, known, interrupting⟩ := urgency
  have bound : IsSignal info.signal := by
    by_contra beyond
    rw [Vector.getElem?_eq_none (by simp only [IsSignal, signalMax] at beyond; omega)] at known
    nomatch known
  have masked := (hasDeliverable_eq_false _).mp nothing info.signal info bound trivial
    ((getElem?_enqueue ..).mpr (.inl ⟨bound, rfl, rfl⟩))
  rw [blocked_enqueue] at masked
  rw [deliveryFor_eq_none.mpr masked] at interrupting
  nomatch interrupting

theorem urgent_setAction (signals : SignalState) (signal : Nat) (action : SignalAction)
    (info : SignalInfo) :
    urgent { signals with actions := (signals.setAction signal action).2.actions } info =
      urgent (signals.setAction signal action).2 info := by
  unfold setAction
  split <;> rfl

/-- Other signals keep their actions. -/
theorem urgent_setAction_of_ne {signal : Nat} (apart : info.signal ≠ signal) :
    urgent { signals with actions := (signals.setAction signal action).2.actions } info =
      urgent signals info := by
  unfold urgent setAction
  split
  · rfl
  · simp [apart.symm]

/-- An `exec` makes no signal urgent. -/
theorem urgent_prepareForExec
    (urgency : urgent { signals with actions := signals.prepareForExec.actions } info) :
    urgent signals info := by
  simp only [urgent, prepareForExec, Vector.getElem?_map, any_map,
    Bool.and_eq_true, any_eq_true] at urgency ⊢
  obtain ⟨valid, action, known, interrupting⟩ := urgency
  refine ⟨valid, action, known, ?_⟩
  split at interrupting
  · rename_i caught
    unfold deliveryFor at interrupting ⊢
    split
    · rename_i masked
      rw [if_pos masked] at interrupting
      exact interrupting
    · rw [if_neg caught.2, if_pos caught.1]
      rfl
  · exact interrupting

/-! ## Updates -/

/-- What a process that is still blocked has been told. -/
structure Heard (before after : Kernel μ) (events : List Event) (pid : Pid)
    (former process : KernelProcess) : Prop where
  blocked : ∀ block, process.state = .blocked block → ∃ past, former.state = .blocked past ∧
    past.interruptible = block.interruptible ∧ past.endsBySignal = block.endsBySignal
  unwoken : ∀ event, .woke pid event ∉ events
  calmer : ∀ info, urgent process.signals info → urgent former.signals info
  awaits : ∀ info, after.Awaits pid process.signals info → before.Awaits pid former.signals info ∨
    .notified pid info ∈ events ∧
      ∀ block, process.state = .blocked block → block.endsBySignal → ¬urgent process.signals info

/-- No process is blocked that was not so before, and those that are still
blocked have been told what the journal says. -/
structure Alerts (before after : Kernel μ) (events : List Event) : Prop where
  journal : after.journal = events ++ before.journal
  heard : ∀ pid process, after.processes pid = some process → process.state.isBlocked →
    ∃ former, before.processes pid = some former ∧ Heard before after events pid former process

/-- A process that is as it was. -/
theorem Heard.of_state {events : List Event} {pid : Pid} {former process : KernelProcess}
    (state : process.state = former.state) (unwoken : ∀ event, .woke pid event ∉ events)
    (calmer : ∀ info, urgent process.signals info → urgent former.signals info)
    (awaits : ∀ info, after.Awaits pid process.signals info →
      before.Awaits pid former.signals info) :
    Heard before after events pid former process :=
  ⟨fun block same => ⟨block, state ▸ same, rfl, rfl⟩, unwoken, calmer,
    fun info awaited => .inl (awaits info awaited)⟩

theorem ProcessState.exists_of_isBlocked {state : ProcessState} (blocked : state.isBlocked) :
    ∃ block, state = .blocked block := by
  cases state with
  | blocked block => exact ⟨block, rfl⟩
  | runnable | running | stopped | exited | faulted => nomatch blocked

namespace Alerts

variable {first second third : Kernel μ} {older newer : List Event}

theorem trans (earlier : Alerts first second older) (later : Alerts second third newer) :
    Alerts first third (newer ++ older) where
  journal := by rw [later.journal, earlier.journal, List.append_assoc]
  heard pid process found blocked := by
    obtain ⟨middle, known, now⟩ := later.heard pid process found blocked
    obtain ⟨block, state⟩ := ProcessState.exists_of_isBlocked blocked
    obtain ⟨past, before, interruptible, ends⟩ := now.blocked block state
    obtain ⟨former, origin, told⟩ := earlier.heard pid middle known (by rw [before]; rfl)
    refine ⟨former, origin, ⟨fun other same => ?_, fun event member => ?_, fun info urgency => ?_,
      fun info awaits => ?_⟩⟩
    · cases state.symm.trans same
      obtain ⟨oldest, was, kept, still⟩ := told.blocked past before
      exact ⟨oldest, was, kept.trans interruptible, still.trans ends⟩
    · rcases List.mem_append.mp member with fresh | old
      · exact now.unwoken event fresh
      · exact told.unwoken event old
    · exact told.calmer info (now.calmer info urgency)
    rcases now.awaits info awaits with awaited | ⟨notified, calm⟩
    · rcases told.awaits info awaited with awaited | ⟨notified, calm⟩
      · exact .inl awaited
      · refine .inr ⟨List.mem_append_right _ notified, fun other same ended urgency => ?_⟩
        cases state.symm.trans same
        exact calm past before (ends.trans ended) (now.calmer info urgency)
    · exact .inr ⟨List.mem_append_left _ notified, calm⟩

/-- Processes keep their signals. -/
theorem of_eq (journal : second.journal = newer ++ first.journal)
    (processes : second.processes = first.processes) (queued : ∀ pid, (first.processes pid).isSome →
      second.queuedSignals pid ⊆ first.queuedSignals pid)
    (unwoken : ∀ pid process event, first.processes pid = some process →
      process.state.isBlocked → .woke pid event ∉ newer) : Alerts first second newer where
  journal
  heard pid process found blocked := by
    rw [processes] at found
    refine ⟨process, found, .of_state rfl (fun event => unwoken pid process event found blocked)
      (fun _ => id) fun info awaits => ?_⟩
    exact awaits.imp_right fun member => queued pid (by rw [found]; rfl) member

end Alerts

/-- `Alerts`, whatever the events are. -/
def Alerted (before after : Kernel μ) : Prop :=
  ∃ events, Alerts before after events

namespace Alerted

variable {first second third : Kernel μ}

theorem trans (earlier : Alerted first second) (later : Alerted second third) :
    Alerted first third := by
  obtain ⟨older, one⟩ := earlier
  obtain ⟨newer, two⟩ := later
  exact ⟨newer ++ older, one.trans two⟩

theorem of_eq (journal : second.journal = first.journal)
    (processes : second.processes = first.processes)
    (queued : second.queuedSignals = first.queuedSignals) : Alerted first second :=
  ⟨[], .of_eq journal processes (fun _ _ => by rw [queued]; exact List.Subset.refl _)
    fun _ _ _ _ _ member => nomatch member⟩

end Alerted

variable {block : BlockType}

theorem Eased.interruptible {before after : KernelProcess}
    (eased : Eased before after) (blocked : after.state = .blocked block) :
    ∃ past, before.state = .blocked past ∧ past.interruptible = block.interruptible ∧
      past.endsBySignal = block.endsBySignal := by
  rcases eased.blocked blocked with same | ⟨key, target, bitset, deadline, former, rfl⟩
  · exact ⟨block, same, rfl, rfl⟩
  · exact ⟨_, former, rfl, rfl⟩

theorem Stirs.alerted (stirs : Stirs True before after) : Alerted before after := by
  obtain ⟨events, journal, minor⟩ := stirs.journal
  refine ⟨events, journal, fun pid process found blocked => ?_⟩
  obtain ⟨former, known, touched⟩ := stirs.exists_origin found
  have signals := touched.signals trivial
  refine ⟨former, known, ⟨fun block => touched.eased.interruptible, fun event member => ?_,
    fun info urgency => signals ▸ urgency, fun info awaits => ?_⟩⟩
  · exact minor _ member
  · rw [Kernel.Awaits, stirs.queuedSignals, signals] at awaits
    exact .inl awaits

namespace Kernel

variable {process : KernelProcess} (kernel : Kernel μ)

theorem alerted_store (pid : Pid)
    (runnable : process.state = .runnable) : Alerted kernel (kernel.store pid process) := by
  refine ⟨[], rfl, fun other stored found blocked => ?_⟩
  rcases found_store found with ⟨-, rfl⟩ | ⟨-, found⟩
  · nomatch blocked.symm.trans (congrArg ProcessState.isBlocked runnable)
  · exact ⟨stored, found, .of_state rfl nofun (fun _ => id) fun _ => id⟩

theorem alerted_drop (pid : Pid) : Alerted kernel (kernel.drop pid) := by
  refine ⟨[], rfl, fun other stored found blocked => ?_⟩
  exact ⟨stored, (found_drop found).2, .of_state rfl nofun (fun _ => id) fun _ => id⟩

/-- Signals are changed so that none becomes urgent, and none becomes pending. -/
theorem alerted_mapProcesses {change : KernelProcess → KernelProcess}
    (signals : ∀ process, Resigned process (change process))
    (calmer : ∀ process info, urgent (change process).signals info → urgent process.signals info)
    (pending : ∀ process info, Pending (change process).signals info →
      Pending process.signals info) : Alerted kernel (kernel.mapProcesses change) := by
  refine ⟨[], rfl, fun pid process found blocked => ?_⟩
  obtain ⟨former, known, rfl⟩ := map_eq_some_iff.mp found
  refine ⟨former, known, .of_state ?_ nofun (calmer former) fun info awaits => ?_⟩
  · rw [signals former]
  · exact awaits.imp_left (pending former info)

theorem alerted_exec (sighand : Nat) :
    Alerted kernel (kernel.mapProcesses (shareActions sighand prepareForExec)) := by
  refine alerted_mapProcesses kernel (resigned_shareActions _ _) ?_ ?_
  · intro process info urgency
    unfold shareActions at urgency
    split at urgency
    · exact urgent_prepareForExec urgency
    · exact urgency
  · intro process info pending
    unfold shareActions at pending
    split at pending <;> exact pending

/-- A block that a signal leaves in place. -/
theorem signalled_blocked {now : Nat}
    (blocked : (signalled now info process).state = .blocked block) :
    process.state = .blocked block ∧
      (signalled now info process).signals = process.signals.enqueue info ∧
      (block.endsBySignal → urgent process.signals info = false) := by
  unfold signalled at blocked ⊢
  dsimp only at blocked ⊢
  split at blocked
  · rename_i deliverable
    rw [if_pos deliverable]
    cases state : process.state with
    | blocked former =>
      rw [state] at blocked
      cases former with
      | timer | poll | futex | signalSuspend => nomatch blocked
      | file | vfork | waitChild =>
        cases blocked
        exact ⟨rfl, rfl, nofun⟩
    | runnable | running | stopped | exited | faulted =>
      rw [state] at blocked
      nomatch blocked
  · rename_i nothing
    rw [if_neg nothing]
    exact ⟨blocked, rfl, fun _ => not_urgent_of_enqueue (by simpa using nothing)⟩

theorem alerted_signalProcess (pid : Pid) (info : SignalInfo) :
    Alerted kernel (kernel.signalProcess pid info) := by
  unfold signalProcess
  split
  · exact .of_eq rfl rfl rfl
  rename_i process found
  dsimp only
  generalize resumption : (if continued info process then { process with state := .runnable }
    else process) = resumed
  obtain ⟨cpus, timers, futexes, same⟩ := kernel.settle_eq pid process
    (signalled kernel.monotonicNanos info resumed)
  rw [same]
  refine ⟨[.notified pid info], rfl, fun other stored known blocked => ?_⟩
  by_cases here : other = pid
  · subst here
    simp only [record, store, update_self, Option.some.injEq] at known
    subst known
    obtain ⟨block, state⟩ := ProcessState.exists_of_isBlocked blocked
    obtain ⟨before, signals, masked⟩ := signalled_blocked state
    -- A process that was continued is not blocked.
    have unchanged : resumed = process := by
      rw [← resumption] at before ⊢
      split at before
      · cases before
      · rename_i stays
        exact if_neg stays
    subst unchanged
    have urgency (other : SignalInfo) :
      urgent (signalled kernel.monotonicNanos info resumed).signals
        other = urgent resumed.signals other := by
      rw [signals]
      exact urgent_of_same (actions_enqueue _ _) (blocked_enqueue _ _) other
    refine ⟨resumed, found, ⟨fun now same => ?_, fun event member => ?_, fun other urgent => ?_,
      fun other awaits => ?_⟩⟩
    · cases state.symm.trans same
      exact ⟨block, before, rfl, rfl⟩
    · simp at member
    · rwa [urgency] at urgent
    rcases awaits with pending | queued
    · rw [signals] at pending
      rcases pending.of_enqueue with pending | rfl
      · exact .inl (.inl pending)
      · refine .inr ⟨List.mem_singleton.mpr rfl, fun now same ends => ?_⟩
        cases state.symm.trans same
        rw [urgency, masked ends]
        exact Bool.false_ne_true
    · exact .inl (.inr queued)
  · simp only [record, store, update_of_ne here] at known
    exact ⟨stored, known, .of_state rfl (by simp) (fun _ => id) fun _ => id⟩

theorem alerted_passes {cpu : Nat} {taken : Option Pid}
    (passes : Passes cpu taken before after) : Alerted before after := by
  refine ⟨[], passes.journal, fun pid process found blocked => ?_⟩
  rcases passes.processes pid with ⟨same, queued⟩ | ⟨former, known, own, -, stored, empty⟩
  · refine ⟨process, same ▸ found, .of_state rfl (by simp) (fun _ => id) fun info awaits => ?_⟩
    rwa [Awaits, queued] at awaits
  cases stored.symm.trans found
  refine ⟨former, known, .of_state rfl (by simp) (fun info urgency => ?_) fun info awaits => ?_⟩
  · rwa [drained, drainQueuedSignals, urgent_foldl] at urgency
  rw [Awaits, empty] at awaits
  rcases awaits with pending | queued
  · have origin := pending.of_foldl
    rwa [own] at origin
  · cases queued

theorem alerted_takePending (pid : Pid) (mask : BitVec 64) :
    Alerted kernel (kernel.mapProcesses fun process =>
      if process.pid = pid then
        { process with signals := process.signals.takePendingInMask mask }
      else process) := by
  refine alerted_mapProcesses kernel (fun process => ?_) (fun process info => ?_)
    fun process info => ?_
  · split <;> rfl
  all_goals
    obtain ⟨pending, same, fewer⟩ := takeInMask_eq process.signals (sanitizeMask mask)
      (List.range' 1 signalMax)
    split
    · rw [takePendingInMask, same]
      first | exact fewer info | exact id
    · exact id

end Kernel

/-- Events that are not about a signal or the wake of a parent. -/
theorem Alerted.of_events (events : List Event) (journal : after.journal = events ++ before.journal)
    (processes : after.processes = before.processes)
    (queuedSignals : after.queuedSignals = before.queuedSignals)
    (quiet : ∀ pid event, .woke pid event ∉ events) : Alerted before after := by
  refine ⟨events, .of_eq journal processes (fun pid _ => ?_) fun pid _ event _ _ member => ?_⟩
  · rw [queuedSignals]
    exact List.Subset.refl _
  · exact quiet pid event member

namespace Kernel

variable {kernel : Kernel μ} {pid : Pid} {process : KernelProcess}

theorem alerted_hear (absent : kernel.processes pid = none) (info : SignalInfo) : Alerted kernel
      { kernel with
        queuedSignals :=
          update kernel.queuedSignals pid (kernel.queuedSignals pid ++ [info]) } := by
  refine ⟨[], .of_eq rfl rfl (fun other present => ?_) fun _ _ _ _ _ member => nomatch member⟩
  have apart : other ≠ pid := by
    rintro rfl
    rw [absent] at present
    nomatch present
  simp [update_of_ne apart]

theorem alerted_woke {parent : Pid}
    (event : ChildEvent) (found : kernel.processes parent = some process)
    (runnable : process.state = .runnable) :
    Alerted kernel (kernel.record (.woke parent event)) := by
  refine ⟨[.woke parent event], .of_eq rfl rfl (fun _ _ => List.Subset.refl _) ?_⟩
  intro pid process other known blocked member
  simp only [List.mem_singleton] at member
  obtain ⟨rfl, rfl⟩ := member
  cases found.symm.trans known
  rw [runnable] at blocked
  nomatch blocked

theorem tracks_alerted : Tracks (fun _ => True) (Alerted (μ := μ)) where
  trans _ _ _ := .trans
  stirs _ _ stirs := stirs.alerted
  aside _ _ aside := ⟨[],
    .of_eq aside.journal aside.processes (fun pid _ => aside.queuedSignals pid)
    fun _ _ _ _ _ member => nomatch member⟩
  count _ _ := .of_eq rfl rfl rfl
  notes _ _ notes := by
    obtain ⟨events, journal, known⟩ := notes.journal
    refine .of_events events journal notes.processes (by rw [notes.rest]) fun pid event member => ?_
    exact known _ member
  signal := alerted_signalProcess
  hear _ _ info absent := alerted_hear absent info
  queue _ parent event _ := .of_events [.queued parent event] rfl rfl rfl (by simp)
  pass _ parent _ _ _ event _ _ _ :=
    .of_events [.passed parent event, .queued parent event] rfl rfl rfl (by simp)
  woke _ _ _ event found runnable := alerted_woke event found runnable
  created _ pid := .of_events [.created pid] rfl rfl rfl (by simp)
  left _ serial := .of_events [.left serial] rfl rfl rfl (by simp)
  store _ _ runnable := alerted_store _ _ runnable
  drop := alerted_drop
  arm _ _ _ _ := .of_eq rfl rfl rfl
  exec := alerted_exec
  turn _ _ _ _ := .of_eq rfl rfl rfl
  passes _ _ _ _ := alerted_passes
  regroups before after regroups := by
    refine ⟨[], by rw [regroups.rest]; rfl, fun pid process found blocked => ?_⟩
    obtain ⟨former, known, group, rfl⟩ := regroups.exists_origin found
    refine ⟨former, known, .of_state rfl nofun (fun _ => id) fun info awaits => ?_⟩
    rwa [regroups.rest] at awaits
  takePending := alerted_takePending

/-! ## Steps -/

/-- No process of the table is in a block that a signal can end while an urgent
signal waits for it. -/
def Quiet (kernel : Kernel μ) : Prop :=
  ∀ pid process block, kernel.processes pid = some process → process.state = .blocked block →
    block.interruptible → ∀ info, kernel.Awaits pid process.signals info →
      ¬urgent process.signals info

/-- An urgent signal reaches a process that is blocked on a file or for a child
only together with the event that it waits for; none is there when a block is
recorded, and no action makes one urgent that a blocked thread has. -/
def Heeds (kernel : Kernel μ) (label : Step μ × List Event) : Prop :=
  (∀ pid info, .notified pid info ∈ label.2 → ∀ process block,
    kernel.processes pid = some process → process.state = .blocked block →
    block.interruptible → block.endsBySignal = false →
    ¬urgent process.signals info ∨ ∃ event, .woke pid event ∈ label.2) ∧
  match label.1 with
  | .finishBlock cpu _ => ∀ process block context,
      (kernel.cpus cpu).activity = .kernel process (.blocking block context) →
      block.interruptible → ∀ info, kernel.Awaits process.pid process.signals info →
        ¬urgent process.signals info
  | .setAction cpu signal action => ∀ caller stage,
      (kernel.cpus cpu).activity = .kernel caller stage → ∀ pid process block,
      kernel.processes pid = some process → process.state = .blocked block →
      block.interruptible → process.sighand = caller.sighand → ∀ info,
      kernel.Awaits pid process.signals info → info.signal = signal →
        ¬urgent (process.signals.setAction signal action).2 info
  | _ => True

/-- A process that stays blocked goes on without an urgent signal. -/
theorem quiet_heard {step : Step μ} {events : List Event}
    (quiet : Quiet kernel) (alerts : Alerts kernel after events)
    (heeds : kernel.Heeds (step, events)) (found : after.processes pid = some process)
    (state : process.state = .blocked block) (interruptible : block.interruptible)
    (awaits : after.Awaits pid process.signals info) : ¬urgent process.signals info := by
  intro urgency
  obtain ⟨former, known, heard⟩ := alerts.heard pid process found (by rw [state]; rfl)
  obtain ⟨past, before, same, ends⟩ := heard.blocked block state
  have earlier := heard.calmer info urgency
  rcases heard.awaits info awaits with awaited | ⟨notified, calm⟩
  · exact quiet pid former past known before (same.trans interruptible) info awaited earlier
  have deaf : past.endsBySignal = false := by
    rw [ends, ← Bool.not_eq_true]
    exact fun ended => calm block state ended urgency
  rcases heeds.1 pid info notified former past known before (same.trans interruptible) deaf with
    harmless | ⟨event, woken⟩
  · exact harmless earlier
  · exact heard.unwoken event woken

section Steps

variable [UserSpaces μ]

theorem quiet_moves {step : Step μ} {events : List Event}
    (sound : Sound kernel) (quiet : Quiet kernel) (moves : Moves kernel step after)
    (journal : after.journal = events ++ kernel.journal)
    (heeds : kernel.Heeds (step, events)) : Quiet after := by
  have same {other : List Event} (more : after.journal = other ++ kernel.journal) :
      other = events := List.append_cancel_right (more.symm.trans journal)
  rcases tracks_alerted.moves sound.keyed sound.running (fun _ _ => trivial)
    (fun _ _ _ => .of_eq rfl rfl rfl) moves with
    ⟨other, alerts⟩ |
    ⟨cpu, ready, process, block, context, timers, futexes, rfl, activity, rfl, -⟩ |
    ⟨cpu, caller, signal, action, activity, rfl, rfl⟩
  · cases same alerts.journal
    exact fun pid process block found state interruptible info =>
      quiet_heard quiet alerts heeds found state interruptible
  · intro pid now kind found state interruptible info awaits
    rcases found_store found with ⟨rfl, rfl⟩ | ⟨-, found⟩
    · cases state
      exact heeds.2 process block context activity interruptible info awaits
    · exact quiet pid now kind found state interruptible info awaits
  intro pid process block found state interruptible info awaits
  obtain ⟨former, known, rfl⟩ := map_eq_some_iff.mp found
  rw [resigned_shareActions] at state
  have before := quiet pid former block known state interruptible info
  unfold shareActions at awaits ⊢
  split at awaits
  · rename_i shared
    rw [if_pos shared]
    by_cases about : info.signal = signal
    · rw [urgent_setAction]
      exact heeds.2 caller .running activity pid former block known state interruptible shared info
        awaits about
    · rw [urgent_setAction_of_ne about]
      exact before awaits
  · rename_i apart
    rw [if_neg apart]
    exact before awaits

/-- As long as urgent signals are noticed when a block is recorded, and reach
only blocks that they end, no blocked process has one. -/
theorem no_lost_signal_wakeup {cpuCount : Nat} {spaces : Nat → μ}
    {labels : List (Step μ × List Event)} {last : Kernel μ}
    (run : Run (Guarded Heeds Performs) (Kernel.new cpuCount spaces) labels last) (pid : Pid)
    (process : KernelProcess) (block : BlockType) (found : last.processes pid = some process)
    (blocked : process.state = .blocked block) (interruptible : block.interruptible)
    (info : SignalInfo) (awaited : Pending process.signals info ∨ info ∈ last.queuedSignals pid) :
    urgent process.signals info = false := by
  obtain ⟨-, quiet⟩ := invariant_of_run (P := Quiet) run (fun sound quiet heeds journal moves =>
    quiet_moves sound quiet moves journal heeds) fun _ _ _ found => nomatch found
  rw [Bool.eq_false_iff]
  exact quiet pid process block found blocked interruptible info awaited

/-! ## A process that blocks -/

/-- A check that is enough for a step to heed signals. -/
def notices (kernel : Kernel μ) (step : Step μ) : Bool :=
  ((kernel.posts step).all fun
    | .notified _ _ => false
    | _ => true) &&
  match step with
  | .finishBlock cpu _ =>
    match (kernel.cpus cpu).activity with
    | .kernel process _ =>
      (process.signals.pending.toList.filterMap id ++
        kernel.queuedSignals process.pid).all fun info => !urgent process.signals info
    | _ => true
  | .setAction _ _ _ => false
  | _ => true

theorem heeds_of_notices (kernel : Kernel μ) (step : Step μ) (_ : Sound kernel)
    (noticed : kernel.notices step) : kernel.Heeds (step, kernel.posts step) := by
  unfold notices at noticed
  rw [Bool.and_eq_true, List.all_eq_true] at noticed
  obtain ⟨posted, own⟩ := noticed
  refine ⟨fun pid info member => (nomatch posted _ member), ?_⟩
  cases step with
  | finishBlock cpu ready =>
    intro process block context activity interruptible info awaits
    dsimp only at own
    rw [activity] at own
    rw [List.all_eq_true] at own
    have calm := own info
    rw [List.mem_append] at calm
    suffices listed : info ∈ process.signals.pending.toList.filterMap id ∨
        info ∈ kernel.queuedSignals process.pid by
      simpa using calm listed
    rcases awaits with ⟨index, pending⟩ | queued
    · left
      rw [List.mem_filterMap]
      exact ⟨some info, Vector.mem_toList_iff.mpr (Vector.mem_of_getElem? pending), rfl⟩
    · exact .inr queued
  | setAction => nomatch own
  | _ => trivial

end Steps

/-- The process is sent a signal, and then its call blocks in a poll. -/
def pollSteps (info : SignalInfo) : List (Step (BitVec 64 → Byte)) :=
  [.service (.sendSignal 1 info), .blockOn 0 (.poll none), .finishBlock 0 false]

/-- `SIGCHLD` waits for a process that does not handle it. -/
theorem no_lost_signal_wakeup_ignored :
    ∃ labels last process, Run (Guarded Heeds Performs) (blank 1) labels last ∧
      labels.map Prod.fst = callSteps ++ pollSteps (.kernel sigchld 0) ∧
      last.processes 1 = some process ∧ process.state = .blocked (.poll none) ∧
      last.queuedSignals 1 = [.kernel sigchld 0] ∧
      urgent process.signals (.kernel sigchld 0) = false := by
  have found : ((blank 1).performWhere notices
      (callSteps ++ pollSteps (.kernel sigchld 0))).map (fun last =>
        ((last.processes 1).map (·.state), last.queuedSignals 1)) =
          some (some (.blocked (.poll none)), [.kernel sigchld 0]) := by
    rfl
  obtain ⟨labels, last, same, run, values⟩ := exists_guarded_run heeds_of_notices found
  rw [Prod.mk.injEq, map_eq_some_iff] at values
  obtain ⟨⟨process, stored, blocked⟩, queued⟩ := values
  refine ⟨labels, last, process, run, same, stored, blocked, queued, ?_⟩
  exact no_lost_signal_wakeup run 1 process (.poll none) stored blocked rfl _
    (.inr (queued ▸ List.mem_singleton.mpr rfl))

/-- `SIGKILL` arrives while the call is running: the block is recorded, and the
signal stays in the queue. -/
theorem kill_is_left_waiting : ∃ labels last process, Run Performs (blank 1) labels last ∧
      labels.map Prod.fst = callSteps ++ pollSteps (.kernel sigkill 0) ∧
      last.processes 1 = some process ∧ process.state = .blocked (.poll none) ∧
      last.queuedSignals 1 = [.kernel sigkill 0] ∧
      urgent process.signals (.kernel sigkill 0) = true := by
  have found : ((blank 1).performAll (callSteps ++ pollSteps (.kernel sigkill 0))).map (fun last =>
      ((last.processes 1).map fun process =>
        (process.state, urgent process.signals (.kernel sigkill 0)), last.queuedSignals 1)) =
          some (some (.blocked (.poll none), true), [.kernel sigkill 0]) := by
    rfl
  obtain ⟨labels, last, same, run, values⟩ := exists_run found
  rw [Prod.mk.injEq, map_eq_some_iff] at values
  obtain ⟨⟨process, stored, facts⟩, queued⟩ := values
  obtain ⟨blocked, kills⟩ := Prod.mk.inj facts
  exact ⟨labels, last, process, run, same, stored, blocked, queued, kills⟩

end Kernel

end AetherKernel.Sched
