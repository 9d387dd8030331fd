import AetherKernel.Sched.Dispatch
import AetherKernel.Sched.Moves

/-!
# The updates of the manager

Every use of the manager is a sequence of a few updates: processes are woken
and signalled, parents are told, and the process on whose behalf the manager is
used enters or leaves the table.  An invariant is looked at for each of these
updates, and holds for all that the manager does.
-/

namespace AetherKernel.Sched

open Lib Signal Std Function

variable {μ : Type} {own : Kin} {losing : Prop} {parent : Pid} {one two : Flight}
  {event : ChildEvent} {before after : Kernel μ}

/-- The wait of a process that is blocked for its children. -/
def ProcessState.watch : ProcessState → Option (WaitChildSelector × BitVec 64)
  | .blocked (.waitChild selector _ _ _ options) => some (selector, options)
  | _ => none

/-- The journal and the tables of processes are the same; run queues may have
become longer, and queues of signals shorter. -/
structure Aside (before after : Kernel μ) : Prop where
  rest : after = { before with
      cpus := after.cpus
      queuedSignals := after.queuedSignals
      blockedTimers := after.blockedTimers
      fileWaitQueue := after.fileWaitQueue
      spaces := after.spaces
      monotonicNanos := after.monotonicNanos }
  activity : ∀ cpu, (after.cpus cpu).activity = (before.cpus cpu).activity
  current : ∀ cpu, (after.cpus cpu).current = (before.cpus cpu).current
  queue : ∀ cpu, ∀ pid ∈ (before.cpus cpu).runQueue, pid ∈ (after.cpus cpu).runQueue
  queuedSignals : ∀ pid, after.queuedSignals pid ⊆ before.queuedSignals pid

/-- What is known of the waits for a child and of its end. -/
def Event.Note : Event → Prop
  | .consumed _ _ | .seen _ _ | .marked _ | .reaped _ => True
  | .created _ | .queued _ _ | .passed _ _ | .woke _ _ | .notified _ _ | .counted _
  | .left _ => False

/-- Only zombies and the events of children have changed, of which none is new. -/
structure Notes (before after : Kernel μ) : Prop where
  rest : after = { before with
      zombies := after.zombies
      parentChildren := after.parentChildren
      childEvents := after.childEvents
      journal := after.journal }
  childEvents : ∀ pid, after.childEvents pid ⊆ before.childEvents pid
  journal : ∃ events, after.journal = events ++ before.journal ∧ ∀ event ∈ events, event.Note

/-- Where the process is on whose behalf the manager is used. -/
inductive Flight where
  /-- Nowhere in particular. -/
  | home
  /-- Not in any table yet. -/
  | unborn (own : Kin)
  /-- New, and in its thread group. -/
  | listed (own : Kin)
  /-- Taken out of the table, or given back and not yet in it again. -/
  | away (own : Kin)
  /-- Gone, and to be buried. -/
  | left (own : Kin)
  /-- A zombie, of which the parent is to be told. -/
  | dead (own : Kin)

/-- Parents are told of children in the table, and of the process itself. -/
inductive Telling (own : Kin) (kernel : Kernel μ) (parent : Pid) :
    Flight → Flight → ChildEvent → Prop
  | child {flight : Flight} {process : KernelProcess} {event : ChildEvent}
      (found : kernel.processes event.pid = some process)
      (known : process.parent = some parent)
      (lives : ∀ status, event.kind ≠ .exited status) :
      Telling own kernel parent flight flight event
  | own {event : ChildEvent} (same : event.pid = own.pid) (known : own.parent = some parent)
      (lives : ∀ status, event.kind ≠ .exited status) :
      Telling own kernel parent (.away own) (.away own) event
  | exit (known : own.parent = some parent) (status : BitVec 32) :
      Telling own kernel parent (.dead own) .home ⟨own.pid, .exited status⟩

/-- What the manager does on behalf of the process `own`, which it may let go of
only if `losing` holds. -/
inductive Follows (own : Kin) (losing : Prop) : Flight → Flight → Kernel μ → Kernel μ → Prop
  | wakes {flight : Flight} {before after : Kernel μ} (wakes : Wakes own.pid True before after) :
      Follows own losing flight flight before after
  | trans {one two three : Flight} {first second third : Kernel μ} :
      Follows own losing one two first second → Follows own losing two three second third →
      Follows own losing one three first third
  | aside {flight : Flight} {before after : Kernel μ} (aside : Aside before after) :
      Follows own losing flight flight before after
  | signal {flight : Flight} (kernel : Kernel μ) (pid : Pid) (info : SignalInfo) :
      Follows own losing flight flight kernel (kernel.signalProcess pid info)
  /-- A signal waits for a process that is not in the table. -/
  | hear {flight : Flight} {kernel : Kernel μ} {pid : Pid} (absent : kernel.processes pid = none)
      (info : SignalInfo) :
      Follows own losing flight flight kernel { kernel with
          queuedSignals :=
            update kernel.queuedSignals pid (kernel.queuedSignals pid ++ [info]) }
  /-- An event is left for a parent that does not wait. -/
  | queue {one two : Flight} {kernel : Kernel μ} {parent : Pid} {event : ChildEvent}
      (tells : Telling own kernel parent one two event)
      (free : ∀ process, kernel.processes parent = some process → process.state.watch = none) :
      Follows own losing one two kernel (kernel.queueChildEvent parent event)
  /-- An event is not what the parent waits for. -/
  | pass {one two : Flight} {kernel : Kernel μ} {parent : Pid} {process : KernelProcess}
      {selector : WaitChildSelector} {options : BitVec 64} {event : ChildEvent}
      (tells : Telling own kernel parent one two event)
      (found : kernel.processes parent = some process)
      (watches : process.state.watch = some (selector, options))
      (unmatched : options &&& wnohang = 0 → ¬kernel.eventMatches selector options event) :
      Follows own losing one two kernel
        ((kernel.queueChildEvent parent event).record (.passed parent event))
  /-- The parent has been woken by an event. -/
  | woke {flight : Flight} {kernel : Kernel μ} {parent : Pid} {process : KernelProcess}
      (event : ChildEvent) (found : kernel.processes parent = some process)
      (runnable : process.state = .runnable) :
      Follows own losing flight flight kernel (kernel.record (.woke parent event))
  /-- A parent that is blocked in a `wait4` is woken and given the event. -/
  | hand {one two : Flight} {kernel middle : Kernel μ} {parent : Pid}
      {process woken : KernelProcess} {selector : WaitChildSelector}
      {statusPtr infoPtr options : BitVec 64} {event : ChildEvent}
      (found : kernel.processes parent = some process)
      (blocked : process.state = .blocked (.waitChild selector .wait4 statusPtr infoPtr options))
      (wakes : Wakes own.pid True kernel middle)
      (stored : middle.processes parent = some woken) (runnable : woken.state = .runnable)
      (tells : Telling own middle parent one two event) :
      Follows own losing one two kernel ((middle.record (.woke parent event)).handOver parent event)
  | enlist (kernel : Kernel μ) :
      Follows own losing (.unborn own) (.listed own) kernel
        (kernel.trackThreadGroup own.threadGroup own.pid)
  | link {flight : Flight} (kernel : Kernel μ)
    (coming : flight = .unborn own ∨ flight = .listed own) :
      Follows own losing flight flight kernel (kernel.trackChildLink own.parent own.pid)
  | born {kernel : Kernel μ} {process : KernelProcess} (same : process.kin = own)
      (runnable : process.state = .runnable) :
      Follows own losing (.listed own) .home kernel (kernel.insertProcess process)
  | drop {kernel : Kernel μ} {process : KernelProcess}
      (found : kernel.processes own.pid = some process) (same : process.kin = own)
      (idle : (kernel.cpus own.assignedCpu).activity = .idle) :
      Follows own losing .home (.away own) kernel (kernel.drop own.pid)
  | store {kernel : Kernel μ} {process : KernelProcess} (same : process.kin = own)
      (runnable : process.state = .runnable) :
      Follows own losing (.away own) .home kernel (kernel.store own.pid process)
  /-- The manager has let go of the process, and nobody has it. -/
  | lost (kernel : Kernel μ) (allowed : losing) :
      Follows own losing (.away own) .home kernel kernel
  | exits (kernel : Kernel μ) (status : BitVec 32) :
      Follows own losing (.away own) (.away own) kernel
        (kernel.beginThreadGroupExit own.threadGroup own.pid status)
  | leaves {kernel middle : Kernel μ}
      (departs : Departs own (kernel.record (.left own.serial)) middle) :
      Follows own losing (.away own) (.left own) kernel
        (middle.untrackThreadGroup own.threadGroup own.pid)
  | retire (kernel : Kernel μ) (thread : own.threadGroup ≠ own.pid) :
      Follows own losing (.left own) .home kernel
        ((kernel.record (.marked own.pid)).record (.reaped own.pid))
  | forget (kernel : Kernel μ) (leader : own.threadGroup = own.pid) :
      Follows own losing (.left own) .home kernel
        (((kernel.record (.marked own.pid)).untrackChildLink own.parent own.pid).record
          (.reaped own.pid))
  | zombie (kernel : Kernel μ) (leader : own.threadGroup = own.pid) (group : Pid) :
      Follows own losing (.left own) (.dead own) kernel { kernel with
          zombies := update kernel.zombies own.pid (some ⟨own.parent, group⟩) }
  | arm {flight : Flight} (kernel : Kernel μ) (key : FutexKey) (bitset : BitVec 32) :
      Follows own losing flight flight kernel (kernel.armFutexWait own.pid key bitset)
  /-- An `exec` resets the signal actions of all who share them. -/
  | exec {flight : Flight} (kernel : Kernel μ) (sighand : Nat) :
      Follows own losing flight flight kernel
        (kernel.mapProcesses (Kernel.shareActions sighand SignalState.prepareForExec))

namespace Aside

theorem of_rest (rest : after = { before with
        blockedTimers := after.blockedTimers
        fileWaitQueue := after.fileWaitQueue
        spaces := after.spaces
        monotonicNanos := after.monotonicNanos }) : Aside before after := by
  rw [rest]
  exact ⟨rfl, fun _ => rfl, fun _ => rfl, fun _ _ member => member, fun _ => List.Subset.refl _⟩

variable (aside : Aside before after)
include aside

theorem cpuCount : after.cpuCount = before.cpuCount := by
  rw [aside.rest]

theorem processes : after.processes = before.processes := by
  rw [aside.rest]

theorem childEvents : after.childEvents = before.childEvents := by
  rw [aside.rest]

theorem journal : after.journal = before.journal := by
  rw [aside.rest]

end Aside

namespace Notes

variable {first second third : Kernel μ}

theorem refl (kernel : Kernel μ) : Notes kernel kernel :=
  ⟨rfl, fun _ => List.Subset.refl _, [], rfl, nofun⟩

theorem trans (earlier : Notes first second) (later : Notes second third) : Notes first third := by
  obtain ⟨older, same, known⟩ := earlier.journal
  obtain ⟨newer, next, noted⟩ := later.journal
  refine ⟨?_, fun pid => List.Subset.trans (later.childEvents pid) (earlier.childEvents pid),
    newer ++ older, by rw [next, same, List.append_assoc],
    List.forall_mem_append.mpr ⟨noted, known⟩⟩
  rw [later.rest, earlier.rest]

theorem record (kernel : Kernel μ) {event : Event} (note : event.Note) :
    Notes kernel (kernel.record event) :=
  ⟨rfl, fun _ => List.Subset.refl _, [event], rfl, by simpa using note⟩

/-- Tables of children that have changed. -/
theorem of_rest (rest : second =
      { first with zombies := second.zombies, parentChildren := second.parentChildren }) :
    Notes first second := by
  rw [rest]
  exact ⟨rfl, fun _ => List.Subset.refl _, [], rfl, nofun⟩

theorem processes (notes : Notes first second) : second.processes = first.processes := by
  rw [notes.rest]

end Notes

/-- The child stays in the table while others are woken. -/
theorem Telling.of_stirs {calm : Prop} (tells : Telling own before parent one two event)
    (stirs : Stirs calm before after) : Telling own after parent one two event := by
  cases tells with
  | child found known lives =>
    obtain ⟨process, stored, touched⟩ := stirs.exists_touched found
    exact .child stored (by rw [touched.identity]; exact known) lives
  | own same known lives => exact .own same known lives
  | exit known status => exact .exit known status

theorem Telling.of_eq (tells : Telling own before parent one two event)
    (processes : after.processes = before.processes) : Telling own after parent one two event := by
  cases tells with
  | child found known lives => exact .child (processes ▸ found) known lives
  | own same known lives => exact .own same known lives
  | exit known status => exact .exit known status

theorem Follows.refl {flight : Flight} (kernel : Kernel μ) :
    Follows own losing flight flight kernel kernel :=
  .wakes (.refl kernel)

namespace Kernel

variable (kernel : Kernel μ)

theorem follows_clearSignals {flight : Flight} (pid : Pid) : Follows own losing flight flight kernel
      { kernel with queuedSignals := update kernel.queuedSignals pid [] } := by
  refine .aside ⟨rfl, fun _ => rfl, fun _ => rfl, fun _ _ member => member, fun other => ?_⟩
  by_cases here : other = pid
  · subst here
    simp
  · simp [update_of_ne here]

/-! ## Parents -/

theorem notes_removeZombie (pid : Pid) : Notes kernel (kernel.removeZombie pid) := by
  unfold removeZombie
  split
  · exact .refl kernel
  refine Notes.trans ?_ (.record _ trivial)
  rename_i zombie _
  cases zombie.parent <;> exact .of_rest rfl

theorem notes_handOver (parent : Pid) (event : ChildEvent) :
    Notes kernel (kernel.handOver parent event) := by
  have consumed : Notes kernel (kernel.record (.consumed parent event)) := .record kernel trivial
  unfold handOver
  split
  · exact consumed.trans (notes_removeZombie _ _)
  · exact consumed

theorem notes_reapZombie (pid : Pid) : Notes kernel (kernel.reapZombie pid) := by
  unfold reapZombie
  split
  · exact .refl kernel
  · exact (notes_removeZombie kernel pid).trans (.record _ trivial)

theorem childEvents_eraseP (parent pid : Pid) (matching : ChildEvent → Bool) :
    update kernel.childEvents parent
      ((kernel.childEvents parent).eraseP matching) pid ⊆ kernel.childEvents pid := by
  by_cases here : pid = parent
  · subst here
    simp only [update_self]
    exact List.eraseP_subset
  · simp [update_of_ne here]

theorem notes_waitChildEvent (parent : Pid) (selector : WaitChildSelector)
    (options : BitVec 64) (consume : Bool) :
    Notes kernel (kernel.waitChildEvent parent selector options consume).2 := by
  unfold waitChildEvent
  split
  · exact .refl kernel
  split
  · rename_i event _ _
    have consumed : Notes kernel ({ kernel with
        childEvents := update kernel.childEvents parent
          ((kernel.childEvents parent).eraseP (kernel.eventMatches selector options)) }.record
            (.consumed parent event)) :=
      ⟨rfl, fun pid => kernel.childEvents_eraseP parent pid _, [.consumed parent event], rfl,
        by simp [Event.Note]⟩
    split
    · exact consumed.trans (notes_reapZombie _ _)
    · exact consumed
  · exact .record kernel trivial

theorem notes_forget (parent : Option Pid) (pid : Pid) : Notes kernel
      (((kernel.record (.marked pid)).untrackChildLink parent pid).record (.reaped pid)) := by
  have marked : Notes kernel (kernel.record (.marked pid)) := .record kernel trivial
  refine marked.trans (Notes.trans ?_ (.record _ trivial))
  cases parent <;> exact .of_rest rfl

section Parents

variable [UserSpaces μ] {process : KernelProcess} {kernel : Kernel μ}

/-- An event is queued for the parent, or handed over to it. -/
theorem follows_postChildEvent (tells : Telling own kernel parent one two event) :
    Follows own losing one two kernel (kernel.postChildEvent parent event) := by
  unfold postChildEvent
  split
  · rename_i absent
    exact .queue tells fun process found => nomatch absent.symm.trans found
  rename_i process found
  split
  · rename_i selector api statusPtr infoPtr options state
    obtain ⟨middle, woken, wakes, stored, runnable, same⟩ :=
      wakeWaiter_eq own.pid True found (by rw [state]; rfl) api statusPtr event
    have still := tells.of_stirs (wakes.stirs True)
    split
    · simp only [wakeWaitingParent, same]
      cases api with
      | wait4 => exact .hand found state wakes stored runnable still
      | waitId =>
        refine (Follows.wakes wakes).trans ((Follows.woke event stored runnable).trans ?_)
        refine .queue (still.of_eq rfl) fun known same => ?_
        cases stored.symm.trans same
        rw [runnable]
        rfl
    · rename_i unmatched
      refine .pass tells found (by rw [state]; rfl) fun patient matching => ?_
      exact unmatched (by simp [matching, patient])
  · rename_i other
    refine .queue tells fun known same => ?_
    cases found.symm.trans same
    generalize process.state = state at other
    cases state with
    | blocked block =>
      cases block with
      | waitChild => exact absurd rfl (other _ _ _ _ _)
      | timer | file | poll | futex | signalSuspend | vfork => rfl
    | runnable | running | stopped | exited | faulted => rfl

theorem follows_notifyChildEvent (tells : Telling own kernel parent one two event) :
    Follows own losing one two kernel (kernel.notifyChildEvent (some parent) event) := by
  have posted : Follows own losing one two kernel (kernel.postChildEvent parent event) :=
    follows_postChildEvent tells
  unfold notifyChildEvent
  dsimp only
  split
  · exact posted
  split
  · exact posted
  · exact posted.trans (.signal _ _ _)
  · exact posted.trans (.signal _ _ _)

/-- The parent, if there is one, is told of a process that lives on. -/
theorem follows_notifyParent {flight : Flight} {parent : Option Pid}
    (tells : ∀ known, parent = some known → Telling own kernel known flight flight event) :
    Follows own losing flight flight kernel (kernel.notifyChildEvent parent event) := by
  cases parent with
  | none => exact .refl kernel
  | some parent => exact follows_notifyChildEvent (tells parent rfl)

variable {flight : Flight} (kernel : Kernel μ)

theorem follows_notifySignal (pid : Pid) (info : SignalInfo) :
    Follows own losing flight flight kernel (kernel.notifySignal pid info) := by
  unfold notifySignal
  split
  · exact .refl kernel
  rename_i process found
  have signal : Follows own losing flight flight kernel (kernel.signalProcess pid info) :=
    .signal kernel pid info
  split
  · refine signal.trans (follows_notifyParent fun parent known => ?_)
    obtain ⟨stored, present, touched⟩ := (stirs_signalProcess kernel pid info).exists_touched found
    exact .child present (by rw [touched.identity]; exact known) (by simp)
  · exact signal

theorem follows_sendSignal (pid : Pid) (info : SignalInfo) :
    Follows own losing flight flight kernel (kernel.sendSignal pid info) := by
  unfold sendSignal
  split
  · exact follows_notifySignal kernel pid info
  · rename_i absent
    unfold queueSignalForRunning
    split
    · exact .refl kernel
    · exact .hear absent info

/-! ## The end of a process -/

theorem follows_leaveSystem (process : KernelProcess) :
    Follows process.kin losing (.away process.kin) (.left process.kin) kernel
      ((kernel.record (.left process.serial)).leaveSystem process) := by
  obtain ⟨middle, departs, same⟩ :=
    (kernel.record (.left process.serial)).exists_leaveSystem process
  rw [same]
  exact (follows_clearSignals kernel process.pid).trans (.leaves departs)

theorem follows_bury (alone : process.isThread = false) (status : BitVec 32) {forget : Bool}
    (orphan : process.parent = none → forget = true) :
    Follows process.kin losing (.left process.kin) .home kernel
      (kernel.bury process status forget) := by
  have leader : process.kin.threadGroup = process.kin.pid := by
    simpa [KernelProcess.isThread, KernelProcess.kin] using alone
  unfold bury
  cases forget with
  | true => exact .forget kernel leader
  | false =>
    cases known : process.parent with
    | none => cases orphan known
    | some parent =>
      have buried : Follows process.kin losing (.left process.kin) (.dead process.kin) kernel
          { kernel with
            zombies := update kernel.zombies process.pid
              (some ⟨process.parent, process.processGroup⟩) } :=
        .zombie kernel leader process.processGroup
      rw [known] at buried
      exact buried.trans (follows_notifyChildEvent (.exit known status))

/-- What is left to do for a process that has left the system. -/
theorem follows_left (process : KernelProcess) (status : BitVec 32) :
    Follows process.kin losing (.left process.kin) .home
      ((kernel.record (.left process.serial)).leaveSystem process)
      (kernel.reapExitedProcess process status) := by
  unfold reapExitedProcess
  dsimp only
  split
  · rename_i thread
    exact .retire _ (process.isThread_iff.mp thread)
  rename_i alone
  have orphan (other : Bool) : process.parent = none →
      (process.parent.isNone || other) = true := by
    intro none
    rw [none]
    rfl
  rw [Bool.or_assoc]
  split
  · exact follows_bury _ (by simpa using alone) status (orphan _)
  · refine Follows.trans ?_ (follows_bury _ (by simpa using alone) status (orphan _))
    cases process.parent with
    | none => exact .refl _
    | some parent => exact follows_notifySignal _ _ _

theorem follows_reapExitedProcess (process : KernelProcess) (status : BitVec 32) :
    Follows process.kin losing (.away process.kin) .home kernel
      (kernel.reapExitedProcess process status) :=
  (follows_leaveSystem kernel process).trans (follows_left kernel process status)

/-! ## Giving a process back -/

theorem follows_requeueProcess
    (same : process.kin = own) (ready : Bool) (free : waiting process.state = false)
    (rests : resting process.state ∨ losing) :
    Follows own losing (.away own) .home kernel (kernel.requeueProcess process ready) := by
  subst same
  have queued : Follows process.kin losing (.away process.kin) (.away process.kin) kernel
      (kernel.enqueueRunnablePid process.pid process.assignedCpu) :=
    .wakes (.enqueue _ _ _)
  unfold requeueProcess
  split
  · rename_i runnable
    exact queued.trans (.store rfl runnable)
  · rename_i signal state
    rw [state] at free
    nomatch free
  · rename_i block state
    rw [state] at free
    nomatch free
  · exact follows_reapExitedProcess kernel process _
  all_goals
    rename_i state
    rw [state] at rests
    exact .lost kernel (rests.resolve_left (by simp [resting]))

end Parents

end Kernel

theorem Settles.follows (settles : Settles own before after) :
    Follows own losing (.away own) (.away own) before after := by
  induction settles with
  | wakes wakes => exact .wakes (wakes.mono False.elim)
  | trans _ _ earlier later => exact earlier.trans later
  | exits kernel status => exact .exits kernel status

namespace Kernel

section Parents

variable [UserSpaces μ] {process : KernelProcess} {kernel : Kernel μ} {cpu : Nat}

theorem follows_finishSyscallDispatch (kernel : Kernel μ)
    (running : process.state = .running) (disposition : SyscallDisposition) :
    Follows process.kin losing (.away process.kin) .home kernel
      (kernel.finishSyscallDispatch process disposition) := by
  have disarmed : Follows process.kin losing (.away process.kin) (.away process.kin) kernel
      (kernel.disarmFutexWait process.pid) := .wakes (.disarm kernel)
  obtain ⟨next, middle, same, ends, result⟩ :=
    kernel.finishSyscallDispatch_cases process disposition
  rw [result]
  refine disarmed.trans ?_
  cases ends with
  | returns runnable =>
    exact follows_requeueProcess _ same false (by rw [runnable]; rfl) (.inl (by rw [runnable]; rfl))
  | executes runnable =>
    exact (Follows.exec _ process.sighand).trans
      (follows_requeueProcess _ same false (by rw [runnable]; rfl) (.inl (by rw [runnable]; rfl)))
  | exits exited settles =>
    exact settles.follows.trans (follows_requeueProcess _ same false (by rw [exited]; rfl)
      (.inl (by rw [exited]; rfl)))
  | stays notRunning => exact absurd running notRunning

theorem follows_finishProcess (kernel : Kernel μ) (process : KernelProcess) (reason : RunReason)
    (signal : reason.HasSignal ∨ losing) :
    Follows process.kin losing (.away process.kin) .home kernel
      (kernel.finishProcess process reason) := by
  obtain ⟨next, middle, same, settles, trapped, result⟩ := kernel.finishProcess_cases process reason
  rw [result]
  refine Follows.trans ?_ (follows_requeueProcess middle same false trapped.free
    (signal.imp_left trapped.resting))
  rcases settles with rfl | settles
  · exact .refl middle
  · exact (follows_clearSignals kernel process.pid).trans settles.follows

/-- Where a process is after its dispatch. -/
def Dispatch.flight (own : Kin) : Dispatch → Flight
  | .run _ _ => .away own
  | .skip | .event => .home

theorem follows_dispatched
    {outcome : Dispatch × Kernel μ} (taken : Dispatched kernel process cpu outcome)
    (goes : kernel.groupExitStatus process.threadGroup = none →
      process.pendingSyscall = false → process.kernelContext = none →
      ∀ info, (process.signals.takeNextDelivery supportsUserHandlers).1 = .stop info → losing) :
    Follows process.kin losing (.away process.kin) (outcome.1.flight process.kin) kernel
      outcome.2 := by
  cases taken with
  | runs group prepared wakes state => exact .wakes (wakes.mono False.elim)
  | ends prepared settles status =>
    refine settles.follows.trans ?_
    rw [← prepared.kin]
    exact follows_reapExitedProcess _ _ status
  | stops group returned stop =>
    exact (follows_notifyParent fun parent known => .own rfl known (by simp)).trans
      (.lost _ (goes group returned.1 returned.2 _ stop))
  | continues stopped signals =>
    refine Follows.trans ?_ (.wakes (.enqueue _ _ _))
    exact (follows_notifyParent fun parent known => .own rfl known (by simp)).trans (.store rfl rfl)

theorem follows_serve {flight : Flight} (kernel : Kernel μ) (service : Service) :
    Follows own losing flight flight kernel (kernel.serve service) :=
  serve_of (fun _ _ _ => .trans) (fun _ _ => .wakes) follows_sendSignal kernel service

/-! ## Steps -/

/-- The signal that a process takes at its dispatch stops it. -/
def Stops (kernel : Kernel μ) (process : KernelProcess) : Prop :=
  kernel.groupExitStatus process.threadGroup = none ∧
    process.pendingSyscall = false ∧ process.kernelContext = none ∧
    ∃ info, ((kernel.drained process).signals.takeNextDelivery supportsUserHandlers).1 = .stop info

/-- A processor passes over some pids, and then takes one process out of the
table and starts it, unless the process has to go another way. -/
inductive Takes (losing : Prop) (kernel : Kernel μ) (cpu : Nat) : Kernel μ → Prop
  | idles {after : Kernel μ} (passes : Passes cpu none kernel after) :
      Takes losing kernel cpu after
  | ends {process : KernelProcess} {middle after : Kernel μ}
      (next : kernel.nextFor cpu = some process)
      (found : kernel.processes process.pid = some process)
      (here : process.assignedCpu = cpu)
      (passes : Passes cpu (some process.pid) kernel middle)
      (follows : Follows process.kin losing .home .home middle after) :
      Takes losing kernel cpu after
  | runs {process started : KernelProcess} {middle after : Kernel μ} (work : DispatchWork)
      (next : kernel.nextFor cpu = some process)
      (found : kernel.processes process.pid = some process)
      (here : process.assignedCpu = cpu)
      (passes : Passes cpu (some process.pid) kernel middle)
      (group : after.groupExitStatus process.threadGroup = none)
      (follows : Follows process.kin losing .home (.away process.kin) middle after)
      (same : started.kin = process.kin) (running : started.state = .running) :
      Takes losing kernel cpu (after.setActivity cpu (.dispatched work started))

theorem takes_take (keyed : Keyed kernel) (idle : (kernel.cpus cpu).activity = .idle)
    (goes : ∀ process, kernel.nextFor cpu = some process → kernel.Stops process → losing) :
    Takes losing kernel cpu (kernel.take cpu) := by
  unfold take
  rcases takeLoop_cases keyed cpu (kernel.cpus cpu).runQueue.length with
    ⟨after, ended, passes, -⟩ | ⟨pid, process, middle, next, found, here, passes, result⟩
  · rw [ended]
    exact .idles passes
  have own := keyed pid process found
  subst own
  obtain ⟨kept, queued⟩ := passes.kept found here
  have still : (middle.cpus process.assignedCpu).activity = .idle := by
    rw [passes.activity, here]
    exact idle
  have dropped : Follows process.kin losing .home (.away process.kin) middle
      ((middle.drop process.pid).drainQueuedSignals process).2 :=
    (Follows.drop kept rfl still).trans (follows_clearSignals _ _)
  rw [result]
  have dispatched := ((middle.drop process.pid).drainQueuedSignals process).2.dispatched
    (middle.drained process) cpu
  have started : Follows (middle.drained process).kin losing _ _ _ _ :=
    follows_dispatched dispatched fun group call context info stop => by
      refine goes process next ⟨?_, call, context, info, ?_⟩
      · rw [← passes.groupExitStatus]
        exact group
      · rw [show kernel.drained process = middle.drained process by
          simp only [drained, drainQueuedSignals, queued]]
        exact stop
  have taken := dropped.trans started
  generalize ((middle.drop process.pid).drainQueuedSignals process).2.dispatchTaken
    (middle.drained process) cpu = outcome at dispatched taken
  cases dispatched with
  | runs group prepared wakes state =>
    refine .runs _ next found here passes ?_ taken prepared.kin state
    rw [wakes.families.groupExitStatus]
    exact group
  | ends | stops | continues => exact .ends next found here passes taken

omit [UserSpaces μ] in
theorem follows_insertClonedProcess (kernel : Kernel μ) (runnable : process.state = .runnable) :
    Follows process.kin losing (.unborn process.kin) .home kernel
      (kernel.insertClonedProcess process) := by
  have enlisted : Follows process.kin losing _ _ kernel
      (kernel.trackThreadGroup process.threadGroup process.pid) := .enlist kernel
  unfold insertClonedProcess
  dsimp only
  split
  · exact enlisted.trans (.born rfl runnable)
  · exact enlisted.trans ((Follows.link _ (.inr rfl)).trans (.born rfl runnable))

/-- The process that `spawn_task` makes. -/
def spawned (kernel : Kernel μ) (parent : Option Pid) (task : Task) (assignedCpu sighand : Nat) :
    KernelProcess :=
  freshProcess kernel.journal.length
    ⟨kernel.nextPid, kernel.nextPid, parent, kernel.nextPid, kernel.nextPid⟩ task
      assignedCpu sighand
      SignalState.new

omit [UserSpaces μ] in
theorem follows_spawnTask (kernel : Kernel μ) (parent : Option Pid) (task : Task)
    (assignedCpu sighand : Nat) :
    Follows (kernel.spawned parent task assignedCpu sighand).kin losing
      (.unborn (kernel.spawned parent task assignedCpu sighand).kin) .home
        { kernel with nextPid := min (kernel.nextPid + 1) (2 ^ 32 - 1) }
        (kernel.spawnTask parent task assignedCpu sighand) := by
  have linked : Follows (kernel.spawned parent task assignedCpu sighand).kin losing
      (.unborn (kernel.spawned parent task assignedCpu sighand).kin) _
        { kernel with nextPid := min (kernel.nextPid + 1) (2 ^ 32 - 1) } _ := .link _ (.inl rfl)
  have listed := linked.trans (.enlist _)
  unfold spawnTask
  cases parent with
  | none | some => exact listed.trans (.born rfl rfl)

end Parents

end Kernel

/-! ## A rule for relations -/

/-- A relation that holds of every update, wherever the process is. -/
structure Traces (R : Kernel μ → Kernel μ → Prop) : Prop where
  trans : ∀ first second third, R first second → R second third → R first third
  stirs : ∀ before after, Stirs True before after → R before after
  aside : ∀ before after, Aside before after → R before after
  count : ∀ (kernel : Kernel μ) next, R kernel { kernel with nextPid := next }
  notes : ∀ before after, Notes before after → R before after
  signal : ∀ kernel pid info, R kernel (kernel.signalProcess pid info)
  hear : ∀ (kernel : Kernel μ) pid info, kernel.processes pid = none → R kernel { kernel with
      queuedSignals :=
        update kernel.queuedSignals pid (kernel.queuedSignals pid ++ [info]) }
  queue : ∀ (kernel : Kernel μ) parent event,
    (∀ process, kernel.processes parent = some process → process.state.watch = none) →
    R kernel (kernel.queueChildEvent parent event)
  pass : ∀ (kernel : Kernel μ) parent process selector options event,
    kernel.processes parent = some process → process.state.watch = some (selector, options) →
    (options &&& wnohang = 0 → ¬kernel.eventMatches selector options event) →
    R kernel ((kernel.queueChildEvent parent event).record (.passed parent event))
  woke : ∀ (kernel : Kernel μ) parent process event, kernel.processes parent = some process →
    process.state = .runnable → R kernel (kernel.record (.woke parent event))
  created : ∀ kernel pid, R kernel (kernel.record (.created pid))
  left : ∀ kernel serial, R kernel (kernel.record (.left serial))
  store : ∀ kernel process, process.state = .runnable →
    R kernel (kernel.store process.pid process)
  drop : ∀ kernel pid, R kernel (kernel.drop pid)
  arm : ∀ kernel pid key bitset, R kernel (kernel.armFutexWait pid key bitset)
  exec : ∀ kernel sighand, R kernel
    (kernel.mapProcesses (Kernel.shareActions sighand SignalState.prepareForExec))

namespace Traces

open Kernel

variable {R : Kernel μ → Kernel μ → Prop} {kernel : Kernel μ}

theorem departs (traces : Traces R)
    (departs : Departs own (kernel.record (.left own.serial)) after) : R kernel after :=
  traces.trans _ _ _ (traces.left _ _) (traces.stirs _ _ (departs.wakes.stirs True))

theorem insertProcess (traces : Traces R) {process : KernelProcess}
    (runnable : process.state = .runnable) : R kernel (kernel.insertProcess process) :=
  traces.trans _ _ _ (traces.store kernel process runnable)
    (traces.trans _ _ _ (traces.stirs _ _ (stirs_enqueueRunnablePid True _ _ _))
      (traces.created _ _))

theorem follows (traces : Traces R)
    (follows : Follows own losing one two before after) : R before after := by
  induction follows with
  | wakes wakes => exact traces.stirs _ _ (wakes.stirs True)
  | trans _ _ earlier later => exact traces.trans _ _ _ earlier later
  | aside aside => exact traces.aside _ _ aside
  | signal kernel pid info => exact traces.signal kernel pid info
  | hear absent info => exact traces.hear _ _ info absent
  | queue tells free => exact traces.queue _ _ _ free
  | pass tells found watches unmatched => exact traces.pass _ _ _ _ _ _ found watches unmatched
  | woke event found runnable => exact traces.woke _ _ _ event found runnable
  | hand found blocked wakes stored runnable tells =>
    exact traces.trans _ _ _ (traces.stirs _ _ (wakes.stirs True))
      (traces.trans _ _ _ (traces.woke _ _ _ _ stored runnable)
        (traces.notes _ _ (notes_handOver _ _ _)))
  | enlist kernel => exact traces.stirs _ _ .of_eq
  | link kernel coming =>
    refine traces.stirs _ _ ?_
    cases own.parent <;> exact Stirs.of_eq
  | born same runnable => exact traces.insertProcess runnable
  | drop found same idle => exact traces.drop _ _
  | store same runnable =>
    subst same
    exact traces.store _ _ runnable
  | lost kernel => exact traces.notes _ _ (.refl kernel)
  | exits kernel status =>
    exact traces.stirs _ _ (stirs_beginThreadGroupExit True kernel _ _ status)
  | leaves departs =>
    exact traces.trans _ _ _ (traces.departs departs)
      (traces.stirs _ _ (stirs_untrackThreadGroup True _ _ _))
  | retire kernel thread =>
    exact traces.notes _ _ (kernel.notes_forget none own.pid)
  | forget kernel leader => exact traces.notes _ _ (kernel.notes_forget own.parent own.pid)
  | zombie kernel leader group => exact traces.notes _ _ (.of_rest rfl)
  | arm kernel key bitset => exact traces.arm kernel _ key bitset
  | exec kernel sighand => exact traces.exec kernel sighand

end Traces

end AetherKernel.Sched
