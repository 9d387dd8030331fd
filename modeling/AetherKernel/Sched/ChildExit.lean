import AetherKernel.Sched.ChildWaitRuns

/-!
# What a parent is told of an exit

A child that exits is reported to its parent by a signal, and by an event with
a zombie to look at.  Which of them is due depends on the actions of the parent
only.  It is what happens when the parent is in the table; nothing is looked up
for a parent that is running.
-/

namespace AetherKernel.Sched

open Lib Signal Std Function Option KernelProcess

namespace KernelProcess

variable (process : KernelProcess)

/-- `SIGCHLD` is ignored. -/
def ignoresChildren : Bool :=
  process.signals.actions[sigchld]?.any fun action => action.handler = sigIgn

/-- `SA_NOCLDWAIT` is set for `SIGCHLD`. -/
def refusesZombies : Bool :=
  process.signals.actions[sigchld]?.any fun action => action.flags &&& saNocldwait ≠ 0

/-- The signals that the exit of a child sends. -/
def exitSignals (parent child : KernelProcess) (status : BitVec 32) : List SignalInfo :=
  if parent.ignoresChildren then [] else [.childExit child.pid status]

end KernelProcess

namespace Kernel

variable {μ : Type} {before after : Kernel μ} {parent child : KernelProcess} {status : BitVec 32}

/-- The signals are pending for a process of the table, or queued for one that
is running. -/
def Hears (before after : Kernel μ) (parent : KernelProcess) (infos : List SignalInfo) : Prop :=
  match after.processes parent.pid with
  | some stored => stored.signals.pending = (infos.foldl SignalState.enqueue parent.signals).pending
  | none =>
    after.queuedSignals parent.pid = before.queuedSignals parent.pid ++ infos

/-- The exit is there to be waited for, or a `wait4` that was waiting for it has
been given it. -/
def Recorded (before after : Kernel μ) (parent child : KernelProcess) (status : BitVec 32) : Prop :=
  after.zombies child.pid = some ⟨child.parent, child.processGroup⟩ ∧
    after.childEvents parent.pid =
      before.childEvents parent.pid ++ [⟨child.pid, .exited status⟩] ∨
  (∃ selector statusPtr infoPtr options,
      parent.state = .blocked (.waitChild selector .wait4 statusPtr infoPtr options)) ∧
    ∃ stored, after.processes parent.pid = some stored ∧ stored.state = .runnable ∧
      stored.wakeResult = some (.completedValue (BitVec.ofNat 64 child.pid))

/-- Nothing is left of the child. -/
def Forgotten (before after : Kernel μ) (parent child : KernelProcess) : Prop :=
  after.zombies child.pid = before.zombies child.pid ∧
    after.childEvents parent.pid = before.childEvents parent.pid

/-- The parent has been told of the exit as its own actions ask for. -/
def Reported (before after : Kernel μ) (parent child : KernelProcess) (status : BitVec 32) : Prop :=
  Hears before after parent (parent.exitSignals child status) ∧
    if parent.ignoresChildren || parent.refusesZombies then Forgotten before after parent child
    else Recorded before after parent child status

section Exit

variable [UserSpaces μ] {process : KernelProcess} {kernel : Kernel μ} {pid : Pid}

/-! ## A parent in the table -/

theorem pending_signalled (now : Nat) (info : SignalInfo) (process : KernelProcess) :
    (signalled now info process).signals.pending = (process.signals.enqueue info).pending := by
  unfold signalled
  dsimp only
  split
  · split
    · unfold SignalState.leaveSigsuspend
      split <;> rfl
    · rfl
    · rfl
    · rfl
    · rfl
  · rfl

/-- `SIGCHLD` does not continue a process, so that it is only made pending. -/
theorem notifySignal_childExit
    (found : kernel.processes pid = some process) (number : Pid) (status : BitVec 32) :
    kernel.notifySignal pid (.childExit number status) = (kernel.settle pid process
        (signalled kernel.monotonicNanos (.childExit number status) process)).record
          (.notified pid (.childExit number status)) := by
  have steady : continued (.childExit number status) process = false := by
    unfold continued SignalInfo.childExit
    split <;> rfl
  unfold notifySignal signalProcess
  simp [found, steady]

/-- The waiting parent can run, and is told which child it was. -/
theorem wakeWaiter_found (kernel : Kernel μ) (pid : Pid) (process : KernelProcess)
    (api : WaitChildApi) (statusPtr : BitVec 64) (event : ChildEvent) :
    (kernel.wakeWaiter pid process api statusPtr event).processes pid = some { process with
            wakeResult :=
              some (.completedValue (if api = .wait4 then BitVec.ofNat 64 event.pid else 0))
            state := .runnable } ∧
      (kernel.wakeWaiter pid process api statusPtr event).zombies = kernel.zombies ∧
      (kernel.wakeWaiter pid process api statusPtr event).childEvents = kernel.childEvents := by
  unfold wakeWaiter
  split
  all_goals
    dsimp only
    rw [enqueueRunnablePid_eq]
    exact ⟨update_self .., rfl, rfl⟩

/-- An event is left for the parent, or ends the `wait4` of the parent. -/
theorem postChildEvent_found
    (found : kernel.processes pid = some process) (number : Pid) (status : BitVec 32) :
    ∃ stored, (kernel.postChildEvent pid ⟨number, .exited status⟩).processes pid = some stored ∧
      stored.signals = process.signals ∧
      ((kernel.postChildEvent pid ⟨number, .exited status⟩).zombies = kernel.zombies ∧
          (kernel.postChildEvent pid ⟨number, .exited status⟩).childEvents pid =
            kernel.childEvents pid ++ [⟨number, .exited status⟩] ∨
        (∃ selector statusPtr infoPtr options,
            process.state = .blocked (.waitChild selector .wait4 statusPtr infoPtr options)) ∧
          stored.state = .runnable ∧
          stored.wakeResult = some (.completedValue (BitVec.ofNat 64 number))) := by
  have queued : kernel.zombies = kernel.zombies ∧ update kernel.childEvents pid
        (kernel.childEvents pid ++ [⟨number, .exited status⟩]) pid =
          kernel.childEvents pid ++ [⟨number, .exited status⟩] :=
    ⟨rfl, update_self ..⟩
  unfold postChildEvent
  rw [found]
  dsimp only
  split
  · rename_i selector api statusPtr infoPtr options state
    obtain ⟨stored, zombies, events⟩ := wakeWaiter_found kernel pid process api statusPtr
      ⟨number, .exited status⟩
    split
    · cases api with
      | wait4 =>
        refine ⟨_, (congrFun (processes_removeZombie _ _) pid).trans stored, rfl,
          .inr ⟨?_, rfl, rfl⟩⟩
        exact ⟨selector, statusPtr, infoPtr, options, state⟩
      | waitId =>
        refine ⟨_, stored, rfl, .inl ⟨zombies, ?_⟩⟩
        exact (update_self ..).trans
          (congrArg (fun events : Pid → List ChildEvent => events pid ++ _) events)
    · exact ⟨process, found, rfl, .inl queued⟩
  · exact ⟨process, found, rfl, .inl queued⟩

/-- A parent of the table, when its child is buried. -/
structure Informed (before after : Kernel μ) (parent child : KernelProcess) (status : BitVec 32)
    (stored : KernelProcess) : Prop where
  found : after.processes parent.pid = some stored
  pending : stored.signals.pending =
    ((parent.exitSignals child status).foldl SignalState.enqueue parent.signals).pending
  eased : Eased parent stored
  zombies : after.zombies = before.zombies
  childEvents : after.childEvents = before.childEvents

theorem informed_signalParent (child : KernelProcess) (status : BitVec 32)
    (found : kernel.processes parent.pid = some parent) :
    ∃ stored, Informed kernel (if parent.ignoresChildren then kernel.leaveSystem child
        else (kernel.leaveSystem child).signalParent (some parent.pid)
          (.childExit child.pid status)) parent child status stored := by
  have stirs := stirs_leaveSystem True kernel child
  obtain ⟨stored, known, touched⟩ := stirs.exists_touched found
  have signals := touched.signals trivial
  cases ignores : parent.ignoresChildren with
  | true =>
    refine ⟨stored, known, ?_, touched.eased, stirs.zombies, stirs.childEvents⟩
    rw [signals, exitSignals, if_pos ignores]
    rfl
  | false =>
    refine ⟨signalled (kernel.leaveSystem child).monotonicNanos
      (.childExit child.pid status) stored, ?_⟩
    have told := stirs_settle _ known (touched_signalled (kernel.leaveSystem child).monotonicNanos
      (.childExit child.pid status) stored) fun _ => blocked_of_signalled
    rw [if_neg Bool.false_ne_true, signalParent, notifySignal_childExit known, record]
    constructor
    · obtain ⟨cpus, timers, futexes, same⟩ := settle_eq (kernel.leaveSystem child)
        parent.pid stored (signalled (kernel.leaveSystem child).monotonicNanos
          (.childExit child.pid status) stored)
      rw [same]
      exact update_self ..
    · rw [pending_signalled, signals, exitSignals, if_neg (by simp [ignores])]
      rfl
    · exact touched.eased.trans (touched_signalled _ _ _).eased
    · exact told.zombies.trans stirs.zombies
    · exact told.childEvents.trans stirs.childEvents

/-- An exit is told to a parent as if it did not stop children. -/
theorem notifyChildEvent_exited (kernel : Kernel μ) (parent number : Pid) (status : BitVec 32) :
    kernel.notifyChildEvent (some parent) ⟨number, .exited status⟩ =
      kernel.postChildEvent parent ⟨number, .exited status⟩ := by
  unfold notifyChildEvent
  dsimp only
  split <;> rfl

theorem reported_bury {middle : Kernel μ} {stored : KernelProcess}
    (informed : Informed kernel middle parent child status stored)
    (known : child.parent = some parent.pid) :
    Reported kernel (middle.bury child status (parent.ignoresChildren || parent.refusesZombies))
      parent child status := by
  unfold bury Reported
  cases forget : parent.ignoresChildren || parent.refusesZombies with
  | true =>
    simp only [if_true, known]
    refine ⟨?_, congrFun informed.zombies _, congrFun informed.childEvents _⟩
    unfold Hears
    rw [show (((middle.record (.marked child.pid)).untrackChildLink
      (some parent.pid) child.pid).record
        (.reaped child.pid)).processes parent.pid = some stored from
          informed.found]
    exact informed.pending
  | false =>
    simp only [Bool.false_eq_true, if_false, known, notifyChildEvent_exited]
    let buried : Kernel μ := { middle with
        zombies := update middle.zombies child.pid
          (some ⟨some parent.pid, child.processGroup⟩) }
    have found : buried.processes parent.pid = some stored := informed.found
    obtain ⟨last, lasts, signals, recorded⟩ := postChildEvent_found found child.pid status
    constructor
    · unfold Hears
      rw [lasts]
      exact (congrArg SignalState.pending signals).trans informed.pending
    rcases recorded with ⟨zombies, events⟩ | ⟨⟨selector, statusPtr, infoPtr, options, waits⟩, woken⟩
    · left
      constructor
      · rw [zombies, known]
        exact update_self ..
      · exact events.trans (congrArg (· ++ _) (congrFun informed.childEvents _))
    · right
      refine ⟨⟨selector, statusPtr, infoPtr, options, ?_⟩, last, lasts, woken⟩
      rcases informed.eased.blocked waits with same | ⟨_, _, _, _, -, futex⟩
      · exact same
      · nomatch futex

theorem reported_of_stored (alone : child.isThread = false) (known : child.parent = some parent.pid)
    (found : kernel.processes parent.pid = some parent) :
    Reported kernel (kernel.reapExitedProcess child status) parent child status := by
  have present : (kernel.record (.left child.serial)).processes parent.pid = some parent :=
    found
  obtain ⟨last, lasts, touched⟩ :=
    (stirs_leaveSystem True (kernel.record (.left child.serial)) child).exists_touched present
  have signals := touched.signals trivial
  have ignores : ((kernel.record (.left child.serial)).leaveSystem child).ignoresSigchld
      (some parent.pid) = parent.ignoresChildren := by
    simp [ignoresSigchld, parentSigchldAction, lasts, signals, ignoresChildren]
  have refuses : ((kernel.record (.left child.serial)).leaveSystem child).wantsNoZombies
      (some parent.pid) = parent.refusesZombies := by
    simp [wantsNoZombies, parentSigchldAction, lasts, signals, refusesZombies]
  obtain ⟨stored, informed⟩ := informed_signalParent child status present
  have after : kernel.reapExitedProcess child status =
      (if parent.ignoresChildren then (kernel.record (.left child.serial)).leaveSystem child
        else ((kernel.record (.left child.serial)).leaveSystem child).signalParent
          (some parent.pid) (.childExit child.pid status)).bury child status
            (parent.ignoresChildren || parent.refusesZombies) := by
    unfold reapExitedProcess
    simp only [alone, Bool.false_eq_true, if_false, known, ignores, refuses, isNone_some,
      Bool.false_or]
  rw [after]
  have reported := reported_bury informed known
  exact reported

/-! ## A parent that is running -/

/-- The exit of a child is reported as the parent asks for, exactly if the
parent is in the table when it happens. -/
theorem exit_is_reported_iff {kernel : Kernel μ} (alone : child.isThread = false)
    (known : child.parent = some parent.pid) (other : parent.pid ≠ child.pid)
    (live : kernel.processes parent.pid = some parent ∨
      kernel.processes parent.pid = none ∧
        ∃ cpu, (kernel.cpus cpu).activity.held = some parent) (status : BitVec 32) :
    Reported kernel (kernel.reapExitedProcess child status) parent child status ↔
      (kernel.processes parent.pid).isSome := by
  rcases live with found | ⟨absent, -⟩
  · simp only [found, isSome_some, iff_true]
    exact reported_of_stored alone known found
  simp only [absent, isSome_none, Bool.false_eq_true, iff_false]
  -- Nothing is known of the actions of the parent, and no signal is queued.
  have stirs := stirs_leaveSystem True (kernel.record (.left child.serial)) child
  have gone : ((kernel.record (.left child.serial)).leaveSystem child).processes
      parent.pid = none := by
    have same := stirs.isSome_processes parent.pid
    rw [show (kernel.record (.left child.serial)).processes parent.pid = none from
      absent] at same
    simpa using same
  have events := congrFun stirs.childEvents parent.pid
  have signals := (congrFun stirs.queuedSignals parent.pid).trans (update_of_ne other ..)
  have after : kernel.reapExitedProcess child status =
      { (kernel.record (.left child.serial)).leaveSystem child with
        zombies := update ((kernel.record (.left child.serial)).leaveSystem child).zombies
          child.pid
            (some ⟨some parent.pid, child.processGroup⟩) }.queueChildEvent
              parent.pid ⟨child.pid, .exited status⟩ := by
    unfold reapExitedProcess bury
    simp only [alone, Bool.false_eq_true, if_false, known, ignoresSigchld, wantsNoZombies,
      parentSigchldAction, bind_some, gone, bind_none, any_none,
      isNone_some, Bool.or_false, signalParent, notifySignal, notifyChildEvent_exited,
      postChildEvent]
  rw [after]
  rintro ⟨hears, records⟩
  cases ignores : parent.ignoresChildren with
  | true =>
    -- The parent wants to know nothing, and still there is an event.
    simp only [ignores] at records
    have told := records.2.symm.trans ((update_self ..).trans (congrArg (· ++ _) events))
    simp [record] at told
  | false =>
    unfold Hears exitSignals at hears
    generalize found : Kernel.processes _ parent.pid = entry at hears
    obtain rfl : entry = none := found.symm.trans gone
    rw [if_neg (by simp [ignores])] at hears
    simpa [record] using signals.symm.trans hears

end Exit

/-! ## A child on another processor -/

/-- The child is about to exit. -/
def dyingSteps : List (Step (BitVec 64 → Byte)) :=
  [.take 1, .publish 1, .enter 1, .compute 1 (.exit 0)]

/-- The parent has returned from its call and waits to run again. -/
theorem exit_is_reported_to_stored_parent :
    ∃ labels kernel parent child, Run Performs (blank 2) labels kernel ∧
      kernel.processes 1 = some parent ∧ (kernel.cpus 1).activity.held = some child ∧
      child.pid = 2 ∧ Reported kernel (kernel.reapExitedProcess child 0) parent child 0 := by
  have found : ((blank 2).performAll (callSteps ++ forkSteps ++
      [.compute 0 (.returned (.ok 2)), .finishReturn 0] ++ dyingSteps)).map (fun kernel =>
        (kernel.processes 1).bind fun parent => (kernel.cpus 1).activity.held.map fun child =>
          (parent.pid, child.pid, child.parent, child.isThread)) =
      some (some (1, 2, some 1, false)) := by
    decide +kernel
  obtain ⟨labels, kernel, -, run, rest⟩ := exists_run found
  obtain ⟨parent, stored, rest⟩ := bind_eq_some_iff.mp rest
  obtain ⟨child, held, values⟩ := map_eq_some_iff.mp rest
  simp only [Prod.mk.injEq] at values
  obtain ⟨one, two, known, alone⟩ := values
  refine ⟨labels, kernel, parent, child, run, stored, held, two, ?_⟩
  refine (exit_is_reported_iff alone (by rw [known, one]) (by rw [one, two]; decide)
    (.inl (by rw [one, stored])) 0).mpr ?_
  rw [one, stored]
  rfl

/-- The parent is in a call on the first processor when its child exits on the
second: it does not ignore `SIGCHLD`, and the signal is lost. -/
theorem exit_signal_is_lost :
    ∃ labels before after parent child, Run Performs (blank 2) labels before ∧
      before.perform (.finishReturn 1) = some after ∧
      (before.cpus 0).activity.held = some parent ∧ parent.pid = 1 ∧
      (before.cpus 1).activity.held = some child ∧ child.parent = some 1 ∧
      child.isThread = false ∧ ¬Reported before after parent child 0 := by
  have found : ((blank 2).performAll (callSteps ++ forkSteps ++ dyingSteps)).map (fun before =>
      (before.perform (.finishReturn 1)).bind fun after =>
        (before.cpus 0).activity.held.bind fun parent =>
          (before.cpus 1).activity.held.map fun child =>
          ((parent.pid, parent.ignoresChildren), (child.parent, child.isThread),
            (after.processes 1).isNone, (after.queuedSignals 1).isEmpty)) =
      some (some ((1, false), (some 1, false), true, true)) := by
    decide +kernel
  obtain ⟨labels, before, -, run, rest⟩ := exists_run found
  obtain ⟨after, moved, rest⟩ := bind_eq_some_iff.mp rest
  obtain ⟨parent, running, rest⟩ := bind_eq_some_iff.mp rest
  obtain ⟨child, held, values⟩ := map_eq_some_iff.mp rest
  simp only [Prod.mk.injEq, isNone_iff_eq_none, List.isEmpty_iff] at values
  obtain ⟨⟨one, ignores⟩, ⟨known, alone⟩, gone, still⟩ := values
  refine ⟨labels, before, after, parent, child, run, moved, running, one, held, known, alone, ?_⟩
  rintro ⟨hears, -⟩
  unfold Hears exitSignals at hears
  rw [one, gone, if_neg (by simp [ignores])] at hears
  simp [still] at hears

end Kernel

end AetherKernel.Sched
