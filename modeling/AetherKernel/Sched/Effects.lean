import AetherKernel.Sched.Wakes

/-!
# What is left when a process is given back

The end of a process tells its parent; otherwise it is stored again, runnable
or blocked.  What the manager has done then is said once here.
-/

namespace AetherKernel.Sched

open Lib Signal Std Function Stirs

variable {μ : Type}

namespace Kernel

variable (kernel : Kernel μ)

@[simp]
theorem processes_removeZombie (pid : Pid) :
    (kernel.removeZombie pid).processes = kernel.processes := by
  unfold removeZombie
  split
  · rfl
  rename_i zombie _
  cases zombie.parent <;> rfl

/-- `wait_child_event` finds every event that matches. -/
theorem waitChildEvent_eq_none {kernel after : Kernel μ} {parent : Pid}
    {selector : WaitChildSelector} {options : BitVec 64} {consume : Bool}
    (same : kernel.waitChildEvent parent selector options consume = (none, after)) :
    ∀ event ∈ kernel.childEvents parent, ¬kernel.eventMatches selector options event := by
  unfold waitChildEvent at same
  split at same
  · exact List.find?_eq_none.mp ‹_›
  · split at same
    · split at same <;> nomatch same
    · nomatch same

/-! ## The end of a process -/

theorem stirs_untrackThreadGroup (calm : Prop) (kernel : Kernel μ) (tgid pid : Pid) :
    Stirs calm kernel (kernel.untrackThreadGroup tgid pid) := by
  unfold untrackThreadGroup
  split
  · exact .refl calm kernel
  dsimp only
  split <;> exact of_eq

/-- A group has a status, and its members are woken. -/
theorem wakes_beginThreadGroupExit (tgid pid : Pid) (status : BitVec 32) :
    Wakes pid False { kernel with
        groupExitStatus := update kernel.groupExitStatus tgid (some status) }
      (kernel.beginThreadGroupExit tgid pid status) :=
  wakes_foldl _ wakes_expelMember _

theorem stirs_beginThreadGroupExit (calm : Prop) (kernel : Kernel μ) (tgid pid : Pid)
    (status : BitVec 32) : Stirs calm kernel (kernel.beginThreadGroupExit tgid pid status) := by
  have begun : Stirs calm kernel { kernel with
        groupExitStatus := update kernel.groupExitStatus tgid (some status) } :=
    of_eq
  exact begun.trans ((kernel.wakes_beginThreadGroupExit tgid pid status).stirs calm)

end Kernel

/-- Others are woken for a process that goes, and the parent of a `vfork` is
not blocked for it any more. -/
structure Departs (own : Kin) (before after : Kernel μ) : Prop where
  wakes : Wakes own.pid False before after
  freed : ∀ parent process, own.vforkParent = some parent →
    after.processes parent = some process → process.state ≠ .blocked (.vfork own.pid)

/-- Others are woken for a process that is about to be given back, and its
thread group may begin to exit. -/
inductive Settles (own : Kin) : Kernel μ → Kernel μ → Prop
  | wakes {before after : Kernel μ} (wakes : Wakes own.pid False before after) :
      Settles own before after
  | trans {first second third : Kernel μ} :
      Settles own first second → Settles own second third → Settles own first third
  | exits (kernel : Kernel μ) (status : BitVec 32) :
      Settles own kernel (kernel.beginThreadGroupExit own.threadGroup own.pid status)

namespace Kernel

theorem settles_exitWithGroup (kernel : Kernel μ) (process : KernelProcess) (status : BitVec 32) :
    Settles process.kin kernel (kernel.exitWithGroup process status) := by
  unfold exitWithGroup
  split
  · exact .exits kernel status
  · exact .wakes (.refl kernel)

variable {process : KernelProcess} {kernel after : Kernel μ} {requested : Option Pid} {pid : Pid}

/-- The parent is not blocked for the child afterwards. -/
theorem state_wakeVforkParent {parent child : Pid}
    (found : (kernel.wakeVforkParent parent child).processes parent = some process) :
    process.state ≠ .blocked (.vfork child) := by
  unfold wakeVforkParent at found
  split at found
  · rename_i absent
    nomatch absent.symm.trans found
  rename_i stored present
  split at found
  · rw [processes_enqueueRunnablePid] at found
    cases (update_self ..).symm.trans found
    simp
  · rename_i other
    cases present.symm.trans found
    exact other

theorem departs_wakeVforkParent (kernel : Kernel μ) (process : KernelProcess) :
    Departs process.kin kernel (match process.vforkParent with
      | none => kernel
      | some parent => kernel.wakeVforkParent parent process.pid) := by
  cases known : process.vforkParent with
  | none => exact ⟨.refl kernel, fun _ _ other => nomatch known.symm.trans other⟩
  | some parent =>
    refine ⟨wakes_wakeVforkParent kernel parent _, fun other stored same found => ?_⟩
    cases known.symm.trans same
    exact state_wakeVforkParent found

section Parents

variable [UserSpaces μ]

/-- Apart from the signals that were queued for it, the end of a process only
wakes others, and takes the process out of its thread group. -/
theorem exists_leaveSystem (kernel : Kernel μ) (process : KernelProcess) :
    ∃ middle, Departs process.kin { kernel with
          queuedSignals := update kernel.queuedSignals process.pid [] } middle ∧
      kernel.leaveSystem process =
        middle.untrackThreadGroup process.threadGroup process.pid := by
  obtain ⟨wakes, freed⟩ := departs_wakeVforkParent ({ kernel with
      queuedSignals := update kernel.queuedSignals process.pid [] }.finishProcessExit
        process) process
  exact ⟨_, ⟨(wakes_finishProcessExit _ process).trans wakes, freed⟩, rfl⟩

theorem stirs_leaveSystem (calm : Prop) (kernel : Kernel μ) (process : KernelProcess) : Stirs calm
      { kernel with
        queuedSignals := update kernel.queuedSignals process.pid [] }
      (kernel.leaveSystem process) := by
  obtain ⟨middle, departs, same⟩ := kernel.exists_leaveSystem process
  rw [same]
  exact (departs.wakes.stirs calm).trans (stirs_untrackThreadGroup calm _ _ _)

/-! ## Giving a process back -/

/-- A block is recorded, unless a wake has come while the wait was armed or one
of the files is ready. -/
inductive BlockEnds (kernel : Kernel μ) (process : KernelProcess) (block : BlockType) :
    Kernel μ → Prop
  | raced {key : FutexKey} {bitset : BitVec 32} {deadline : Option Nat}
      (futex : block = .futex key bitset deadline)
      (armed : kernel.armedFutexWaits[process.pid]? = some ⟨key, bitset, true⟩) :
      BlockEnds kernel process block
        (((kernel.disarmFutexWait process.pid).enqueueRunnablePid process.pid
          process.assignedCpu).store process.pid
            { process with wakeResult := some (.futex true false), state := .runnable })
  | ready {result : BlockResult} (file : fileReadyResult (.blocked block) = some result) :
      BlockEnds kernel process block
        (((kernel.disarmFutexWait process.pid).enqueueRunnablePid process.pid
          process.assignedCpu).store process.pid
            { process with wakeResult := some result, state := .runnable })
  | blocks (notRaced : ∀ key bitset deadline, block = .futex key bitset deadline →
        kernel.armedFutexWaits[process.pid]? ≠ some ⟨key, bitset, true⟩) :
      BlockEnds kernel process block
        (((kernel.disarmFutexWait process.pid).trackBlockedProcess process.pid
          (.blocked block)).store process.pid
            { process with wakeResult := none, state := .blocked block })

/-- A block that no wake has raced with. -/
theorem blockEnds_requeueProcess {block : BlockType} (ready : Bool)
    (notRaced : ∀ key bitset deadline, block = .futex key bitset deadline →
      kernel.armedFutexWaits[process.pid]? ≠ some ⟨key, bitset, true⟩) :
    BlockEnds kernel process block ((kernel.disarmFutexWait process.pid).requeueProcess
        { process with wakeResult := none, state := .blocked block } ready) := by
  unfold requeueProcess
  dsimp only
  split
  · rename_i result found
    split at found
    · exact .ready found
    · nomatch found
  · exact .blocks notRaced

variable (kernel) (process)

theorem blockEnds (block : BlockType) (ready : Bool) :
    BlockEnds kernel process block (kernel.finishKernelBlock process block ready) := by
  cases block with
  | futex key bitset deadline =>
    by_cases raced : kernel.armedFutexWaits[process.pid]? = some ⟨key, bitset, true⟩
    · simp only [finishKernelBlock, blockFromDisposition, raced]
      exact .raced rfl raced
    · simp only [finishKernelBlock, blockFromDisposition, raced]
      refine blockEnds_requeueProcess ready ?_
      rintro _ _ _ ⟨⟩
      exact raced
  | timer | file | poll | signalSuspend | vfork | waitChild =>
    exact blockEnds_requeueProcess ready fun _ _ _ none => nomatch none

/-- How the kernel has changed when a system call is over: not at all, by an
`exec`, or by the exit of a thread group. -/
inductive CallEnds (kernel : Kernel μ) (process next : KernelProcess) : Kernel μ → Prop
  | returns (runnable : next.state = .runnable) : CallEnds kernel process next kernel
  | executes (runnable : next.state = .runnable) :
      CallEnds kernel process next
        (kernel.mapProcesses (shareActions process.sighand SignalState.prepareForExec))
  | exits {status : BitVec 32} {middle : Kernel μ} (exited : next.state = .exited status)
      (settles : Settles process.kin kernel middle) :
      CallEnds kernel process next middle
  | stays (notRunning : process.state ≠ .running) (same : next = process) :
      CallEnds kernel process next kernel

theorem finishSyscallDispatch_cases (disposition : SyscallDisposition) :
    ∃ next middle, next.kin = process.kin ∧
      CallEnds (kernel.disarmFutexWait process.pid) process next middle ∧
      kernel.finishSyscallDispatch process disposition = middle.requeueProcess next false := by
  cases disposition with
  | returned value =>
    by_cases running : process.state = .running
    · cases exec : process.pendingExec with
      | none =>
        simp only [finishSyscallDispatch, running, if_true, commitPendingExec, exec]
        exact ⟨_, _, by rfl, .returns (by rfl), rfl⟩
      | some task =>
        simp only [finishSyscallDispatch, running, if_true, commitPendingExec, exec]
        exact ⟨_, _, by rfl, .executes (by rfl), rfl⟩
    · simp only [finishSyscallDispatch, running]
      exact ⟨_, _, rfl, .stays running rfl, rfl⟩
  | exit status =>
    exact ⟨{ process with pendingSyscall := false, state := .exited status }, _, rfl,
      .exits rfl (.wakes (.refl _)), rfl⟩
  | exitGroup status =>
    exact ⟨{ process with pendingSyscall := false, state := .exited status }, _, rfl,
      .exits rfl (.exits _ status), rfl⟩

/-- The states in which `requeue_process` keeps a process. -/
def resting : ProcessState → Bool
  | .running | .faulted _ _ => false
  | .runnable | .stopped _ | .blocked _ | .exited _ => true

def waiting : ProcessState → Bool
  | .blocked _ | .stopped _ => true
  | .runnable | .running | .exited _ | .faulted _ _ => false

/-- The manager has a signal for the exception. -/
def RunReason.HasSignal : RunReason → Prop
  | .interrupt _ => True
  | .exception vector _ _ => exceptionSignal vector ≠ none

/-- In which state a process is given back after a trap. -/
structure Trapped (reason : RunReason) (state : ProcessState) : Prop where
  free : waiting state = false
  resting : reason.HasSignal → resting state

theorem finishProcess_cases (reason : RunReason) :
    ∃ next middle, next.kin = process.kin ∧
      (middle = kernel ∨ Settles process.kin (kernel.drainQueuedSignals process).2 middle) ∧
      Trapped reason next.state ∧
      kernel.finishProcess process reason = middle.requeueProcess next false := by
  cases reason with
  | interrupt vector =>
    exact ⟨{ (kernel.drainQueuedSignals process).1 with state := .runnable }, _, rfl,
      .inr (.wakes (.refl _)), ⟨rfl, fun _ => rfl⟩, rfl⟩
  | exception vector errorCode handled =>
    by_cases resolved : vector = pageFaultVector ∧ handled
    · refine ⟨{ process with state := .runnable }, kernel, rfl, .inl rfl, ⟨rfl, fun _ => rfl⟩, ?_⟩
      simp only [finishProcess, if_pos resolved]
    cases signal : exceptionSignal vector with
    | none =>
      refine ⟨{ (kernel.drainQueuedSignals process).1 with state := .faulted vector errorCode },
        _, rfl, .inr (.wakes (.refl _)), ⟨rfl, fun known => absurd signal known⟩, ?_⟩
      simp only [finishProcess, if_neg resolved, signal]
    | some number =>
      simp only [finishProcess, if_neg resolved, signal]
      unfold queueSynchronousFaultSignal
      split
      · exact ⟨{ (kernel.drainQueuedSignals process).1 with
          state := .exited (signalStatus number) }, _, rfl, .inr (.wakes (.refl _)),
          ⟨rfl, fun _ => rfl⟩, rfl⟩
      split
      · exact ⟨{ (kernel.drainQueuedSignals process).1 with
          signals := (kernel.drainQueuedSignals process).1.signals.enqueue
            (.kernel number (errorCode.setWidth 32))
          state := .runnable }, _, rfl, .inr (.wakes (.refl _)), ⟨rfl, fun _ => rfl⟩, rfl⟩
      · exact ⟨{ (kernel.drainQueuedSignals process).1 with
          state := .exited (signalStatus number) }, _, rfl,
          .inr (settles_exitWithGroup _ (kernel.drainQueuedSignals process).1 _),
          ⟨rfl, fun _ => rfl⟩, rfl⟩

end Parents

/-! ## New pids -/

theorem allocatePid_eq
    {result : Except SysErr Pid} (allocated : kernel.allocatePid requested = (result, after)) :
    ∃ next, after = { kernel with nextPid := next } ∧ ∀ pid, result = .ok pid →
      choosePid kernel.inUse kernel.nextPid requested = .ok (pid, next) := by
  unfold allocatePid at allocated
  split at allocated
  · cases allocated
    exact ⟨kernel.nextPid, rfl, nofun⟩
  · rename_i chosen
    cases allocated
    refine ⟨_, rfl, ?_⟩
    rintro _ ⟨⟩
    exact chosen

theorem allocatePid_ok {next : Pid}
    (allocated : kernel.allocatePid requested = (.ok pid, { kernel with nextPid := next })) :
    choosePid kernel.inUse kernel.nextPid requested = .ok (pid, next) := by
  obtain ⟨other, same, chosen⟩ := allocatePid_eq allocated
  have equal : next = other := congrArg nextPid same
  exact equal ▸ chosen pid rfl

/-! ## Process groups -/

/-- A process is in another process group. -/
def Regrouped (before after : KernelProcess) : Prop :=
  ∃ group, after = { before with processGroup := group }

/-- Only process groups have changed. -/
structure Regroups (before after : Kernel μ) : Prop where
  rest : after = { before with processes := after.processes }
  processes : ∀ pid, Option.Rel Regrouped (before.processes pid) (after.processes pid)

theorem Regrouped.refl (process : KernelProcess) : Regrouped process process :=
  ⟨process.processGroup, rfl⟩

theorem Regrouped.trans {first second third : KernelProcess} (earlier : Regrouped first second)
    (later : Regrouped second third) : Regrouped first third := by
  obtain ⟨one, rfl⟩ := earlier
  obtain ⟨two, rfl⟩ := later
  exact ⟨two, rfl⟩

theorem Regroups.refl (kernel : Kernel μ) : Regroups kernel kernel :=
  ⟨rfl, fun _ => optionRel_refl Regrouped.refl _⟩

theorem Regroups.trans {first second third : Kernel μ} (earlier : Regroups first second)
    (later : Regroups second third) : Regroups first third := by
  refine ⟨?_, fun pid => optionRel_trans (fun _ _ _ one two => one.trans two)
    (earlier.processes pid) (later.processes pid)⟩
  rw [later.rest, earlier.rest]

theorem Regroups.exists_origin {before : Kernel μ} (regroups : Regroups before after)
    (found : after.processes pid = some process) :
    ∃ origin, before.processes pid = some origin ∧ Regrouped origin process := by
  have one := regroups.processes pid
  rw [found] at one
  generalize before.processes pid = origin at one
  cases one with
  | some regrouped => exact ⟨_, rfl, regrouped⟩

theorem regroups_setProcessGroup (kernel : Kernel μ) (group pid : Pid) :
    Regroups kernel (kernel.setProcessGroup group pid) := by
  unfold setProcessGroup
  split
  · exact .refl kernel
  rename_i process found
  refine ⟨rfl, fun other => ?_⟩
  by_cases here : other = pid
  · subst here
    simp only [store, update_self, found]
    exact .some ⟨group, rfl⟩
  · simp only [store, update_of_ne here]
    exact optionRel_refl Regrouped.refl _

theorem regroups_foldl (group : Pid) (members : List Pid) (kernel : Kernel μ) :
    Regroups kernel (members.foldl (setProcessGroup group) kernel) := by
  induction members generalizing kernel with
  | nil => exact .refl kernel
  | cons pid rest ih => exact (regroups_setProcessGroup kernel group pid).trans (ih _)

theorem regroups_setpgidLoop (group : Pid) (members : List Pid) (kernel : Kernel μ) :
    Regroups kernel (setpgidLoop group members kernel).2 := by
  induction members generalizing kernel with
  | nil => exact .refl kernel
  | cons pid rest ih =>
    rw [setpgidLoop]
    split
    · exact .refl kernel
    · exact (regroups_setProcessGroup kernel group pid).trans (ih _)

theorem regroups_setpgidChild (kernel : Kernel μ) (caller : KernelProcess) (target group : Pid) :
    Regroups kernel (kernel.setpgidChild caller target group).2 := by
  unfold setpgidChild
  dsimp only
  split
  · exact .refl kernel
  split
  · exact .refl kernel
  split
  · exact .refl kernel
  split
  · exact .refl kernel
  split
  · exact .refl kernel
  split
  · exact .refl kernel
  · exact regroups_setpgidLoop _ _ kernel

theorem regroups_setpgidSelf {caller : KernelProcess} {group : Pid}
    {result : Except SysErr KernelProcess}
    (called : kernel.setpgidSelf caller group = (result, after)) :
    Regroups kernel after ∧ ∀ changed, result = .ok changed → Regrouped caller changed := by
  unfold setpgidSelf at called
  dsimp only at called
  split at called
  · cases called
    exact ⟨.refl kernel, fun _ failed => nomatch failed⟩
  split at called
  · cases called
    exact ⟨.refl kernel, fun _ failed => nomatch failed⟩
  · cases called
    refine ⟨regroups_foldl _ _ kernel, ?_⟩
    rintro _ ⟨⟩
    exact ⟨group, rfl⟩

theorem regroups_setpgid (kernel : Kernel μ) (caller : KernelProcess) (target group : Pid) :
    Regrouped caller (kernel.setpgid caller target group).1 ∧
      Regroups kernel (kernel.setpgid caller target group).2.2 := by
  unfold setpgid
  dsimp only
  generalize (if target = 0 then caller.pid else target) = chosen
  split
  · split
    · rename_i called
      exact ⟨.refl caller, (regroups_setpgidSelf called).1⟩
    · rename_i called
      exact ⟨(regroups_setpgidSelf called).2 _ rfl, (regroups_setpgidSelf called).1⟩
  · exact ⟨.refl caller, regroups_setpgidChild kernel caller _ _⟩

end Kernel

end AetherKernel.Sched
