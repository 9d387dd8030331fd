import AetherKernel.Sched.Follows

/-!
# What a step is made of

A step is a sequence of updates of the manager and a turn of the processor that
makes it.  A relation between states that holds of the updates and of the turns
holds of every step.
-/

namespace AetherKernel.Sched

open Lib Signal Std Function

variable {μ : Type} {losing : Prop}

/-- The call is not between a look for a child and a block. -/
def Stage.Quiet : Stage → Prop
  | .childChecked _ _ | .childWaitable _ _ | .blocking (.waitChild _ _ _ _ _) _ => False
  | _ => True

/-- Only the signals of a process have changed. -/
def Resigned (before after : KernelProcess) : Prop :=
  after = { before with signals := after.signals }

theorem Resigned.trans {first second third : KernelProcess} (earlier : Resigned first second)
    (later : Resigned second third) : Resigned first third := by
  unfold Resigned at earlier later ⊢
  rw [later, earlier]

/-- A process whose block is recorded, with the sets in which wakes find it. -/
def Blocks (kernel : Kernel μ) (step : Step μ) (after : Kernel μ) : Prop :=
  ∃ cpu ready process block context timers futexes, step = .finishBlock cpu ready ∧
    (kernel.cpus cpu).activity = .kernel process (.blocking block context) ∧
    after = { (kernel.setActivity cpu .leaving).disarmFutexWait process.pid with
        blockedTimers := timers, blockedFutexes := futexes }.store process.pid
          { process with
            kernelContext := some context, wakeResult := none, state := .blocked block } ∧
    ∀ key other, other ∈ kernel.blockedFutexes key ∨ other = process.pid ∧
      (∃ bitset deadline, ProcessState.blocked block = .blocked (.futex key bitset deadline)) →
      other ∈ futexes key

/-- The signal actions of processes are replaced. -/
def Resets (kernel : Kernel μ) (step : Step μ) (after : Kernel μ) : Prop :=
  ∃ cpu process signal action, (kernel.cpus cpu).activity = .kernel process .running ∧
    step = .setAction cpu signal action ∧
    after = kernel.mapProcesses (Kernel.shareActions process.sighand fun signals =>
      (signals.setAction signal action).2)

/-- A processor goes on with the process that it has, and does not begin to clone
it or to wait for a child. -/
structure GoesOn (old new : Activity) : Prop where
  kin : new.held.map KernelProcess.kin = old.held.map KernelProcess.kin
  awaits : ∀ child, new.awaits = some child → old.awaits = some child
  reserves : ∀ pid, new.reserves = some pid → old.reserves = some pid

namespace GoesOn

theorem refl (activity : Activity) : GoesOn activity activity :=
  ⟨rfl, fun _ => id, fun _ => id⟩

variable {old new : Activity} {process : KernelProcess}

theorem of_free (same : new.held.map KernelProcess.kin = old.held.map KernelProcess.kin)
    (free : new.awaits = none) (none : new.reserves = none) : GoesOn old new :=
  ⟨same, fun _ awaits => (nomatch free.symm.trans awaits),
    fun _ reserves => nomatch none.symm.trans reserves⟩

theorem of_kernel {next : KernelProcess} {stage later : Stage}
    (same : next.kin = process.kin) (free : later.awaits = none) (none : later.reserves = none) :
    GoesOn (.kernel process stage) (.kernel next later) :=
  .of_free (congrArg some same) free none

theorem map {change : KernelProcess → KernelProcess}
    (kin : ∀ process, (change process).kin = process.kin) (activity : Activity) :
    GoesOn activity (activity.map change) := by
  cases activity with
  | idle | leaving => exact ⟨rfl, fun _ => id, fun _ => id⟩
  | dispatched | user | kernel => exact ⟨congrArg some (kin _), fun _ => id, fun _ => id⟩

theorem exists_former (goesOn : GoesOn old new) (held : new.held = some process) :
    ∃ former, old.held = some former ∧ former.kin = process.kin := by
  have same := goesOn.kin
  rw [held] at same
  exact Option.map_eq_some_iff.mp same.symm

end GoesOn

namespace Kernel

theorem resigned_shareActions (sighand : Nat) (change : SignalState → SignalState)
    (process : KernelProcess) : Resigned process (shareActions sighand change process) := by
  unfold shareActions
  split <;> rfl

theorem Regrouped.kin {before after : KernelProcess} (regrouped : Regrouped before after) :
    after.kin = before.kin := by
  obtain ⟨group, rfl⟩ := regrouped
  rfl

theorem Regrouped.state {before after : KernelProcess} (regrouped : Regrouped before after) :
    after.state = before.state := by
  obtain ⟨group, rfl⟩ := regrouped
  rfl

section Calls

theorem kin_apply (change : OwnChange) (process : KernelProcess) :
    (change.apply process).kin = process.kin := by
  cases change with
  | setsid =>
    simp only [OwnChange.apply]
    split <;> rfl
  | blockedMask | enterSigsuspend | leaveSigsuspend | robustList | clearChildTid => rfl

theorem resumeStage_free (context : KernelContext) (result : BlockResult) :
    (resumeStage context result).awaits = none ∧ (resumeStage context result).reserves = none ∧
      (resumeStage context result).Quiet := by
  unfold resumeStage
  split
  · exact ⟨rfl, rfl, trivial⟩
  · split <;> exact ⟨rfl, rfl, trivial⟩
  · exact ⟨rfl, rfl, trivial⟩
  · exact ⟨rfl, rfl, trivial⟩

/-- What becomes of the call that a processor executes, as far as the process goes
and the looks for children. -/
inductive CallTurn (kernel : Kernel μ) (process : KernelProcess) :
    Stage → Step μ → Activity → Prop
  | quiet {stage later : Stage} {step : Step μ} {next : KernelProcess}
      (pid : next.pid = process.pid) (state : next.state = process.state)
      (quiet : later.Quiet) : CallTurn kernel process stage step (.kernel next later)
  | childMissed (index : Nat) (wait : ChildWait) (selector : WaitChildSelector)
      (nothing : ∀ event ∈ kernel.childEvents process.pid,
        ¬kernel.eventMatches selector wait.options event) :
      CallTurn kernel process (.childWait wait) (.checkChild index selector)
        (.kernel process (.childChecked wait selector))
  | childWaits (index : Nat) {wait : ChildWait} (selector : WaitChildSelector)
      (hangs : wait.nohang = false) :
      CallTurn kernel process (.childChecked wait selector) (.probeChild index)
        (.kernel process (.childWaitable wait selector))
  | blockOnChild (index : Nat) (wait : ChildWait) (checked selector : WaitChildSelector) :
      CallTurn kernel process (.childWaitable wait checked) (.blockOnChild index selector)
        (.kernel { process with wakeResult := none }
          (.blocking (wait.block selector) (.childWait wait)))
  | leaves {stage : Stage} {step : Step μ} : CallTurn kernel process stage step .leaving

/-- What a processor in a call goes on with. -/
structure Proceeds (kernel : Kernel μ) (process : KernelProcess) (stage : Stage) (step : Step μ)
    (activity : Activity) : Prop where
  goesOn : GoesOn (.kernel process stage) activity
  turn : CallTurn kernel process stage step activity

variable {kernel : Kernel μ} {process : KernelProcess} {stage : Stage} {step : Step μ}

theorem Proceeds.quiet {next : KernelProcess} {later : Stage} (same : next.kin = process.kin)
    (state : next.state = process.state) (free : later.awaits = none)
    (none : later.reserves = none) (quiet : later.Quiet) :
    Proceeds kernel process stage step (.kernel next later) :=
  ⟨.of_kernel same free none, .quiet (congrArg Kin.pid same) state quiet⟩

theorem proceeds_startChildWait (wait : ChildWait) :
    Proceeds kernel process stage step (startChildWait process wait) := by
  unfold startChildWait
  split
  · exact .quiet rfl rfl rfl rfl trivial
  split
  · split <;> exact .quiet rfl rfl rfl rfl trivial
  · split <;> exact .quiet rfl rfl rfl rfl trivial
  · exact .quiet rfl rfl rfl rfl trivial

theorem proceeds_blockOnChild (index : Nat) (wait : ChildWait)
    (checked selector : WaitChildSelector) :
    Proceeds kernel process (.childWaitable wait checked) (.blockOnChild index selector)
      (blockOnChild process wait selector) := by
  unfold Kernel.blockOnChild
  cases process.wakeResult with
  | none => exact ⟨.of_kernel rfl rfl rfl, .blockOnChild index wait checked selector⟩
  | some result =>
    obtain ⟨free, none, quiet⟩ := resumeStage_free (.childWait wait) result
    exact .quiet rfl rfl free none quiet

theorem proceeds_blockOn {block : BlockType} (other : isOther block) :
    Proceeds kernel process stage step (blockOn process block) := by
  unfold blockOn
  cases process.wakeResult with
  | some result => exact .quiet rfl rfl rfl rfl trivial
  | none =>
    cases block with
    | vfork | futex | waitChild => nomatch other
    | timer | file | poll | signalSuspend => exact .quiet rfl rfl rfl rfl trivial

theorem proceeds_blockOnVfork (child : Pid) :
    Proceeds kernel process (.vforked child) step (blockOnVfork process child) := by
  unfold blockOnVfork
  cases process.wakeResult with
  | some result => exact .quiet rfl rfl rfl rfl trivial
  | none =>
    exact ⟨⟨rfl, fun _ awaits => awaits, nofun⟩, .quiet rfl rfl trivial⟩

variable [UserSpaces μ] {cpu : Nat}

/-- A probe changes the stage of the processor and the memory of the caller. -/
theorem probeChild_eq (kernel : Kernel μ) (process : KernelProcess) (cpu index : Nat)
    (wait : ChildWait) (selector : WaitChildSelector) :
    ∃ spaces later, kernel.probeChild cpu process wait selector =
        { kernel with spaces }.setActivity cpu (.kernel process later) ∧
      Proceeds kernel process (.childChecked wait selector) (.probeChild index)
        (.kernel process later) := by
  unfold probeChild
  split
  · split
    · obtain ⟨spaces, same⟩ := kernel.replyBytes_eq process
        (if wait.api = .waitId then wait.infoPtr else 0) (List.replicate 128 0) 0
      dsimp only
      rw [same]
      exact ⟨_, _, rfl, .quiet rfl rfl rfl rfl trivial⟩
    · rename_i hangs
      exact ⟨_, _, rfl, .of_kernel rfl rfl rfl, .childWaits index selector (by simpa using hangs)⟩
  · exact ⟨_, _, rfl, .quiet rfl rfl rfl rfl trivial⟩

/-- What a step of a processor in a system call is made of. -/
inductive CallMoves (losing : Prop) (kernel : Kernel μ) (cpu : Nat) (process : KernelProcess) :
    Stage → Step μ → Kernel μ → Prop
  | stays {step : Step μ} : CallMoves losing kernel cpu process .running step kernel
  | goes {stage : Stage} {step : Step μ} {own : Kin} {middle : Kernel μ} {activity : Activity}
      (follows : Follows own losing .home .home kernel middle)
      (proceeds : Proceeds kernel process stage step activity) :
      CallMoves losing kernel cpu process stage step (middle.setActivity cpu activity)
  /-- A wait looks for an event. -/
  | looks {wait : ChildWait} {selector : WaitChildSelector} {spaces : Nat → μ}
      {activity : Activity}
      (proceeds : Proceeds kernel process (.childWait wait) (.checkChild cpu selector) activity) :
      CallMoves losing kernel cpu process (.childWait wait) (.checkChild cpu selector)
        ({ (kernel.waitChildEvent process.pid selector wait.options wait.consume).2 with
          spaces }.setActivity cpu activity)
  | allocates {pid next : Pid} {requested : Option Pid}
      (allocated : kernel.allocatePid requested = (.ok pid, { kernel with nextPid := next })) :
      CallMoves losing kernel cpu process .running (.allocate cpu requested)
        ({ kernel with nextPid := next }.setActivity cpu (.kernel process (.cloning pid)))
  | resets (signal : Nat) (action : SignalAction) :
      CallMoves losing kernel cpu process .running (.setAction cpu signal action)
        (kernel.mapProcesses (shareActions process.sighand fun signals =>
          (signals.setAction signal action).2))
  | regroups {stage : Stage} {step : Step μ} {middle : Kernel μ} {activity : Activity}
      (regroups : Regroups kernel middle)
      (proceeds : Proceeds kernel process stage step activity) :
      CallMoves losing kernel cpu process stage step (middle.setActivity cpu activity)
  | insert {pid : Pid} {params : CloneParams} (valid : params.validate) (task : Task)
      (assignedCpu sighand : Nat) :
      CallMoves losing kernel cpu process (.cloning pid)
        (.insert cpu params task assignedCpu sighand)
        ((kernel.insertClonedProcess (cloneChild kernel.journal.length process params pid task
          assignedCpu sighand)).setActivity cpu (cloned process params kernel.journal.length pid))
  | execve (task : Task) :
      CallMoves losing kernel cpu process .running (.execve cpu task)
        (kernel.execve cpu process task)
  | gives {stage : Stage} {step : Step μ} {after : Kernel μ}
      (follows : Follows process.kin losing (.away process.kin) .home
        (kernel.setActivity cpu .leaving) after) :
      CallMoves losing kernel cpu process stage step after
  | blocks {stage : Stage} {step : Step μ} {after : Kernel μ} (blocks : Blocks kernel step after) :
      CallMoves losing kernel cpu process stage step after

theorem callMoves_finishKernelBlock {block : BlockType} {context : KernelContext}
    (activity : (kernel.cpus cpu).activity = .kernel process (.blocking block context))
    (ready : Bool) :
    CallMoves losing kernel cpu process (.blocking block context) (.finishBlock cpu ready)
      ((kernel.setActivity cpu .leaving).finishKernelBlock
        { process with kernelContext := some context } block ready) := by
  have ends := (kernel.setActivity cpu .leaving).blockEnds
    { process with kernelContext := some context } block ready
  generalize (kernel.setActivity cpu .leaving).finishKernelBlock
    { process with kernelContext := some context } block ready = after at ends
  cases ends with
  | raced | ready =>
    have disarmed : Follows process.kin losing (.away process.kin) (.away process.kin) _ _ :=
      .wakes (.disarm (kernel.setActivity cpu .leaving))
    have queued := disarmed.trans (.wakes (.enqueue _ process.pid process.assignedCpu))
    exact .gives (queued.trans (.store rfl rfl))
  | blocks notRaced =>
    have tracked (key : FutexKey) (other : Pid) := @mem_trackBlockedProcess μ
      ((kernel.setActivity cpu .leaving).disarmFutexWait process.pid) process.pid
      key other (.blocked block)
    obtain ⟨timers, futexes, same⟩ := ((kernel.setActivity cpu .leaving).disarmFutexWait
      process.pid).trackBlockedProcess_eq process.pid (.blocked block)
    rw [same] at tracked ⊢
    exact .blocks ⟨cpu, ready, process, block, context, timers, futexes, rfl, activity,
      rfl, tracked⟩

theorem callMoves_of_performCall {after : Kernel μ} (acts : actor step = some cpu)
    (activity : (kernel.cpus cpu).activity = .kernel process stage)
    (running : process.state = .running)
    (performed : kernel.performCall cpu process stage step = some after) :
    CallMoves losing kernel cpu process stage step after := by
  have own {activity : Activity} (proceeds : Proceeds kernel process stage step activity) :
      CallMoves losing kernel cpu process stage step (kernel.setActivity cpu activity) := by
    have nothing : Follows process.kin losing .home .home kernel kernel := .refl kernel
    exact .goes nothing proceeds
  have aside {middle : Kernel μ} {activity : Activity} (aside : Aside kernel middle)
      (proceeds : Proceeds kernel process stage step activity) :
      CallMoves losing kernel cpu process stage step (middle.setActivity cpu activity) := by
    have follows : Follows process.kin losing .home .home kernel middle := .aside aside
    exact .goes follows proceeds
  cases step with
  | change index change =>
    cases stage <;> cases performed
    exact own (.quiet (kin_apply change process) (change.state_apply process) rfl rfl trivial)
  | abandon | compute =>
    cases stage <;> cases performed
    exact own (.quiet rfl rfl rfl rfl trivial)
  | vforkWait =>
    cases stage <;> cases performed
    exact own (proceeds_blockOnVfork _)
  | waitChild index wait =>
    cases stage <;> cases performed
    exact own (proceeds_startChildWait wait)
  | blockOnChild index selector =>
    cases stage <;> try cases performed
    dsimp only [performCall] at performed
    split at performed <;> cases performed
    exact own (proceeds_blockOnChild index _ _ selector)
  | blockOn index block =>
    cases stage <;> try cases performed
    dsimp only [performCall] at performed
    split at performed <;> cases performed
    rename_i both
    rw [Bool.and_eq_true] at both
    exact own (proceeds_blockOn both.1)
  | futexBlock =>
    cases stage <;> cases performed
    refine own ?_
    cases process.wakeResult <;> exact .quiet rfl rfl rfl rfl trivial
  | setAction index signal action =>
    cases acts
    cases stage <;> cases performed
    exact .resets signal action
  | setpgid index target group =>
    cases stage <;> cases performed
    obtain ⟨regrouped, regroups⟩ := kernel.regroups_setpgid process target group
    exact .regroups regroups (.quiet regrouped.kin regrouped.state rfl rfl trivial)
  | allocate index requested =>
    cases acts
    cases stage <;> try cases performed
    dsimp only [performCall] at performed
    split at performed <;> cases performed
    · exact .stays
    · rename_i pid next allocated
      obtain ⟨next, rfl, -⟩ := allocatePid_eq allocated
      exact .allocates allocated
  | insert index params task assignedCpu sighand =>
    cases acts
    cases stage <;> try cases performed
    dsimp only [performCall] at performed
    split at performed <;> cases performed
    rename_i valid
    exact .insert valid task assignedCpu sighand
  | execve index task =>
    cases acts
    cases stage <;> cases performed
    exact .execve task
  | futexWait index uaddr isPrivate expected bitset deadline =>
    cases stage <;> cases performed
    generalize FutexWait.mk _ _ _ _ _ = wait
    unfold startFutexWait
    split
    · exact own (.quiet rfl rfl rfl rfl trivial)
    split
    · exact own (.quiet rfl rfl rfl rfl trivial)
    · have arms : Follows process.kin losing .home .home kernel
          (kernel.armFutexWait process.pid wait.key wait.bitset) := .arm kernel _ _
      exact .goes arms (.quiet rfl rfl rfl rfl trivial)
  | futexRead =>
    cases stage <;> cases performed
    refine aside (.of_rest rfl) ?_
    unfold compareWord
    split
    · exact .quiet rfl rfl rfl rfl trivial
    · split <;> exact .quiet rfl rfl rfl rfl trivial
  | futexDisarm =>
    cases stage <;> cases performed
    have disarms : Follows process.kin losing .home .home kernel
      (kernel.disarmFutexWait process.pid) := .wakes (.disarm kernel)
    exact .goes disarms (.quiet rfl rfl rfl rfl trivial)
  | checkChild index selector =>
    cases acts
    cases stage <;> try cases performed
    rename_i wait
    dsimp only [performCall] at performed
    split at performed <;> cases performed
    unfold checkChild
    have looks (spaces : Nat → μ) {activity : Activity} (proceeds : Proceeds kernel process
        (.childWait wait) (.checkChild cpu selector) activity) : CallMoves losing kernel cpu process
          (.childWait wait) (.checkChild cpu selector) ({ (kernel.waitChildEvent
            process.pid selector wait.options wait.consume).2 with
              spaces }.setActivity cpu activity) := .looks proceeds
    split
    · rename_i middle same
      rw [same] at looks
      exact looks middle.spaces ⟨.of_kernel rfl rfl rfl,
        .childMissed cpu wait selector (waitChildEvent_eq_none same)⟩
    rename_i event middle same
    rw [same] at looks
    obtain ⟨spaces, replied⟩ := middle.replyEvent_eq process wait event
    dsimp only
    rw [replied]
    exact looks spaces (.quiet rfl rfl rfl rfl trivial)
  | probeChild index =>
    cases stage <;> cases performed
    obtain ⟨spaces, later, result, proceeds⟩ := kernel.probeChild_eq process cpu index _ _
    rw [result]
    exact aside (.of_rest rfl) proceeds
  | finishBlock index ready =>
    cases acts
    cases stage <;> cases performed
    exact callMoves_finishKernelBlock activity ready
  | finishReturn =>
    cases stage <;> cases performed
    have returned : { process with kernelContext := none }.state = .running := running
    exact .gives (follows_finishSyscallDispatch _ returned _)
  | spawn | take | publish | trap | enter | release | service | takePending | fileReady | tick
  | memory => cases performed

end Calls

end Kernel

/-! ## Relations -/

/-- A relation that holds besides of what the acting processors do on their own,
and of the steps that change the signals or the groups of processes. -/
structure Tracks (acting : Nat → Prop) (R : Kernel μ → Kernel μ → Prop) : Prop extends
    Traces R where
  turn : ∀ kernel cpu activity, acting cpu → R kernel (kernel.setActivity cpu activity)
  passes : ∀ cpu taken before after, Kernel.Passes cpu taken before after → R before after
  regroups : ∀ before after, Kernel.Regroups before after → R before after
  takePending : ∀ (kernel : Kernel μ) pid mask, R kernel (kernel.mapProcesses fun process =>
      if process.pid = pid then
        { process with signals := process.signals.takePendingInMask mask }
      else process)

namespace Tracks

open Kernel

variable {acting : Nat → Prop} {R : Kernel μ → Kernel μ → Prop}
  (tracks : Tracks acting R) {one two : Flight} {kernel after : Kernel μ} {own : Kin} {cpu : Nat}
  {step : Step μ}

include tracks

theorem refl (kernel : Kernel μ) : R kernel kernel :=
  tracks.notes _ _ (.refl kernel)

theorem then_turn (follows : Follows own True one two kernel after) (acts : acting cpu)
    (activity : Activity) : R kernel (after.setActivity cpu activity) :=
  tracks.trans _ _ _ (tracks.follows follows) (tracks.turn _ _ _ acts)

theorem turn_then (activity : Activity) (acts : acting cpu)
    (follows : Follows own True one two (kernel.setActivity cpu activity) after) : R kernel after :=
  tracks.trans _ _ _ (tracks.turn _ _ _ acts) (tracks.follows follows)

theorem calls {process : KernelProcess} {stage : Stage} (allowed : acting cpu)
    (activity : (kernel.cpus cpu).activity = .kernel process stage)
    (calls : CallMoves True kernel cpu process stage step after) :
    R kernel after ∨ Blocks kernel step after ∨ Resets kernel step after := by
  cases calls with
  | stays => exact .inl (tracks.refl kernel)
  | goes follows => exact .inl (tracks.then_turn follows allowed _)
  | @looks wait selector =>
    have looked := tracks.notes _ _ (kernel.notes_waitChildEvent process.pid selector
      wait.options wait.consume)
    exact .inl (tracks.trans _ _ _ looked (tracks.trans _ _ _
      (tracks.aside _ _ (.of_rest rfl)) (tracks.turn _ _ _ allowed)))
  | allocates =>
    exact .inl (tracks.trans _ _ _ (tracks.count kernel _) (tracks.turn _ _ _ allowed))
  | resets signal action => exact .inr (.inr ⟨cpu, process, signal, action, activity, rfl, rfl⟩)
  | regroups regroups =>
    exact .inl (tracks.trans _ _ _ (tracks.regroups _ _ regroups) (tracks.turn _ _ _ allowed))
  | insert valid task assignedCpu sighand =>
    exact .inl (tracks.then_turn (follows_insertClonedProcess kernel rfl) allowed _)
  | execve task =>
    exact .inl (tracks.trans _ _ _ (tracks.departs (departs_wakeVforkParent _ process))
      (tracks.turn _ _ _ allowed))
  | gives follows => exact .inl (tracks.turn_then .leaving allowed follows)
  | blocks blocks => exact .inr (.inl blocks)

/-- What holds of every update holds of every step, unless a block is recorded
or signal actions are replaced. -/
theorem moves [UserSpaces μ] (keyed : Keyed kernel)
    (running : ∀ cpu process, (kernel.cpus cpu).activity.held = some process →
      process.state = .running)
    (acts : ∀ cpu, actor step = some cpu → acting cpu)
    (shows : ∀ cpu current, step = .publish cpu ∨ step = .release cpu →
      R kernel (kernel.setCurrent cpu current))
    (moves : Moves kernel step after) :
    R kernel after ∨ Blocks kernel step after ∨ Resets kernel step after := by
  cases moves with
  | take within activity =>
    rename_i cpu
    left
    have taken := takes_take keyed activity fun _ _ _ => trivial
    generalize kernel.take cpu = after at taken
    cases taken with
    | idles passes => exact tracks.passes _ _ _ _ passes
    | ends next found here passes follows =>
      exact tracks.trans _ _ _ (tracks.passes _ _ _ _ passes) (tracks.follows follows)
    | runs work next found here passes group follows =>
      exact tracks.trans _ _ _ (tracks.passes _ _ _ _ passes)
        (tracks.then_turn follows (acts cpu rfl) _)
  | publish =>
    exact .inl (tracks.trans _ _ _ (shows _ _ (.inl rfl)) (tracks.turn _ _ _ (acts _ rfl)))
  | release =>
    exact .inl (tracks.trans _ _ _ (shows _ _ (.inr rfl)) (tracks.turn _ _ _ (acts _ rfl)))
  | enter => exact .inl (tracks.turn _ _ _ (acts _ rfl))
  | fileReady | tick | memory =>
    exact .inl (tracks.aside _ _ (.of_rest rfl))
  | trap within activity reason =>
    exact .inl (tracks.turn_then .leaving (acts _ rfl)
      (follows_finishProcess _ _ reason (.inr trivial)))
  | call within actor activity performed =>
    exact tracks.calls (acts _ actor) activity (callMoves_of_performCall actor activity
      (running _ _ (congrArg Activity.held activity)) performed)
  | spawn parent task assignedCpu sighand =>
    have spawns : Follows _ True _ _ _ _ := follows_spawnTask kernel parent task assignedCpu sighand
    exact .inl (tracks.trans _ _ _ (tracks.count kernel _) (tracks.follows spawns))
  | service service =>
    have serves : Follows default True .home .home kernel (kernel.serve service) :=
      follows_serve kernel service
    exact .inl (tracks.follows serves)
  | takePending pid mask => exact .inl (tracks.takePending kernel pid mask)

end Tracks

namespace Kernel

variable (kernel : Kernel μ)

@[simp]
theorem activity_setCurrent (cpu : Nat) (current : Option RunningProcessSnapshot) (index : Nat) :
    ((kernel.setCurrent cpu current).cpus index).activity = (kernel.cpus index).activity := by
  by_cases here : index = cpu
  · subst here
    simp [setCurrent, setCpu]
  · simp [setCurrent, setCpu, update_of_ne here]

theorem record_enqueueRunnablePid (pid : Pid) (cpu : Nat) (event : Event) :
    (kernel.enqueueRunnablePid pid cpu).record event =
      (kernel.record event).enqueueRunnablePid pid cpu := by
  by_cases queued : pid ∈ (kernel.cpus cpu).runQueue
  · simp [enqueueRunnablePid, record, queued]
  · simp [enqueueRunnablePid, record, setCpu, queued]

theorem setActivity_enqueueRunnablePid (pid : Pid) (cpu index : Nat) (activity : Activity) :
    (kernel.enqueueRunnablePid pid cpu).setActivity index activity =
      (kernel.setActivity index activity).enqueueRunnablePid pid cpu := by
  by_cases here : index = cpu
  · subst here
    by_cases queued : pid ∈ (kernel.cpus index).runQueue
    · simp [enqueueRunnablePid, queued]
    · simp [enqueueRunnablePid, setActivity, setCpu, queued]
  · by_cases queued : pid ∈ (kernel.cpus cpu).runQueue
    · simp [enqueueRunnablePid, setActivity, setCpu, update_of_ne (Ne.symm here), queued]
    · simp [enqueueRunnablePid, setActivity, setCpu, update_of_ne here,
        update_of_ne (Ne.symm here), queued, update_comm here]

theorem setActivity_insertClonedProcess (process : KernelProcess) (cpu : Nat)
    (activity : Activity) :
    (kernel.insertClonedProcess process).setActivity cpu activity =
      (kernel.setActivity cpu activity).insertClonedProcess process := by
  unfold insertClonedProcess insertProcess
  rw [record_enqueueRunnablePid, record_enqueueRunnablePid, setActivity_enqueueRunnablePid]
  cases process.parent <;> split <;> rfl

end Kernel

end AetherKernel.Sched
