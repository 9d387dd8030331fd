import AetherKernel.Sched.Journal

/-!
# A rule for invariants

While the manager is used, the process that it is used for may be neither in the
table nor on a processor.  An invariant says what holds in the meantime, for
each place where the process can be, and is then looked at for each update.
-/

namespace AetherKernel.Sched

open Lib Signal Std

variable {μ : Type}

theorem Undisturbed.goesOn {first second : Kernel μ} {cpu : Nat} {activity : Activity}
    (undisturbed : Undisturbed first second cpu)
    (goesOn : GoesOn (first.cpus cpu).activity activity) :
    GoesOn (second.cpus cpu).activity activity := by
  obtain ⟨change, signals, same⟩ := undisturbed
  have kin (process : KernelProcess) : (change process).kin = process.kin := by
    rw [signals process]
    rfl
  obtain ⟨held, awaits, reserves⟩ := goesOn
  rw [same]
  refine ⟨held.trans ?_, fun child waits => ?_, fun pid clones => ?_⟩
  · cases (first.cpus cpu).activity <;> simp [Activity.map, kin]
  · have waited := awaits child waits
    cases activity : (first.cpus cpu).activity <;> rw [activity] at waited <;> exact waited
  · have reserved := reserves pid clones
    cases activity : (first.cpus cpu).activity <;> rw [activity] at reserved <;> exact reserved

namespace Flight

/-- The process in flight. -/
def own : Flight → Option Kin
  | .unborn own | .listed own | .away own | .left own => some own
  | .home | .dead _ => none

/-- The process in flight, if nothing is known of it yet. -/
def coming : Flight → Option Kin
  | .unborn own | .listed own => some own
  | .home | .away _ | .left _ | .dead _ => none

/-- The process in flight, if a processor has given it back or takes it. -/
def going : Flight → Option Kin
  | .away own | .left own => some own
  | .home | .unborn _ | .listed _ | .dead _ => none

variable {flight : Flight}

theorem own_of_going {own : Kin} (going : flight.going = some own) : flight.own = some own := by
  cases flight with
  | away | left => exact going
  | home | unborn | listed | dead => nomatch going

theorem own_of_coming {own : Kin} (coming : flight.coming = some own) : flight.own = some own := by
  cases flight with
  | unborn | listed => exact coming
  | home | away | left | dead => nomatch coming

/-- The pid of the process in flight. -/
def pid (flight : Flight) : Option Pid :=
  flight.own.map Kin.pid

end Flight

/-- The manager lets go of a process: it takes a signal at its dispatch that
stops it, or an exception that has no signal. -/
def Kernel.Loses (kernel : Kernel μ) : Step μ → Prop
  | .take cpu => ∃ process, kernel.nextFor cpu = some process ∧ kernel.Stops process
  | .trap _ reason => ¬reason.HasSignal
  | _ => False

/-- An invariant that holds while a process is in flight as well, and that the
step keeps. -/
structure Keeps [UserSpaces μ] (losing : Prop) (I : Flight → Kernel μ → Prop) (kernel : Kernel μ)
    (step : Step μ) : Prop where
  follows : ∀ own one two before after, Follows own losing one two before after → I one before →
    I two after
  shows : ∀ cpu current, I .home (kernel.setCurrent cpu current)
  passes : ∀ cpu taken before after, Kernel.Passes cpu taken before after → I .home before →
    I .home after
  resigns : ∀ change, (∀ process, Resigned process (change process)) →
    I .home (kernel.mapProcesses change)
  regroups : ∀ after, Kernel.Regroups kernel after → I .home after
  looks : ∀ cpu process wait selector, step = .checkChild cpu selector →
    (kernel.cpus cpu).activity = .kernel process (.childWait wait) →
    I .home (kernel.waitChildEvent process.pid selector wait.options wait.consume).2
  allocates : ∀ cpu process pid next requested, step = .allocate cpu requested →
    (kernel.cpus cpu).activity = .kernel process .running →
    kernel.allocatePid requested = (.ok pid, { kernel with nextPid := next }) →
    I .home ({ kernel with nextPid := next }.setActivity cpu (.kernel process (.cloning pid)))
  goesOn : ∀ middle cpu activity, GoesOn (middle.cpus cpu).activity activity → I .home middle →
    I .home (middle.setActivity cpu activity)
  takeOff : ∀ cpu process, (kernel.cpus cpu).activity.held = some process →
    I (.away process.kin) (kernel.setActivity cpu .leaving)
  land : ∀ middle cpu work process, (middle.cpus cpu).activity = .idle →
    process.assignedCpu = cpu → middle.groupExitStatus process.threadGroup = none →
    I (.away process.kin) middle →
    I .home (middle.setActivity cpu (.dispatched work process))
  insert : ∀ cpu process pid params task assignedCpu sighand,
    step = .insert cpu params task assignedCpu sighand →
    (kernel.cpus cpu).activity = .kernel process (.cloning pid) → params.validate →
    I (.unborn (cloneChild kernel.journal.length process params pid task assignedCpu
      sighand).kin) (kernel.setActivity cpu
        (Kernel.cloned process params kernel.journal.length pid))
  spawn : ∀ parent task assignedCpu sighand, step = .spawn parent task assignedCpu sighand →
    I (.unborn (kernel.spawned parent task assignedCpu sighand).kin)
      { kernel with nextPid := min (kernel.nextPid + 1) (2 ^ 32 - 1) }
  execve : ∀ cpu process task, step = .execve cpu task →
    (kernel.cpus cpu).activity = .kernel process .running → I .home (kernel.execve cpu process task)

open Kernel in
/-- A process replaces its program: it is noted that it has left its parent, the parent is
woken, and the processor goes on with it. -/
theorem kept_of_execve {I : Kernel μ → Prop} {kernel : Kernel μ} {cpu : Nat}
    {process : KernelProcess}
    {task : Task} (activity : (kernel.cpus cpu).activity = .kernel process .running)
    (noted : I (kernel.record (.left process.serial)))
    (woken : ∀ before after, Wakes process.pid False before after → I before → I after)
    (turns : ∀ middle, (middle.cpus cpu).activity.held = some process → I middle →
      I (middle.setActivity cpu
        (.kernel { process with pendingExec := some task, vforkParent := none } .running))) :
    I (kernel.execve cpu process task) := by
  have wakes := (departs_wakeVforkParent (kernel.record (.left process.serial)) process).wakes
  refine turns _ ?_ (woken _ _ wakes noted)
  exact (congrArg Activity.held ((wakes.stirs True).activity cpu)).trans
    (congrArg Activity.held activity)

namespace Keeps

open Kernel

variable [UserSpaces μ] {losing : Prop} {I : Flight → Kernel μ → Prop} {kernel after : Kernel μ}
  {step : Step μ}

variable {cpu : Nat} (keeps : Keeps losing I kernel step)

include keeps

theorem calls {process : KernelProcess} {stage : Stage}
    (activity : (kernel.cpus cpu).activity = .kernel process stage)
    (calls : CallMoves losing kernel cpu process stage step after) (holds : I .home kernel) :
    I .home after ∨ Blocks kernel step after := by
  cases calls with
  | stays => exact .inl holds
  | goes follows proceeds =>
    left
    refine keeps.goesOn _ cpu _ ?_ (keeps.follows _ _ _ _ _ follows holds)
    have goesOn := proceeds.goesOn
    rw [← activity] at goesOn
    exact ((traces_undisturbed cpu).follows follows).goesOn goesOn
  | @looks wait selector spaces next proceeds =>
    left
    have looked := keeps.looks cpu process wait selector rfl activity
    have written : Follows default losing .home .home
        (kernel.waitChildEvent process.pid selector wait.options wait.consume).2
        { (kernel.waitChildEvent process.pid selector wait.options wait.consume).2 with
          spaces } := .aside (.of_rest rfl)
    refine keeps.goesOn _ cpu _ ?_ (keeps.follows _ _ _ _ _ written looked)
    rw [(kernel.notes_waitChildEvent _ _ _ _).rest, activity]
    exact proceeds.goesOn
  | allocates allocated => exact .inl (keeps.allocates cpu process _ _ _ rfl activity allocated)
  | resets signal action => exact .inl (keeps.resigns _ (resigned_shareActions _ _))
  | regroups regroups proceeds =>
    left
    refine keeps.goesOn _ cpu _ ?_ (keeps.regroups _ regroups)
    rw [regroups.rest, activity]
    exact proceeds.goesOn
  | insert valid task assignedCpu sighand =>
    left
    rw [setActivity_insertClonedProcess]
    exact keeps.follows _ _ _ _ _ (follows_insertClonedProcess _ rfl)
      (keeps.insert cpu process _ _ task assignedCpu sighand rfl activity valid)
  | execve task => exact .inl (keeps.execve cpu process task rfl activity)
  | gives follows =>
    left
    refine keeps.follows _ _ _ _ _ follows (keeps.takeOff cpu process ?_)
    rw [activity]
    rfl
  | blocks blocks => exact .inr blocks

theorem take (keyed : Keyed kernel) (idle : (kernel.cpus cpu).activity = .idle)
    (loses : kernel.Loses (.take cpu) → losing) (holds : I .home kernel) :
    I .home (kernel.take cpu) := by
  have taken := takes_take keyed idle fun process next stops => loses ⟨process, next, stops⟩
  generalize kernel.take cpu = after at taken
  cases taken with
  | idles passes => exact keeps.passes _ _ _ _ passes holds
  | ends next found here passes follows =>
    exact keeps.follows _ _ _ _ _ follows (keeps.passes _ _ _ _ passes holds)
  | runs work next found here passes group follows same running =>
    have flown := keeps.follows _ _ _ _ _ follows (keeps.passes _ _ _ _ passes holds)
    rw [← same] at flown
    refine keeps.land _ cpu work _ ?_ ?_ ?_ flown
    · have passed := (passes.activity cpu).trans idle
      rw [((traces_undisturbed cpu).follows follows).not_held (by rw [passed]; rfl), passed]
    · exact (congrArg Kin.assignedCpu same).trans here
    · have sameGroup := congrArg Kin.threadGroup same
      exact (congrArg _ sameGroup).trans group

theorem moves (sound : Keyed kernel)
    (running : ∀ cpu process, (kernel.cpus cpu).activity.held = some process →
      process.state = .running)
    (loses : kernel.Loses step → losing) (holds : I .home kernel)
    (moves : Moves kernel step after) : I .home after ∨ Blocks kernel step after := by
  cases moves with
  | take within activity => exact .inl (keeps.take sound activity loses holds)
  | publish within activity =>
    rename_i cpu work process
    left
    refine keeps.goesOn _ cpu _ ?_ (keeps.shows cpu (some process.runningSnapshot))
    rw [activity_setCurrent, activity]
    cases work with
    | process | kernelSyscall => exact .of_free rfl rfl rfl
    | kernelContinuation =>
      exact .of_free rfl (resumeStage_free _ _).1 (resumeStage_free _ _).2.1
  | enter within activity =>
    left
    refine keeps.goesOn _ _ _ ?_ holds
    rw [activity]
    exact .of_free rfl rfl rfl
  | release within activity =>
    rename_i cpu
    left
    refine keeps.goesOn _ cpu _ ?_ (keeps.shows cpu none)
    rw [activity_setCurrent, activity]
    exact .of_free rfl rfl rfl
  | fileReady | tick | memory =>
    exact .inl (keeps.follows default _ _ _ _ (.aside (.of_rest rfl)) holds)
  | trap within activity reason =>
    exact .inl (keeps.follows _ _ _ _ _ (follows_finishProcess _ _ reason
      (Classical.or_iff_not_imp_left.mpr loses))
      (keeps.takeOff _ _ (congrArg Activity.held activity)))
  | call within actor activity performed =>
    exact keeps.calls activity (callMoves_of_performCall actor activity
      (running _ _ (congrArg Activity.held activity)) performed) holds
  | spawn parent task assignedCpu sighand =>
    exact .inl (keeps.follows _ _ _ _ _ (follows_spawnTask kernel parent task assignedCpu sighand)
      (keeps.spawn parent task assignedCpu sighand rfl))
  | service service =>
    exact .inl (keeps.follows default _ _ _ _ (follows_serve kernel service) holds)
  | takePending pid mask =>
    refine .inl (keeps.resigns _ fun process => ?_)
    split <;> rfl

end Keeps

end AetherKernel.Sched
