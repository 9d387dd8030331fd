import AetherKernel.Sched.Steps

/-!
# Processors do not disturb each other

A step of one processor leaves the calls of the others where they are.  Only
the signals of the processes that they hold may change, because threads share
their actions and signals can be taken through a descriptor.
-/

namespace AetherKernel.Sched

open Lib Signal Std Activity

variable {μ : Type}

/-- The processor goes on with the same process at the same stage. -/
def Undisturbed (before after : Kernel μ) (cpu : Nat) : Prop :=
  ∃ change : KernelProcess → KernelProcess, (∀ process, Resigned process (change process)) ∧
    (after.cpus cpu).activity = (before.cpus cpu).activity.map change

theorem Activity.map_map (first second : KernelProcess → KernelProcess) (activity : Activity) :
    (activity.map first).map second = activity.map fun process => second (first process) := by
  cases activity <;> rfl

namespace Undisturbed

variable {first second third : Kernel μ} {cpu : Nat}

theorem of_eq (same : (second.cpus cpu).activity = (first.cpus cpu).activity) :
    Undisturbed first second cpu :=
  ⟨id, fun _ => rfl, by rw [same]; cases (first.cpus cpu).activity <;> rfl⟩

theorem trans (earlier : Undisturbed first second cpu) (later : Undisturbed second third cpu) :
    Undisturbed first third cpu := by
  obtain ⟨one, signals, same⟩ := earlier
  obtain ⟨two, others, next⟩ := later
  refine ⟨fun process => two (one process), fun process => ?_, ?_⟩
  · exact (signals process).trans (others (one process))
  · rw [next, same, map_map]

variable (undisturbed : Undisturbed first second cpu) {process : KernelProcess}

include undisturbed

/-- A processor that holds nothing goes on doing nothing. -/
theorem not_held (free : (first.cpus cpu).activity.held = none) :
    (second.cpus cpu).activity = (first.cpus cpu).activity := by
  obtain ⟨change, -, next⟩ := undisturbed
  rw [next]
  cases activity : (first.cpus cpu).activity with
  | idle | leaving => rfl
  | dispatched | user | kernel => rw [activity] at free; nomatch free

/-- Where a process that is held comes from. -/
theorem exists_held (held : (second.cpus cpu).activity.held = some process) :
    ∃ former, (first.cpus cpu).activity.held = some former ∧ Resigned former process := by
  obtain ⟨change, signals, same⟩ := undisturbed
  rw [same] at held
  cases old : (first.cpus cpu).activity with
  | idle | leaving => rw [old] at held; nomatch held
  | dispatched work former | user former | kernel former stage =>
    rw [old] at held
    cases held
    exact ⟨former, rfl, signals former⟩

/-- Where a call comes from. -/
theorem exists_origin {stage : Stage}
    (activity : (second.cpus cpu).activity = .kernel process stage) :
    ∃ former, (first.cpus cpu).activity = .kernel former stage ∧ Resigned former process := by
  obtain ⟨change, signals, same⟩ := undisturbed
  rw [activity] at same
  generalize was : (first.cpus cpu).activity = old at same
  cases old with
  | kernel former past =>
    obtain ⟨rfl, rfl⟩ := same
    exact ⟨former, rfl, signals former⟩
  | idle | leaving | dispatched | user => nomatch same

end Undisturbed

namespace Kernel

theorem undisturbed_setActivity (kernel : Kernel μ) {cpu index : Nat} (apart : index ≠ cpu)
    (activity : Activity) : Undisturbed kernel (kernel.setActivity cpu activity) index :=
  .of_eq (by simp [setActivity, setCpu, Function.update_of_ne apart])

theorem undisturbed_mapProcesses (kernel : Kernel μ) {change : KernelProcess → KernelProcess}
    (signals : ∀ process, Resigned process (change process)) (index : Nat) :
    Undisturbed kernel (kernel.mapProcesses change) index :=
  ⟨change, signals, rfl⟩

theorem traces_undisturbed (index : Nat) :
    Traces fun before after : Kernel μ => Undisturbed before after index where
  trans _ _ _ := .trans
  stirs _ _ stirs := .of_eq (stirs.activity index)
  aside _ _ aside := .of_eq (aside.activity index)
  count _ _ := .of_eq rfl
  notes _ _ notes := .of_eq (by rw [notes.rest])
  signal kernel pid info := .of_eq ((stirs_signalProcess kernel pid info).activity index)
  hear _ _ _ _ := .of_eq rfl
  queue _ _ _ _ := .of_eq rfl
  pass _ _ _ _ _ _ _ _ _ := .of_eq rfl
  woke _ _ _ _ _ _ := .of_eq rfl
  created _ _ := .of_eq rfl
  left _ _ := .of_eq rfl
  store _ _ _ := .of_eq rfl
  drop _ _ := .of_eq rfl
  arm _ _ _ _ := .of_eq rfl
  exec kernel _ := undisturbed_mapProcesses kernel (resigned_shareActions _ _) index

theorem tracks_undisturbed (index : Nat) :
    Tracks (· ≠ index) fun before after : Kernel μ => Undisturbed before after index where
  toTraces := traces_undisturbed index
  turn kernel cpu activity apart := undisturbed_setActivity kernel apart.symm activity
  passes _ _ _ _ passes := .of_eq (passes.activity index)
  regroups _ _ regroups := .of_eq (by rw [regroups.rest])
  takePending kernel pid mask := by
    refine undisturbed_mapProcesses kernel (fun process => ?_) index
    split <;> rfl

/-- Processes are found under their pids, and those that wait for a futex under
its key; those that are held are running, and held by processors that exist. -/
structure Sound (kernel : Kernel μ) : Prop where
  keyed : Keyed kernel
  tracked : kernel.Tracked
  outside : ∀ cpu, kernel.cpuCount ≤ cpu → (kernel.cpus cpu).activity = .idle
  running : ∀ cpu process, (kernel.cpus cpu).activity.held = some process → process.state = .running

section Steps

variable [UserSpaces μ] {kernel after : Kernel μ} {step : Step μ} {process next : KernelProcess}
  {stage : Stage} {cpu : Nat}

/-- A step leaves the calls of other processors alone. -/
theorem undisturbed_moves {index : Nat}
    (sound : Sound kernel) (moves : Moves kernel step after) (apart : actor step ≠ some index) :
    Undisturbed kernel after index := by
  have others (cpu : Nat) (acts : actor step = some cpu) : cpu ≠ index := by
    rintro rfl
    exact apart acts
  rcases (tracks_undisturbed index).moves sound.keyed sound.running others
    (fun _ _ _ => .of_eq (activity_setCurrent ..)) moves with
    undisturbed | ⟨cpu, ready, process, block, context, timers, futexes, rfl, -, rfl, -⟩ |
    ⟨cpu, process, signal, action, -, -, rfl⟩
  · exact undisturbed
  · exact (undisturbed_setActivity kernel (others cpu rfl).symm .leaving).trans (.of_eq rfl)
  · exact undisturbed_mapProcesses kernel (resigned_shareActions _ _) index

/-! ## The processor that makes the step -/

/-- What becomes of a processor by its own step. -/
inductive Turn (kernel : Kernel μ) : Step μ → Activity → Activity → Prop
  | idles (cpu : Nat) : Turn kernel (.take cpu) .idle .idle
  | takes (cpu : Nat) {work : DispatchWork} {process : KernelProcess}
      (running : process.state = .running) :
      Turn kernel (.take cpu) .idle (.dispatched work process)
  | publish (cpu : Nat) (work : DispatchWork) (process : KernelProcess) :
      Turn kernel (.publish cpu) (.dispatched work process) (entered work process)
  | trap (cpu : Nat) (process : KernelProcess) (reason : RunReason) :
      Turn kernel (.trap cpu reason) (.user process) .leaving
  | enter (cpu : Nat) (process : KernelProcess) :
      Turn kernel (.enter cpu) (.user process)
        (.kernel { process with pendingSyscall := true, kernelContext := some .other } .running)
  | release (cpu : Nat) : Turn kernel (.release cpu) .leaving .idle
  | call {process : KernelProcess} {stage : Stage} {step : Step μ} {activity : Activity}
      (turn : CallTurn kernel process stage step activity) :
      Turn kernel step (.kernel process stage) activity

omit [UserSpaces μ] in
theorem callTurn_of_callMoves (activity : (kernel.cpus cpu).activity = .kernel process stage)
    (acts : actor step = some cpu) (calls : CallMoves True kernel cpu process stage step after) :
    CallTurn kernel process stage step (after.cpus cpu).activity := by
  cases calls with
  | stays =>
    rw [activity]
    exact .quiet rfl rfl trivial
  | goes _ proceeds | looks proceeds | regroups _ proceeds =>
    rw [cpus_setActivity_self]
    exact proceeds.turn
  | allocates =>
    rw [cpus_setActivity_self]
    exact .quiet rfl rfl trivial
  | resets signal action =>
    have resigned := resigned_shareActions process.sighand
      (fun signals => (signals.setAction signal action).2) process
    simp only [mapProcesses, activity, map]
    exact .quiet (by rw [resigned]) (by rw [resigned]) trivial
  | insert =>
    rw [cpus_setActivity_self]
    unfold cloned
    split <;> exact .quiet rfl rfl trivial
  | execve =>
    unfold Kernel.execve
    rw [cpus_setActivity_self]
    exact .quiet rfl rfl trivial
  | gives follows =>
    have free : ((kernel.setActivity cpu .leaving).cpus cpu).activity.held = none := by simp
    rw [((traces_undisturbed cpu).follows follows).not_held free, cpus_setActivity_self]
    exact .leaves
  | blocks blocks =>
    obtain ⟨index, ready, former, block, context, timers, futexes, rfl, -, rfl, -⟩ := blocks
    cases acts
    dsimp only [store, disarmFutexWait]
    rw [cpus_setActivity_self]
    exact .leaves

theorem turn_take (keyed : Keyed kernel) (activity : (kernel.cpus cpu).activity = .idle) :
    Turn kernel (.take cpu) (kernel.cpus cpu).activity ((kernel.take cpu).cpus cpu).activity := by
  have taken := takes_take keyed activity fun _ _ _ => trivial
  rw [activity]
  generalize kernel.take cpu = after at taken
  cases taken with
  | idles passes =>
    rw [passes.activity, activity]
    exact .idles cpu
  | ends next found here passes follows =>
    have passed := (passes.activity cpu).trans activity
    rw [((traces_undisturbed cpu).follows follows).not_held (by rw [passed]; rfl), passed]
    exact .idles cpu
  | runs work next found here passes group follows same running =>
    rw [cpus_setActivity_self]
    exact .takes cpu running

theorem turn_of_moves (sound : Sound kernel)
    (moves : Moves kernel step after) (acts : actor step = some cpu) :
    Turn kernel step (kernel.cpus cpu).activity (after.cpus cpu).activity := by
  cases moves with
  | take within activity =>
    cases acts
    exact turn_take sound.keyed activity
  | publish within activity =>
    cases acts
    rw [activity, cpus_setActivity_self]
    exact .publish _ _ _
  | trap within activity reason =>
    rename_i process
    cases acts
    have free : ((kernel.setActivity cpu .leaving).cpus cpu).activity.held = none := by simp
    have follows : Follows _ True _ _ _ _ :=
      follows_finishProcess (kernel.setActivity cpu .leaving) process reason (.inr trivial)
    rw [activity, ((traces_undisturbed cpu).follows follows).not_held free, cpus_setActivity_self]
    exact .trap _ _ reason
  | enter within activity =>
    cases acts
    rw [activity, cpus_setActivity_self]
    exact .enter _ _
  | release within activity =>
    cases acts
    rw [activity, cpus_setActivity_self]
    exact .release _
  | call within acting activity performed =>
    cases acting.symm.trans acts
    have running := sound.running _ _ (congrArg held activity)
    have turn := callTurn_of_callMoves activity acts
      (callMoves_of_performCall acts activity running performed)
    rw [activity]
    exact .call turn
  | spawn | service | takePending | fileReady | tick | memory => nomatch acts

/-! ## What holds in every state -/

omit [UserSpaces μ] in
/-- A call goes on with the process that has made it. -/
theorem CallTurn.held {activity : Activity} (turn : CallTurn kernel process stage step activity)
    (holds : activity.held = some next) :
    next.pid = process.pid ∧ next.state = process.state := by
  cases turn with
  | quiet pid state =>
    cases holds
    exact ⟨pid, state⟩
  | childMissed | childWaits | blockOnChild =>
    cases holds
    exact ⟨rfl, rfl⟩
  | leaves => exact nomatch holds

omit [UserSpaces μ] in
theorem entered_held {work : DispatchWork} (holds : (entered work process).held = some next) :
    next.identity = process.identity ∧ next.state = process.state := by
  cases work <;> cases holds <;> exact ⟨rfl, rfl⟩

end Steps

end Kernel

end AetherKernel.Sched
