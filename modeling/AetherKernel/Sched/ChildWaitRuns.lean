import AetherKernel.Sched.ChildWait

/-!
# No child event is lost

As long as nothing is queued between the look of a parent and its block, a
parent that is blocked has no event in its queue that it waits for.
-/

namespace AetherKernel.Sched

open Lib Signal Std Option

variable {μ : Type}

namespace Kernel

section Steps

variable [UserSpaces μ]

/-! ## Waits between a look and a block -/

/-- A call that is going to block has been told that it may wait. -/
def Patient : Stage → Prop
  | .childWaitable wait _ => wait.nohang = false
  | .blocking (.waitChild _ _ _ _ options) _ => options &&& wnohang = 0
  | _ => True

theorem watch_of_quiet {stage : Stage} (quiet : stage.Quiet) :
    stage.watch = none ∧ Patient stage := by
  cases stage with
  | childChecked | childWaitable => exact quiet.elim
  | blocking block => cases block <;> first | exact quiet.elim | exact ⟨rfl, trivial⟩
  | _ => exact ⟨rfl, trivial⟩

/-- In every blocked state, and between a look and a block, no event is queued
that the wait asks for. -/
structure Attends (kernel : Kernel μ) : Prop where
  table : ∀ pid process selector options, kernel.processes pid = some process →
    process.state.watch = some (selector, options) →
    options &&& wnohang = 0 ∧ ∀ event ∈ kernel.childEvents pid, ¬Asks selector options event
  patient : ∀ cpu process stage, (kernel.cpus cpu).activity = .kernel process stage → Patient stage
  held : ∀ cpu process stage selector options,
    (kernel.cpus cpu).activity = .kernel process stage → stage.watch = some (selector, options) →
    ∀ event ∈ kernel.childEvents process.pid, ¬Asks selector options event

variable (kernel : Kernel μ)

/-- Nothing that a wait asks for is queued between its look and its block; a
wait for a process group finds no event of another group, and a process
descriptor refers to the same child throughout. -/
def Watchful (label : Step μ × List Event) : Prop :=
  (∀ pid event, .queued pid event ∈ label.2 → ∀ cpu process stage selector options,
    (kernel.cpus cpu).activity = .kernel process stage → process.pid = pid →
    stage.watch = some (selector, options) → ¬Asks selector options event) ∧
  (∀ pid event, .passed pid event ∈ label.2 → ∀ process group options,
    kernel.processes pid = some process →
    process.state.watch = some (.processGroup group, options) →
    ¬childEventMatchesOptions event.kind options) ∧
  match label.1 with
  | .checkChild cpu (.processGroup group) => ∀ process wait,
      (kernel.cpus cpu).activity = .kernel process (.childWait wait) →
      (∃ event ∈ kernel.childEvents process.pid,
        kernel.eventMatches (.processGroup group) wait.options event) ∨
      ∀ event ∈ kernel.childEvents process.pid,
        ¬childEventMatchesOptions event.kind wait.options
  | .blockOnChild cpu selector => ∀ process wait checked,
      (kernel.cpus cpu).activity = .kernel process (.childWaitable wait checked) →
      selector = checked
  | _ => True

variable {kernel} {after : Kernel μ} {process : KernelProcess} {step : Step μ} {events : List Event}

omit [UserSpaces μ] in
/-- A call that asks for something has asked for it before, or it has just
looked and found nothing. -/
theorem watch_callTurn {cpu : Nat} {next : KernelProcess} {stage later : Stage}
    (activity : (kernel.cpus cpu).activity = .kernel process stage)
    (acts : actor step = some cpu) (watchful : kernel.Watchful (step, events))
    (patient : Patient stage) (turn : CallTurn kernel process stage step (.kernel next later)) :
    Patient later ∧ ∀ selector options, later.watch = some (selector, options) →
      stage.watch = some (selector, options) ∨ ∃ index checked, step = .checkChild index checked ∧
        ∀ event ∈ kernel.childEvents process.pid, ¬Asks selector options event := by
  cases turn with
  | quiet _ _ quiet =>
    obtain ⟨free, idle⟩ := watch_of_quiet quiet
    exact ⟨idle, fun _ _ watches => nomatch free.symm.trans watches⟩
  | childMissed index wait selector nothing =>
    cases acts
    refine ⟨trivial, ?_⟩
    rintro _ _ ⟨⟩
    refine .inr ⟨cpu, selector, rfl, fun event member asks => ?_⟩
    cases selector with
    | any | pid =>
      exact nothing event member (kernel.eventMatches_of_asks asks fun _ other => nomatch other)
    | processGroup group =>
      rcases watchful.2.2 process wait activity with ⟨found, inside, matching⟩ | none
      · exact nothing found inside matching
      · exact none event member asks.1
  | childWaits index selector hangs => exact ⟨hangs, fun _ _ watches => .inl watches⟩
  | blockOnChild index wait checked selector =>
    cases acts
    have kept := watchful.2.2 process wait checked activity
    subst kept
    refine ⟨?_, fun _ _ watches => .inl watches⟩
    simpa [Patient, ChildWait.nohang, ChildWait.block] using patient

variable {selector : WaitChildSelector}

/-- A look puts nothing into a queue. -/
theorem childEvents_of_checkChild {index : Nat}
    (moves : Moves kernel (.checkChild index selector) after) (pid : Pid) :
    after.childEvents pid ⊆ kernel.childEvents pid := by
  cases moves with
  | @call cpu process stage _ _ within acts activity performed =>
    cases stage <;> try cases performed
    rename_i wait
    dsimp only [performCall] at performed
    split at performed <;> cases performed
    have fewer := (notes_waitChildEvent kernel process.pid selector wait.options
      wait.consume).childEvents pid
    unfold checkChild
    split
    · rename_i middle same
      rwa [same] at fewer
    rename_i event middle same
    rw [same] at fewer
    obtain ⟨spaces, replied⟩ := middle.replyEvent_eq process wait event
    dsimp only
    rw [replied]
    exact fewer

/-- What the processors attend to after a step that posts the given events. -/
theorem attends_held (sound : Sound kernel) (attends : Attends kernel)
    (moves : Moves kernel step after) (watchful : kernel.Watchful (step, events))
    (queued : ∀ pid event, event ∈ after.childEvents pid →
      event ∈ kernel.childEvents pid ∨ .queued pid event ∈ events)
    (cpu : Nat) (process : KernelProcess) (stage : Stage)
    (activity : (after.cpus cpu).activity = .kernel process stage) :
    Patient stage ∧ ∀ selector options, stage.watch = some (selector, options) →
      ∀ event ∈ after.childEvents process.pid, ¬Asks selector options event := by
  -- A wait that was there before is not asked anything new by the guard.
  have kept {former : KernelProcess} {old : Stage} {selector : WaitChildSelector}
      {options : BitVec 64} (was : (kernel.cpus cpu).activity = .kernel former old)
      (own : process.pid = former.pid) (watches : old.watch = some (selector, options)) :
      ∀ event ∈ after.childEvents process.pid, ¬Asks selector options event := by
    intro event member asks
    rw [own] at member
    rcases queued _ event member with member | fresh
    · exact attends.held cpu former old selector options was watches event member asks
    · exact watchful.1 _ event fresh cpu former old selector options was rfl watches asks
  by_cases acts : actor step = some cpu
  · have turn := turn_of_moves sound moves acts
    generalize was : (kernel.cpus cpu).activity = old at turn
    generalize (after.cpus cpu).activity = new at turn activity
    cases turn with
    | idles | takes | trap | release => nomatch activity
    | publish index work taken =>
      cases work with
      | process => nomatch activity
      | kernelSyscall =>
        cases activity
        exact ⟨trivial, nofun⟩
      | kernelContinuation =>
        cases activity
        obtain ⟨free, patient⟩ := watch_of_quiet
          (resumeStage_free (taken.kernelContext.getD .other) taken.resumeResult).2.2
        exact ⟨patient, fun _ _ watches => nomatch free.symm.trans watches⟩
    | enter index user =>
      cases activity
      exact ⟨trivial, nofun⟩
    | call turn =>
      rename_i former before
      subst activity
      obtain ⟨patient, watch⟩ := watch_callTurn was acts watchful
        (attends.patient cpu former before was) turn
      refine ⟨patient, fun selector options watches => ?_⟩
      have own := (turn.held rfl).1
      rcases watch selector options watches with earlier | ⟨index, checked, rfl, nothing⟩
      · exact kept was own earlier
      · intro event member
        rw [own] at member
        exact nothing event (childEvents_of_checkChild moves _ member)
  · obtain ⟨former, was, resigned⟩ :=
      (undisturbed_moves sound moves acts).exists_origin activity
    refine ⟨attends.patient cpu former stage was, fun selector options watches => ?_⟩
    exact kept was (by rw [resigned]) watches

omit [UserSpaces μ] in
/-- A parent that stays blocked has not been posted what it asks for. -/
theorem attends_table (attends : Attends kernel) (tells : Tells kernel after events)
    (watchful : kernel.Watchful (step, events)) {pid : Pid} {options : BitVec 64}
    (found : after.processes pid = some process)
    (watches : process.state.watch = some (selector, options)) :
    options &&& wnohang = 0 ∧ ∀ event ∈ after.childEvents pid, ¬Asks selector options event := by
  obtain ⟨former, known, before⟩ := tells.watch pid process _ found watches
  obtain ⟨patient, none⟩ := attends.table pid former selector options known before
  refine ⟨patient, fun event member asks => ?_⟩
  rcases tells.missed pid process selector options event found watches patient member asks with
    old | ⟨passed, group, rfl⟩
  · exact none event old asks
  · exact watchful.2.1 pid event passed former group options known before asks.1

omit [UserSpaces μ] in
/-- A parent that blocks has not been posted what it asks for since its look. -/
theorem attends_block (attends : Attends kernel) (tells : Tells kernel after events)
    (watchful : kernel.Watchful (step, events)) {cpu : Nat}
    {block : BlockType} {context : KernelContext} {options : BitVec 64}
    (activity : (kernel.cpus cpu).activity = .kernel process (.blocking block context))
    (watches : (ProcessState.blocked block).watch = some (selector, options)) :
    options &&& wnohang = 0 ∧
      ∀ event ∈ after.childEvents process.pid, ¬Asks selector options event := by
  have stage : (Stage.blocking block context).watch = some (selector, options) := by
    cases block <;> exact watches
  have patient := attends.patient cpu process _ activity
  refine ⟨?_, fun event member asks => ?_⟩
  · cases block with
    | waitChild =>
      cases stage
      exact patient
    | timer | file | poll | futex | signalSuspend | vfork => exact nomatch stage
  rcases tells.queued _ event member with member | fresh
  · exact attends.held cpu process _ selector options activity stage event member asks
  · exact watchful.1 _ event fresh cpu process _ selector options activity rfl stage asks

theorem attends_moves (sound : Sound kernel) (attends : Attends kernel)
    (moves : Moves kernel step after) (journal : after.journal = events ++ kernel.journal)
    (watchful : kernel.Watchful (step, events)) : Attends after := by
  have same {other : List Event} (more : after.journal = other ++ kernel.journal) :
      other = events := List.append_cancel_right (more.symm.trans journal)
  have assemble (queued : ∀ pid event, event ∈ after.childEvents pid →
        event ∈ kernel.childEvents pid ∨ .queued pid event ∈ events)
      (table : ∀ pid process selector options, after.processes pid = some process →
        process.state.watch = some (selector, options) → options &&& wnohang = 0 ∧
          ∀ event ∈ after.childEvents pid, ¬Asks selector options event) : Attends after := by
    have held := attends_held sound attends moves watchful queued
    exact ⟨table, fun cpu process stage activity => (held cpu process stage activity).1,
      fun cpu process stage selector options activity =>
        (held cpu process stage activity).2 selector options⟩
  rcases tracks_told.moves sound.keyed sound.running (fun _ _ => trivial)
    (fun _ _ _ => .of_eq List.suffix_rfl rfl rfl) moves with
    ⟨other, tells⟩ |
    ⟨cpu, ready, process, block, context, timers, futexes, -, activity, rfl, -⟩ |
    ⟨cpu, process, signal, action, -, -, rfl⟩
  · cases same tells.journal
    exact assemble tells.queued fun _ _ _ _ => attends_table attends tells watchful
  · obtain ⟨other, tells⟩ : Told kernel
        { (kernel.setActivity cpu .leaving).disarmFutexWait process.pid with
          blockedTimers := timers, blockedFutexes := futexes } := .of_eq List.suffix_rfl rfl rfl
    cases same tells.journal
    refine assemble tells.queued fun pid now selector options found watches => ?_
    rcases found_store found with ⟨rfl, rfl⟩ | ⟨-, found⟩
    · exact attends_block attends tells watchful activity watches
    · exact attends_table attends tells watchful found watches
  · obtain ⟨other, tells⟩ := told_mapProcesses kernel (resigned_shareActions process.sighand
      fun signals => (signals.setAction signal action).2)
    cases same tells.journal
    exact assemble tells.queued fun _ _ _ _ => attends_table attends tells watchful

/-- As long as no event that a wait asks for is queued between the look of the
parent and its block, a blocked parent has no event that ends its wait. -/
theorem no_lost_child_event {cpuCount : Nat} {spaces : Nat → μ}
    {labels : List (Step μ × List Event)} {last : Kernel μ}
    (run : Run (Guarded Watchful Performs) (Kernel.new cpuCount spaces) labels last) (pid : Pid)
    (process : KernelProcess) (selector : WaitChildSelector) (api : WaitChildApi)
    (statusPtr infoPtr options : BitVec 64) (found : last.processes pid = some process)
    (blocked : process.state = .blocked (.waitChild selector api statusPtr infoPtr options))
    (event : ChildEvent) (queued : event ∈ last.childEvents pid) :
    last.eventMatches selector options event = false := by
  obtain ⟨-, attends⟩ := invariant_of_run (P := Attends) run
    (fun sound attends watchful journal moves => attends_moves sound attends moves journal watchful)
    ⟨fun _ _ _ _ found => (nomatch found), fun _ _ _ activity => (nomatch activity),
      fun _ _ _ _ _ activity => (nomatch activity)⟩
  have watches : process.state.watch = some (selector, options) := by
    rw [blocked]
    rfl
  rw [Bool.eq_false_iff]
  intro matching
  exact (attends.table pid process selector options found watches).2 event queued
    (asks_of_eventMatches matching)

/-! ## A parent and its children -/

variable (kernel)

/-- A check that is enough for a step to be watchful. -/
def heeds (step : Step μ) : Bool :=
  ((kernel.posts step).all fun
    | .queued pid _ => (List.range kernel.cpuCount).all fun cpu =>
      match (kernel.cpus cpu).activity with
      | .kernel process stage => process.pid ≠ pid || stage.watch.isNone
      | _ => true
    | .passed _ _ => false
    | _ => true) &&
  match step with
  | .checkChild _ (.processGroup _) => false
  | .blockOnChild cpu selector =>
    match (kernel.cpus cpu).activity with
    | .kernel _ (.childWaitable _ checked) => selector = checked
    | _ => true
  | _ => true

theorem watchful_of_heeds (step : Step μ) (sound : Sound kernel)
    (passed : kernel.heeds step) : kernel.Watchful (step, kernel.posts step) := by
  unfold heeds at passed
  rw [Bool.and_eq_true, List.all_eq_true] at passed
  obtain ⟨posted, own⟩ := passed
  refine ⟨fun pid event member cpu process stage selector options activity same watches => ?_,
    fun pid event member => (nomatch posted _ member), ?_⟩
  · have free := posted _ member
    have within : cpu < kernel.cpuCount := by
      by_contra beyond
      nomatch (sound.outside cpu (Nat.le_of_not_lt beyond)).symm.trans activity
    have here := List.all_eq_true.mp free cpu (List.mem_range.mpr within)
    rw [activity] at here
    simp [same, watches] at here
  · cases step with
    | checkChild cpu selector =>
      cases selector with
      | processGroup group => nomatch own
      | any | pid => trivial
    | blockOnChild cpu selector =>
      intro process wait checked activity
      dsimp only at own
      rw [activity] at own
      simpa using own
    | _ => trivial

end Steps

def fork : CloneParams :=
  ⟨false, false, false, false, false, none⟩

/-- The process forks, and its child is to run on the second processor. -/
def forkSteps : List (Step (BitVec 64 → Byte)) :=
  [.allocate 0 none, .insert 0 fork (program 0x400000 1) 1 1]

/-- The child exits. -/
def exitSteps : List (Step (BitVec 64 → Byte)) :=
  [.take 1, .publish 1, .enter 1, .compute 1 (.exit 0), .finishReturn 1]

/-- The parent looks for an event and is going to block. -/
def waitSteps (selector : WaitChildSelector) : List (Step (BitVec 64 → Byte)) :=
  [.waitChild 0 ⟨.wait4, .fixed selector, 0, 0, 0⟩, .checkChild 0 selector, .probeChild 0,
    .blockOnChild 0 selector]

/-- The parent waits for its second child when the first one has exited. -/
theorem no_lost_child_event_other_child :
    ∃ labels last process, Run (Guarded Watchful Performs) (blank 2) labels last ∧
      labels.map Prod.fst =
        callSteps ++ forkSteps ++ forkSteps ++ exitSteps ++ waitSteps (.pid 3) ++
          [.finishBlock 0 false] ∧
      last.processes 1 = some process ∧
      process.state = .blocked (.waitChild (.pid 3) .wait4 0 0 0) ∧
      last.childEvents 1 = [⟨2, .exited 0⟩] ∧
      last.eventMatches (.pid 3) 0 ⟨2, .exited 0⟩ = false := by
  have found : ((blank 2).performWhere heeds (callSteps ++ forkSteps ++ forkSteps ++ exitSteps ++
      waitSteps (.pid 3) ++ [.finishBlock 0 false])).map (fun last =>
        ((last.processes 1).map (·.state), last.childEvents 1)) =
          some (some (.blocked (.waitChild (.pid 3) .wait4 0 0 0)), [⟨2, .exited 0⟩]) := by
    decide +kernel
  obtain ⟨labels, last, same, run, values⟩ := exists_guarded_run watchful_of_heeds found
  rw [Prod.mk.injEq, map_eq_some_iff] at values
  obtain ⟨⟨process, stored, blocked⟩, queued⟩ := values
  refine ⟨labels, last, process, run, same, stored, blocked, queued, ?_⟩
  exact no_lost_child_event run 1 process (.pid 3) .wait4 0 0 0 stored blocked _
    (queued ▸ List.mem_singleton.mpr rfl)

/-- The child exits after its parent has looked for an event and before the
block is recorded: nobody wakes the parent, and the event stays queued. -/
theorem child_exit_is_lost : ∃ labels last process, Run Performs (blank 2) labels last ∧
      labels.map Prod.fst =
        callSteps ++ forkSteps ++ waitSteps .any ++ exitSteps ++ [.finishBlock 0 false] ∧
      last.processes 1 = some process ∧
      process.state = .blocked (.waitChild .any .wait4 0 0 0) ∧
      last.childEvents 1 = [⟨2, .exited 0⟩] ∧
      last.eventMatches .any 0 ⟨2, .exited 0⟩ = true := by
  have found : ((blank 2).performAll (callSteps ++ forkSteps ++ waitSteps .any ++ exitSteps ++
      [.finishBlock 0 false])).map (fun last =>
        ((last.processes 1).map (·.state), last.childEvents 1,
          last.eventMatches .any 0 ⟨2, .exited 0⟩)) =
          some (some (.blocked (.waitChild .any .wait4 0 0 0)), [⟨2, .exited 0⟩], true) := by
    decide +kernel
  obtain ⟨labels, last, same, run, values⟩ := exists_run found
  rw [Prod.mk.injEq, Prod.mk.injEq, map_eq_some_iff] at values
  obtain ⟨⟨process, stored, blocked⟩, queued, matching⟩ := values
  exact ⟨labels, last, process, run, same, stored, blocked, queued, matching⟩

end Kernel

end AetherKernel.Sched
