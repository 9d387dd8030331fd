import AetherKernel.Sched.Places

/-!
# No process is lost

A process that was created and not reaped is in one place.  A processor takes it
out of the table, runs it, and gives it back or reaps it; it is lost only where
a stop signal is taken at dispatch, an exception has no signal, or a pid is
handed out twice.
-/

namespace AetherKernel.Sched

open Lib Signal Std Function Option

/-- Whether a process was created and not reaped since. -/
def alive (pid : Pid) : List Event → Bool
  | [] => false
  | .created other :: rest => decide (other = pid) || alive pid rest
  | .reaped other :: rest => !decide (other = pid) && alive pid rest
  | _ :: rest => alive pid rest

variable {μ : Type}

/-- A processor has been given a pid for a child and has not inserted it. -/
def Clones (kernel : Kernel μ) (cpu : Nat) (pid : Pid) : Prop :=
  ∃ process, (kernel.cpus cpu).activity = .kernel process (.cloning pid)

theorem alive_append_minor {events journal : List Event} (minor : ∀ event ∈ events, event.Minor)
    (pid : Pid) : alive pid (events ++ journal) = alive pid journal := by
  induction events with
  | nil => rfl
  | cons event rest ih =>
    obtain ⟨first, others⟩ := List.forall_mem_cons.mp minor
    cases event with
    | counted | notified => exact ih others
    | created | reaped | queued | passed | woke | consumed | seen | marked | left =>
      exact first.elim

/-- Every process that was created and not reaped is somewhere. -/
def Known (flight : Flight) (kernel : Kernel μ) : Prop :=
  ∀ pid, alive pid kernel.journal → ∃ place, At flight.pid kernel pid place

namespace Known

open Kernel

variable {one two : Flight} {before after kernel : Kernel μ} {cpu : Nat} {own : Kin}

/-- Nobody has moved. -/
theorem of_iff (known : Known one before)
    (still : ∀ pid place, At one.pid after pid place ↔ At one.pid before pid place)
    (journal : ∀ pid, alive pid after.journal = alive pid before.journal) : Known one after := by
  intro pid living
  rw [journal] at living
  obtain ⟨place, here⟩ := known pid living
  exact ⟨place, (still pid place).mpr here⟩

theorem of_stirs {calm : Prop} (stirs : Stirs calm before after) (known : Known one before) :
    Known one after := by
  obtain ⟨events, same, minor⟩ := stirs.journal
  refine known.of_iff stirs.at_iff fun pid => ?_
  rw [same]
  exact alive_append_minor minor pid

/-- The tables of processes, zombies and processors are the same. -/
theorem of_same (known : Known one before) (processes : after.processes = before.processes)
    (activity : ∀ cpu, (after.cpus cpu).activity = (before.cpus cpu).activity)
    (zombies : after.zombies = before.zombies)
    (journal : ∀ pid, alive pid after.journal = alive pid before.journal)
    (flying : two.pid = one.pid) : Known two after := by
  unfold Known
  rw [flying]
  exact known.of_iff (at_iff_of_eq (fun pid => by rw [processes]) activity zombies) journal

/-- One process has moved, and is somewhere or has been reaped. -/
theorem move (own : Pid) (known : Known one before)
    (here : alive own after.journal → ∃ place, At two.pid after own place)
    (processes : ∀ pid, pid ≠ own → after.processes pid = before.processes pid)
    (zombies : ∀ pid, pid ≠ own → after.zombies pid = before.zombies pid)
    (flying : ∀ pid, pid ≠ own → one.pid = some pid → two.pid = some pid)
    (activity : ∀ cpu, (after.cpus cpu).activity = (before.cpus cpu).activity)
    (journal : ∀ pid, pid ≠ own → alive pid after.journal = alive pid before.journal) :
    Known two after := by
  intro pid living
  by_cases same : pid = own
  · subst same
    exact here living
  rw [journal pid same] at living
  obtain ⟨place, was⟩ := known pid living
  refine ⟨place, ?_⟩
  cases place with
  | table => simpa only [At, processes pid same] using was
  | zombie => simpa only [At, zombies pid same] using was
  | cpu => simpa only [At, activity] using was
  | flight => exact flying pid same was

theorem alive_reaped_of_ne {pid own : Pid} (apart : pid ≠ own) (journal : List Event) :
    alive pid (.reaped own :: journal) = alive pid journal := by
  simp [alive, Ne.symm apart]

theorem not_alive_reaped (own : Pid) (journal : List Event) :
    alive own (.reaped own :: journal) = false := by
  simp [alive]

theorem removeZombie (known : Known one kernel) (pid : Pid) :
    Known one (kernel.removeZombie pid) := by
  unfold Kernel.removeZombie
  split
  · exact known
  rename_i zombie found
  have gone : Known one
      ({ kernel with zombies := update kernel.zombies pid none }.record (.reaped pid)) := by
    refine known.move pid (fun living => ?_) (fun _ _ => rfl) (fun _ apart => update_of_ne apart ..)
      (fun _ _ => id) (fun _ => rfl) fun _ apart => alive_reaped_of_ne apart _
    nomatch (not_alive_reaped pid _).symm.trans living
  cases parent : zombie.parent <;> exact gone

theorem handOver (known : Known one kernel) (parent : Pid) (event : ChildEvent) :
    Known one (kernel.handOver parent event) := by
  have consumed : Known one (kernel.record (.consumed parent event)) :=
    known
  unfold Kernel.handOver
  split
  · exact consumed.removeZombie _
  · exact consumed

theorem waitChildEvent (known : Known one kernel) (parent : Pid) (selector : WaitChildSelector)
    (options : BitVec 64) (consume : Bool) :
    Known one (kernel.waitChildEvent parent selector options consume).2 := by
  unfold Kernel.waitChildEvent
  split
  · exact known
  split
  · dsimp only
    split
    · unfold reapZombie
      split
      · exact known
      · refine Known.of_same (removeZombie ?_ _) rfl (fun _ => rfl) rfl (fun _ => rfl) rfl
        exact known
    · exact known
  · exact known

/-- The process in flight has come into the table. -/
theorem store (process : KernelProcess) (known : Known one before)
    (flies : one.own = some own) : Known .home (before.store own.pid process) := by
  refine known.move own.pid (fun _ => ⟨.table, ?_⟩) (fun _ apart => update_of_ne apart ..)
    (fun _ _ => rfl) (fun pid apart was => ?_) (fun _ => rfl) fun _ _ => rfl
  · simp [At, Kernel.store]
  · rw [Flight.pid, flies] at was
    exact absurd (Option.some.inj was).symm apart

theorem drop (own : Kin) (known : Known .home before) :
    Known (.away own) (before.drop own.pid) := by
  exact known.move own.pid (fun _ => ⟨.flight, rfl⟩) (fun _ apart => update_of_ne apart ..)
    (fun _ _ => rfl) nofun (fun _ => rfl) fun _ _ => rfl

/-- The process in flight has gone for good. -/
theorem reaped (known : Known (.left own) before) :
    Known .home (before.record (.reaped own.pid)) := by
  refine known.move own.pid (fun living => ?_) (fun _ _ => rfl) (fun _ _ => rfl)
    (fun pid apart was => absurd (Option.some.inj was).symm apart) (fun _ => rfl)
    fun _ apart => alive_reaped_of_ne apart _
  nomatch (not_alive_reaped own.pid _).symm.trans living

theorem bury (zombie : ZombieProcess) (known : Known (.left own) before) : Known (.dead own)
      { before with zombies := update before.zombies own.pid (some zombie) } := by
  refine known.move own.pid (fun _ => ⟨.zombie, ?_⟩) (fun _ _ => rfl)
    (fun _ apart => update_of_ne apart ..)
    (fun pid apart was => absurd (Option.some.inj was).symm apart) (fun _ => rfl) fun _ _ => rfl
  simp [At]

theorem created {process : KernelProcess} (known : Known (.listed process.kin) kernel) :
    Known .home (kernel.insertProcess process) := by
  have stored := known.store process rfl
  have queued := stored.of_stirs
    (stirs_enqueueRunnablePid True _ process.pid process.assignedCpu)
  refine queued.move process.pid (fun _ => ⟨.table, ?_⟩) (fun _ _ => rfl) (fun _ _ => rfl)
    (fun _ _ => id) (fun _ => rfl) ?_
  · simp [At, insertProcess, record, Kernel.store]
  · intro pid apart
    simp only [insertProcess, record, alive, Ne.symm apart]
    rfl

end Known

open Kernel in
theorem known_follows {own : Kin} {one two : Flight} {before after : Kernel μ}
    (follows : Follows own False one two before after) (known : Known one before) :
    Known two after := by
  induction follows with
  | wakes wakes => exact known.of_stirs (wakes.stirs True)
  | trans _ _ earlier later => exact later (earlier known)
  | aside aside =>
    refine known.of_same aside.processes aside.activity ?_ (fun pid => ?_) rfl
    · rw [aside.rest]
    · rw [aside.journal]
  | signal kernel pid info => exact known.of_stirs (stirs_signalProcess kernel pid info)
  | queue tells | pass tells =>
    exact known.of_same rfl (fun _ => rfl) rfl (fun _ => rfl) tells.pid
  | @hand one two _ middle parent _ _ _ _ _ _ event _ _ wakes _ _ tells =>
    have told : Known one (middle.record (.woke parent event)) :=
      show Known one middle from known.of_stirs (wakes.stirs True)
    exact (told.handOver parent event).of_same rfl (fun _ => rfl) rfl (fun _ => rfl) tells.pid
  | link kernel coming =>
    cases own.parent <;> exact known
  | @born kernel process same runnable =>
    subst same
    exact known.created
  | drop found same idle => exact known.drop own
  | store same runnable => exact known.store _ rfl
  | lost kernel allowed => exact allowed.elim
  | exits kernel status => exact known.of_stirs (stirs_beginThreadGroupExit True kernel _ _ status)
  | @leaves kernel middle departs =>
    have noted : Known (.away own) (kernel.record (.left own.serial)) :=
      known
    have left := (noted.of_stirs (departs.wakes.stirs True)).of_stirs
      (stirs_untrackThreadGroup True middle own.threadGroup own.pid)
    exact left
  | retire kernel thread =>
    have marked : Known (.left own) (kernel.record (.marked own.pid)) :=
      known
    exact marked.reaped
  | forget kernel leader =>
    have unlinked : Known (.left own)
        ((kernel.record (.marked own.pid)).untrackChildLink own.parent own.pid) := by
      cases own.parent <;> exact known
    exact unlinked.reaped
  | zombie kernel leader group => exact known.bury _
  | enlist | hear | woke | arm => exact known
  | exec kernel sighand =>
    refine known.of_iff (at_mapProcesses_iff fun process => ?_) fun _ => rfl
    rw [resigned_shareActions _ _ process]
    rfl

/-! ## Steps -/

namespace Known

open Kernel

variable {one two : Flight} {kernel : Kernel μ} {cpu : Nat} {activity : Activity}
  {process : KernelProcess}

/-- A processor goes on with its process, gives it back, or takes the one in
flight. -/
theorem turn (known : Known one kernel)
    (held : ∀ former, (kernel.cpus cpu).activity.held = some former →
      At two.pid (kernel.setActivity cpu activity) former.pid (.cpu cpu) ∨
        two.pid = some former.pid) (flying : ∀ pid, one.pid = some pid → two.pid = some pid ∨
      At two.pid (kernel.setActivity cpu activity) pid (.cpu cpu)) :
    Known two (kernel.setActivity cpu activity) := by
  intro pid living
  obtain ⟨place, was⟩ := known pid living
  cases place with
  | table => exact ⟨.table, was⟩
  | zombie => exact ⟨.zombie, was⟩
  | flight =>
    rcases flying pid was with flies | taken
    · exact ⟨.flight, flies⟩
    · exact ⟨.cpu cpu, taken⟩
  | cpu index =>
    by_cases here : index = cpu
    · subst here
      obtain ⟨former, holds, rfl⟩ := was
      rcases held former holds with still | flies
      · exact ⟨.cpu index, still⟩
      · exact ⟨.flight, flies⟩
    · refine ⟨.cpu index, ?_⟩
      simp only [At, cpus_setActivity_of_ne _ here]
      exact was

/-- A processor goes on with a process of the same pid. -/
theorem stay (process : KernelProcess) {next : KernelProcess} (known : Known .home kernel)
    (held : (kernel.cpus cpu).activity.held = some process) (holds : activity.held = some next)
    (same : next.pid = process.pid) :
    Known one (kernel.setActivity cpu activity) := by
  refine Known.turn known (fun former was => .inl ⟨next, ?_, ?_⟩) nofun
  · rw [cpus_setActivity_self]
    exact holds
  · cases held.symm.trans was
    exact same

theorem goesOn (known : Known .home kernel) (goesOn : GoesOn (kernel.cpus cpu).activity activity) :
    Known .home (kernel.setActivity cpu activity) := by
  refine known.turn (fun former was => .inl ?_) nofun
  have kin := goesOn.kin
  rw [was] at kin
  obtain ⟨process, holds, same⟩ := map_eq_some_iff.mp kin
  exact ⟨process, by rw [cpus_setActivity_self]; exact holds, congrArg Kin.pid same⟩

theorem takeOff (known : Known .home kernel)
    (held : (kernel.cpus cpu).activity.held = some process) :
    Known (.away process.kin) (kernel.setActivity cpu .leaving) := by
  refine known.turn (fun former was => .inr ?_) nofun
  cases held.symm.trans was
  rfl

theorem land {work : DispatchWork}
    (known : Known (.away process.kin) kernel) (idle : (kernel.cpus cpu).activity = .idle) :
    Known .home (kernel.setActivity cpu (.dispatched work process)) := by
  refine known.turn (fun former was => ?_) (fun pid flies => .inr ⟨process, ?_, ?_⟩)
  · rw [idle] at was
    nomatch was
  · rw [cpus_setActivity_self]
    rfl
  · exact Option.some.inj flies

theorem of_blocks {step : Step μ} {after : Kernel μ} (blocks : Blocks kernel step after)
    (known : Known .home kernel) : Known .home after := by
  obtain ⟨cpu, ready, process, block, context, timers, futexes, -, activity, rfl, -⟩ := blocks
  have flown := known.takeOff (congrArg Activity.held activity)
  have aside : Known (.away process.kin)
      { (kernel.setActivity cpu .leaving).disarmFutexWait process.pid with
        blockedTimers := timers, blockedFutexes := futexes } :=
    flown
  exact aside.store _ rfl

end Known

namespace Kernel

variable {kernel after : Kernel μ} {step : Step μ}

/-- What a processor shows of the process that it holds. -/
def Shown (kernel : Kernel μ) : Prop :=
  ∀ cpu process, (kernel.cpus cpu).activity.held = some process →
    (∃ work, (kernel.cpus cpu).activity = .dispatched work process) ∨
      (kernel.cpus cpu).current.any (·.pid = process.pid)

theorem tracks_current : Tracks (fun _ => True) fun before after : Kernel μ =>
    ∀ cpu, (after.cpus cpu).current = (before.cpus cpu).current where
  trans _ _ _ earlier later cpu := (later cpu).trans (earlier cpu)
  stirs _ _ stirs := stirs.current
  aside _ _ aside := aside.current
  count _ _ _ := rfl
  notes _ _ notes cpu := by rw [notes.rest]
  signal kernel pid info := (stirs_signalProcess kernel pid info).current
  hear _ _ _ _ _ := rfl
  queue _ _ _ _ _ := rfl
  pass _ _ _ _ _ _ _ _ _ _ := rfl
  woke _ _ _ _ _ _ _ := rfl
  created _ _ _ := rfl
  left _ _ _ := rfl
  store _ _ _ _ := rfl
  drop _ _ _ := rfl
  arm _ _ _ _ _ := rfl
  exec _ _ _ := rfl
  turn kernel cpu activity _ index := by
    by_cases here : index = cpu
    · subst here
      simp
    · rw [cpus_setActivity_of_ne _ here]
  passes _ _ _ _ passes := passes.current
  regroups _ _ regroups cpu := by rw [regroups.rest]
  takePending _ _ _ _ := rfl

/-- The pids of new processes are new, no processor takes a process that is
about to be stopped, and exceptions have signals. -/
def Orderly (kernel : Kernel μ) (label : Step μ × List Event) : Prop :=
  match label.1 with
  | .take cpu => ∀ process, kernel.nextFor cpu = some process → ¬kernel.Stops process
  | .trap _ reason => reason.HasSignal
  | .spawn _ _ _ _ => kernel.nextPid < 2 ^ 32 - 1
  | .allocate _ requested =>
    requested.getD kernel.nextPid < 2 ^ 32 - 1 ∧
      (∀ cpu work process, (kernel.cpus cpu).activity = .dispatched work process →
        requested ≠ some process.pid) ∧
      ∀ cpu pid, Clones kernel cpu pid → requested ≠ some pid
  | _ => True

section Memory

variable {process : KernelProcess} {cpu : Nat} {pid : Pid} {events : List Event}

theorem shown_publish {work : DispatchWork} (shown : Shown kernel) :
    Shown ((kernel.setCurrent cpu (some process.runningSnapshot)).setActivity cpu
      (entered work process)) := by
  intro index next held
  by_cases here : index = cpu
  · subst here
    right
    rw [cpus_setActivity_self] at held
    have same : process.pid = next.pid :=
      congrArg ProcessIdentity.pid (entered_held held).1.symm
    simp [setActivity, setCurrent, setCpu, KernelProcess.runningSnapshot, same]
  · simp only [cpus_setActivity_of_ne _ here, setCurrent, setCpu, update_of_ne here] at held ⊢
    exact shown index next held

theorem shown_release (shown : Shown kernel) :
    Shown ((kernel.setCurrent cpu none).setActivity cpu .idle) := by
  intro index next held
  by_cases here : index = cpu
  · subst here
    rw [cpus_setActivity_self] at held
    exact nomatch held
  · simp only [cpus_setActivity_of_ne _ here, setCurrent, setCpu, update_of_ne here] at held ⊢
    exact shown index next held

variable [UserSpaces μ]

/-- Only `publish` and `release` change what a processor shows. -/
theorem current_moves (sound : Sound kernel) (moves : Moves kernel step after)
    (still : ∀ cpu, ¬(step = .publish cpu ∨ step = .release cpu)) (cpu : Nat) :
    (after.cpus cpu).current = (kernel.cpus cpu).current := by
  rcases tracks_current.moves sound.keyed sound.running (fun _ _ => trivial)
    (fun cpu _ shows => absurd shows (still cpu)) moves with
    same | ⟨index, ready, process, block, context, timers, futexes, -, -, rfl, -⟩ |
    ⟨index, process, signal, action, -, -, rfl⟩
  · exact same cpu
  · exact tracks_current.turn kernel index .leaving trivial cpu
  · rfl

theorem shown_moves (sound : Sound kernel) (shown : Shown kernel)
    (moves : Moves kernel step after) :
    Shown after := by
  by_cases still : ∀ cpu, ¬(step = .publish cpu ∨ step = .release cpu)
  · have current := current_moves sound moves still
    intro cpu process held
    rw [current]
    by_cases acts : actor step = some cpu
    · have turn := turn_of_moves sound moves acts
      have was := shown cpu
      generalize (kernel.cpus cpu).activity = old at turn was
      generalize (after.cpus cpu).activity = new at turn held
      cases turn with
      | idles | trap | release => nomatch held
      | takes =>
        cases held
        exact .inl ⟨_, rfl⟩
      | publish => exact absurd (.inl rfl) (still _)
      | enter index former =>
        cases held
        exact .inr ((was former rfl).resolve_left fun ⟨_, taken⟩ => nomatch taken)
      | @call former stage _ _ turn =>
        rw [(CallTurn.held turn held).1]
        exact .inr ((was former rfl).resolve_left fun ⟨_, taken⟩ => nomatch taken)
    · obtain ⟨change, signals, same⟩ := undisturbed_moves sound moves acts
      rw [same] at held ⊢
      have was := shown cpu
      cases old : (kernel.cpus cpu).activity with
      | idle | leaving =>
        rw [old] at held
        nomatch held
      | dispatched work former =>
        rw [old] at held
        cases held
        exact .inl ⟨work, rfl⟩
      | user former | kernel former stage =>
        rw [old] at held was
        cases held
        rw [signals former]
        exact .inr ((was former rfl).resolve_left fun ⟨_, taken⟩ => nomatch taken)
  · obtain ⟨cpu, shows⟩ := not_forall_not.mp still
    rcases shows with rfl | rfl
    · cases moves with
      | publish within activity => exact shown_publish shown
      | call within acts activity performed => cases performed
    · cases moves with
      | release within activity => exact shown_release shown
      | call within acts activity performed => cases performed

omit [UserSpaces μ] in
/-- `allocate_pid` does not give out the pid of a process on a processor. -/
theorem distinct_of_orderly {requested : Option Pid} {next : Pid}
    (sound : Sound kernel) (shown : Shown kernel)
    (orderly : kernel.Orderly (.allocate cpu requested, []))
    (allocated : kernel.allocatePid requested = (.ok pid, { kernel with nextPid := next })) :
    kernel.Distinct (.allocate cpu requested, []) := by
  obtain ⟨below, unseen, unreserved⟩ := orderly
  refine ⟨below, fun wanted asked index => ⟨fun process held same => ?_, fun reserves => ?_⟩⟩
  · subst asked same
    have within : index < kernel.cpuCount := by
      by_contra outside
      rw [sound.outside index (Nat.le_of_not_lt outside)] at held
      exact nomatch held
    rcases shown index process held with ⟨work, taken⟩ | seen
    · exact unseen index work process taken rfl
    -- `allocate_pid` sees the table, the zombies and what the processors show.
    rcases choosePid_ok (allocatePid_ok allocated) with ⟨none, -⟩ | ⟨same, absent, -⟩
    · cases none
    cases same
    simp [inUse, runningCpuOf] at absent
    exact absurd seen (by simpa using absent.2 index within)
  · cases activity : (kernel.cpus index).activity with
    | kernel process stage =>
      rw [activity] at reserves
      cases stage with
      | cloning child =>
        cases reserves
        exact unreserved index wanted ⟨process, activity⟩ asked
      | _ => exact nomatch reserves
    | idle | leaving | dispatched | user =>
      rw [activity] at reserves
      exact nomatch reserves

/-- Every process is in one place. -/
structure Census (flight : Flight) (kernel : Kernel μ) : Prop where
  places : Places flight kernel
  known : Known flight kernel

section Moves

variable (census : Census .home kernel) (sound : Sound kernel) (shown : Shown kernel)
  (orderly : kernel.Orderly (step, events))
include census sound shown orderly

theorem Census.keeps : Keeps False Census kernel step where
  follows _ _ _ _ _ follows holds :=
    ⟨places_follows follows holds.places, known_follows follows holds.known⟩
  shows cpu current :=
    ⟨census.places.stay (.of_eq (Prod.ext rfl (funext (activity_setCurrent _ _ _)))) rfl rfl,
      census.known.of_same rfl (activity_setCurrent _ _ _) rfl (fun _ => rfl) rfl⟩
  passes _ _ _ _ passes holds :=
    ⟨holds.places.stay passes.stands passes.zombies passes.nextPid,
      holds.known.of_iff passes.at_iff (by rw [passes.journal]; simp)⟩
  resigns change resigned := by
    have kin (process : KernelProcess) : (change process).kin = process.kin := by
      rw [resigned process]
      rfl
    exact ⟨census.places.stay (.of_map resigned) rfl rfl,
      census.known.of_iff (at_mapProcesses_iff kin) fun _ => rfl⟩
  regroups _ regroups :=
    ⟨census.places.stay regroups.stands (by rw [regroups.rest]) (by rw [regroups.rest]),
      census.known.of_iff regroups.at_iff (by rw [regroups.rest]; exact fun _ => rfl)⟩
  looks cpu process wait selector _ _ :=
    ⟨census.places.of_notes (kernel.notes_waitChildEvent _ _ _ _) (fun _ => zombies_waitChildEvent)
      fun _ => id, census.known.waitChildEvent _ _ _ _⟩
  allocates cpu process pid next requested same activity allocated := by
    subst same
    have distinct : kernel.Distinct (.allocate cpu requested, []) :=
      distinct_of_orderly sound shown orderly allocated
    obtain ⟨grows, below, nowhere, free⟩ := census.places.of_allocated distinct allocated
    have held := congrArg Activity.held activity
    refine ⟨(census.places.count grows).reserve held nowhere below free, ?_⟩
    have counted : Known .home { kernel with nextPid := next } :=
      census.known
    exact counted.stay process held rfl rfl
  goesOn _ _ _ goes holds := ⟨holds.places.stay (.of_turn goes) rfl rfl, holds.known.goesOn goes⟩
  takeOff _ _ held := ⟨census.places.takeOff held, census.known.takeOff held⟩
  land _ _ _ _ idle _ _ flown := ⟨flown.places.land, flown.known.land idle⟩
  insert cpu process pid params task assignedCpu sighand _ activity _ := by
    refine ⟨census.places.insert params task assignedCpu sighand activity, ?_⟩
    have held := congrArg Activity.held activity
    unfold cloned
    split <;> exact census.known.stay process held rfl rfl
  spawn parent task assignedCpu sighand same := by
    subst same
    refine ⟨census.places.spawn parent task assignedCpu sighand orderly, fun pid living => ?_⟩
    obtain ⟨place, here⟩ := census.known pid living
    cases place with
    | table => exact ⟨.table, here⟩
    | cpu index => exact ⟨.cpu index, here⟩
    | zombie => exact ⟨.zombie, here⟩
    | flight => nomatch here
  execve _ process task _ activity := by
    refine kept_of_execve activity ⟨census.places.of_same (fun _ => id) rfl rfl rfl, census.known⟩
      (fun _ _ wakes holds => ?_) fun middle held holds => ?_
    · have stirs := wakes.stirs True
      exact ⟨holds.places.of_stirs stirs, holds.known.of_stirs stirs⟩
    · exact ⟨holds.places.keep held rfl, holds.known.stay process held rfl rfl⟩

theorem census_moves (moves : Moves kernel step after) : Census .home after := by
  have loses : kernel.Loses step → False := by
    intro lost
    cases step with
    | take cpu =>
      obtain ⟨process, next, stops⟩ := lost
      exact orderly process next stops
    | trap cpu reason => exact lost orderly
    | _ => exact lost
  rcases (census.keeps sound shown orderly).moves sound.keyed sound.running loses census moves with
    still | blocks
  · exact still
  · exact ⟨census.places.of_blocks blocks, census.known.of_blocks blocks⟩

end Moves

/-! ## Runs -/

theorem census_run {cpuCount : Nat} {spaces : Nat → μ} {labels : List (Step μ × List Event)}
    {last : Kernel μ} (run : Run (Guarded Orderly Performs) (new cpuCount spaces) labels last) :
    Census .home last := by
  have kept {kernel after : Kernel μ} {step : Step μ} {events : List Event} (sound : Sound kernel) :
      Shown kernel ∧ Census .home kernel → Orderly kernel (step, events) →
      after.journal = events ++ kernel.journal → Moves kernel step after →
      Shown after ∧ Census .home after := fun ⟨shown, census⟩ orderly _ moves =>
    ⟨shown_moves sound shown moves, census_moves census sound shown orderly moves⟩
  refine (invariant_of_run run kept ⟨?_, ?_⟩).2.2
  · exact fun _ _ held => nomatch held
  · exact ⟨.start cpuCount spaces, nofun⟩

/-- The process can run, and the processor that it is assigned to has it in its queue. -/
def Queued (kernel : Kernel μ) (pid : Pid) : Prop :=
  ∃ process, kernel.processes pid = some process ∧ process.state = .runnable ∧
    pid ∈ (kernel.cpus process.assignedCpu).runQueue

variable (queued : kernel.Queued pid)
include queued

omit [UserSpaces μ] in
theorem Queued.of_stirs {calm : Prop} (stirs : Stirs calm kernel after) : after.Queued pid := by
  obtain ⟨process, found, runnable, member⟩ := queued
  obtain ⟨stored, known, touched⟩ := stirs.exists_touched found
  refine ⟨stored, known, touched.eased.of_runnable runnable, stirs.queue _ _ ?_⟩
  rwa [touched.assignedCpu]

omit [UserSpaces μ] in
theorem Queued.of_eq (processes : after.processes = kernel.processes)
    (cpus : after.cpus = kernel.cpus) : after.Queued pid := by
  obtain ⟨process, found, runnable, member⟩ := queued
  exact ⟨process, processes ▸ found, runnable, cpus ▸ member⟩

/-- Telling a parent lets the others run as before. -/
theorem queued_postChildEvent (parent : Pid) (event : ChildEvent) :
    (kernel.postChildEvent parent event).Queued pid := by
  unfold postChildEvent
  split
  · exact queued.of_eq rfl rfl
  rename_i process found
  split
  · rename_i selector api statusPtr infoPtr options state
    have woken : (kernel.wakeWaitingParent parent process api statusPtr event).Queued pid := by
      obtain ⟨middle, -, wakes, -, -, same⟩ :=
        wakeWaiter_eq parent False found (by rw [state]; rfl) api statusPtr event
      have told : (middle.record (.woke parent event)).Queued pid :=
        (queued.of_stirs (wakes.stirs True)).of_eq rfl rfl
      simp only [wakeWaitingParent, same]
      split
      · exact told
      · have notes := notes_handOver (middle.record (.woke parent event)) parent event
        exact told.of_eq notes.processes (by rw [notes.rest])
    split
    · split
      · exact woken.of_eq rfl rfl
      · exact woken
    · exact queued.of_eq rfl rfl
  · exact queued.of_eq rfl rfl

theorem queued_notifyChildEvent (parent : Option Pid) (event : ChildEvent) :
    (kernel.notifyChildEvent parent event).Queued pid := by
  unfold notifyChildEvent
  split
  · exact queued
  rename_i parent
  have posted := queued_postChildEvent queued parent event
  dsimp only
  split
  · exact posted
  split
  · exact posted
  · exact posted.of_stirs (stirs_signalProcess _ _ _)
  · exact posted.of_stirs (stirs_signalProcess _ _ _)

omit queued

/-- `SIGCONT` makes a stopped process runnable and queues it. -/
theorem continued_of_stopped {signal : Nat}
    {info : SignalInfo} (found : kernel.processes pid = some process)
    (stopped : process.state = .stopped signal) (continues : info.signal = sigcont) :
    (kernel.sendSignal pid info).Queued pid := by
  have resumes : continued info process = true := by
    simp [continued, continues, stopped]
  generalize free : ({ process with state := .runnable } : KernelProcess) = released
  have runs : (signalled kernel.monotonicNanos info released).state = .runnable := by
    subst free
    unfold signalled
    dsimp only
    split <;> rfl
  have awake : (kernel.signalProcess pid info).Queued pid := by
    simp only [signalProcess, found, resumes, if_true, free]
    refine Queued.of_eq (?_ : (kernel.settle pid process _).Queued pid) rfl rfl
    rw [settle, if_pos ⟨runs, by simp [stopped]⟩]
    generalize signalled kernel.monotonicNanos info released = woken at runs ⊢
    have stored : ((kernel.store pid woken).enqueueRunnablePid pid woken.assignedCpu).processes
        pid = some woken := by
      simp [store]
    have unblocks : Stirs True _ _ :=
      stirs_untrackBlockedProcess _ stored (by rw [runs]; rfl) process.state
    exact Queued.of_stirs ⟨_, stored, runs, mem_runQueue_enqueueRunnablePid _ _ _⟩ unblocks
  simp only [sendSignal, notifySignal, found, resumes]
  exact queued_notifyChildEvent awake _ _

/-- As long as no processor takes a process that is about to be stopped, every
process is in one place. -/
theorem every_process_in_one_place {cpuCount : Nat} {spaces : Nat → μ}
    {labels : List (Step μ × List Event)} {last : Kernel μ}
    (run : Run (Guarded Orderly Performs) (new cpuCount spaces) labels last) :
    (∀ pid, alive pid last.journal → ∃! place, At none last pid place) ∧
      ∀ pid process signal info, last.processes pid = some process →
        process.state = .stopped signal → info.signal = sigcont →
        ∃ resumed, (last.sendSignal pid info).processes pid = some resumed ∧
          resumed.state = .runnable ∧
          pid ∈ ((last.sendSignal pid info).cpus resumed.assignedCpu).runQueue := by
  have census := census_run run
  constructor
  · intro pid living
    obtain ⟨place, held⟩ := census.known pid living
    exact ⟨place, held, fun other second => census.places.unique pid other place second held⟩
  · exact fun _ _ _ _ found stopped continues => continued_of_stopped found stopped continues

end Memory

/-- A process is created, and the only processor takes it. -/
def startSteps : List (Step (BitVec 64 → Byte)) :=
  [.spawn none (program 0x400000 0) 0 0, .take 0]

theorem every_process_in_one_place_started :
    ∃ labels last, Run (Guarded Orderly Performs) (blank 1) labels last ∧
      labels.map Prod.fst = startSteps ∧ alive 1 last.journal ∧
      ∃! place, At none last 1 place := by
  have first : Orderly (blank 1) (startSteps[0], [.created 1]) := by
    show 1 < 2 ^ 32 - 1
    decide
  have second : Orderly ((blank 1).spawnTask none (program 0x400000 0) 0 0)
      (startSteps[1], []) := by
    rintro process ⟨⟩ ⟨-, -, -, info, stop⟩
    nomatch stop
  have run : Run (Guarded Orderly Performs) (blank 1)
      [(startSteps[0], [.created 1]), (startSteps[1], [])]
      (((blank 1).spawnTask none (program 0x400000 0) 0 0).take 0) :=
    .cons ⟨first, rfl, rfl⟩ (.cons ⟨second, rfl, rfl⟩ .nil)
  have living : alive 1 (((blank 1).spawnTask none (program 0x400000 0) 0 0).take 0).journal := rfl
  exact ⟨_, _, run, rfl, living, (every_process_in_one_place run).1 1 living⟩

/-- `SIGSTOP` for a process that waits to run: the processor that takes it next
drops it. -/
def stopSteps : List (Step (BitVec 64 → Byte)) :=
  [.spawn none (program 0x400000 0) 0 0, .service (.sendSignal 1 ⟨sigstop, 0, 0, 0, 0⟩), .take 0]

theorem stopped_process_is_lost :
    ∃ labels last, Run Performs (blank 1) labels last ∧ labels.map Prod.fst = stopSteps ∧
      alive 1 last.journal ∧ ¬∃ place, At none last 1 place := by
  have found : ((blank 1).performAll stopSteps).map (fun last =>
      (alive 1 last.journal, (last.processes 1).isSome, (last.zombies 1).isSome)) =
        some (true, false, false) := rfl
  have idle : ∀ cpu, ((blank 1).performAll stopSteps).map (fun last => (last.cpus cpu).activity) =
      some .idle := by
    intro cpu
    cases cpu <;> rfl
  obtain ⟨last, performed, values⟩ := map_eq_some_iff.mp found
  simp only [Prod.mk.injEq] at values
  obtain ⟨living, notTable, notZombie⟩ := values
  obtain ⟨labels, last, same, run, rfl⟩ := exists_run (congrArg (Option.map id) performed)
  refine ⟨labels, last, run, same, living, ?_⟩
  rintro ⟨place, held⟩
  cases place with
  | table => nomatch notTable.symm.trans held
  | zombie => nomatch notZombie.symm.trans held
  | flight => nomatch held
  | cpu index =>
    obtain ⟨process, holds, -⟩ := held
    have none := idle index
    rw [performed] at none
    nomatch (congrArg Activity.held (Option.some.inj none)).symm.trans holds

end Kernel

end AetherKernel.Sched
