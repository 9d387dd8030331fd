import AetherKernel.Sched.Keeps

/-!
# Who is there

The invariants of the manager speak of the processes that there are: in the
table, with a processor, or in flight.  Most updates leave all of them where they
are, and this is what is said of these updates here.
-/

namespace AetherKernel.Sched

open Lib Signal Std Function

variable {μ : Type} {one two : Flight}

namespace Kernel

variable {kernel : Kernel μ} {pid other : Pid} {process stored : KernelProcess} {cpu index : Nat}
  {activity : Activity}

theorem held_setActivity
    (held : ((kernel.setActivity cpu activity).cpus index).activity.held = some process) :
    index = cpu ∧ activity.held = some process ∨
      index ≠ cpu ∧ (kernel.cpus index).activity.held = some process := by
  by_cases here : index = cpu
  · subst here
    rw [cpus_setActivity_self] at held
    exact .inl ⟨rfl, held⟩
  · rw [cpus_setActivity_of_ne _ here] at held
    exact .inr ⟨here, held⟩

theorem reserves_setActivity
    (reserved : ((kernel.setActivity cpu activity).cpus index).activity.reserves = some pid) :
    index = cpu ∧ activity.reserves = some pid ∨
      index ≠ cpu ∧ (kernel.cpus index).activity.reserves = some pid := by
  by_cases here : index = cpu
  · subst here
    rw [cpus_setActivity_self] at reserved
    exact .inl ⟨rfl, reserved⟩
  · rw [cpus_setActivity_of_ne _ here] at reserved
    exact .inr ⟨here, reserved⟩

/-- The caller of a clone goes on. -/
theorem cloned_eq (process : KernelProcess) (params : CloneParams) (serial child : Nat) :
    ∃ later stage, cloned process params serial child = .kernel later stage ∧
      later.identity = process.identity ∧ later.assignedCpu = process.assignedCpu ∧
      stage.reserves = none := by
  unfold cloned
  split
  all_goals exact ⟨_, _, rfl, rfl, rfl, rfl⟩

end Kernel

/-- The processes of the table, and what the processors do. -/
def Kernel.standing (kernel : Kernel μ) : (Pid → Option KernelProcess) × (Nat → Activity) :=
  (kernel.processes, fun cpu => (kernel.cpus cpu).activity)

theorem Aside.standing {before after : Kernel μ} (aside : Aside before after) :
    after.standing = before.standing :=
  Prod.ext aside.processes (funext aside.activity)

/-- Every process is where it was before; some may have been let out of a block. -/
structure Stands (before after : Kernel μ) : Prop where
  table : ∀ pid process, after.processes pid = some process →
    ∃ former, before.processes pid = some former ∧ former.kin = process.kin ∧ Eased former process
  goesOn : ∀ cpu, GoesOn (before.cpus cpu).activity (after.cpus cpu).activity

variable {activity : Activity}

namespace Stands

open Kernel

variable {before after : Kernel μ} {cpu : Nat}

theorem of_table (table : ∀ pid process, after.processes pid = some process →
      ∃ former, before.processes pid = some former ∧ former.kin = process.kin ∧
        Eased former process)
    (activity : ∀ cpu, (after.cpus cpu).activity = (before.cpus cpu).activity) :
    Stands before after := by
  refine ⟨table, fun cpu => ?_⟩
  rw [activity]
  exact .refl _

theorem of_eq (same : after.standing = before.standing) : Stands before after := by
  obtain ⟨processes, activity⟩ := Prod.mk.inj same
  exact .of_table (fun _ process found => ⟨process, processes ▸ found, rfl, .same rfl rfl⟩)
    (congrFun activity)

theorem of_map {change : KernelProcess → KernelProcess}
    (resigned : ∀ process, Resigned process (change process)) :
    Stands before (before.mapProcesses change) := by
  have kin (process : KernelProcess) : (change process).kin = process.kin := by
    rw [resigned process]
    rfl
  refine ⟨fun pid process found => ?_, fun cpu => .map kin _⟩
  obtain ⟨former, known, rfl⟩ := Option.map_eq_some_iff.mp found
  exact ⟨former, known, (kin former).symm,
    .same (by rw [resigned former]) (by rw [resigned former])⟩

theorem of_turn (goesOn : GoesOn (before.cpus cpu).activity activity) :
    Stands before (before.setActivity cpu activity) := by
  refine ⟨fun _ process found => ⟨process, found, rfl, .same rfl rfl⟩, fun index => ?_⟩
  by_cases here : index = cpu
  · subst here
    rw [cpus_setActivity_self]
    exact goesOn
  · rw [cpus_setActivity_of_ne _ here]
    exact .refl _

theorem keyed (stands : Stands before after) (keyed : Keyed before) : Keyed after := by
  intro pid process found
  obtain ⟨former, known, kin, -⟩ := stands.table pid process found
  exact (congrArg Kin.pid kin).symm.trans (keyed pid former known)

theorem not_held (stands : Stands before after)
    (nobody : (before.cpus cpu).activity.held = none) : (after.cpus cpu).activity.held = none := by
  have kin := (stands.goesOn cpu).kin
  rw [nobody] at kin
  exact Option.map_eq_none_iff.mp kin

/-- A process that is blocked was blocked before, on the same thing unless it is a
futex. -/
theorem blocked (stands : Stands before after) {pid : Pid} {process : KernelProcess}
    {block : BlockType} (found : after.processes pid = some process)
    (blocked : process.state = .blocked block)
    (other : ∀ key bitset deadline, block ≠ .futex key bitset deadline) :
    ∃ former, before.processes pid = some former ∧ former.kin = process.kin ∧
      former.state = .blocked block := by
  obtain ⟨former, known, kin, eased⟩ := stands.table pid process found
  rcases eased.blocked blocked with same | ⟨_, target, bitset, deadline, -, futex⟩
  · exact ⟨former, known, kin, same⟩
  · exact absurd futex (other target bitset deadline)

end Stands

section Stands

open Kernel

variable {before after : Kernel μ}

theorem Stirs.stands {calm : Prop} (stirs : Stirs calm before after) : Stands before after := by
  refine .of_table (fun pid process found => ?_) stirs.activity
  obtain ⟨former, known, touched⟩ := stirs.exists_origin found
  refine ⟨former, known, ?_, touched.eased⟩
  rw [touched.rest]
  rfl

theorem Kernel.Passes.stands {cpu : Nat} {taken : Option Pid}
    (passes : Passes cpu taken before after) : Stands before after := by
  refine .of_table (fun pid process found => ?_) passes.activity
  obtain ⟨former, known, same⟩ := passes.exists_origin found
  rw [same]
  exact ⟨former, known, rfl, .same rfl rfl⟩

theorem Kernel.Regroups.stands (regroups : Regroups before after) : Stands before after := by
  refine .of_table (fun pid process found => ?_) fun cpu => by rw [regroups.rest]
  obtain ⟨former, known, group, rfl⟩ := regroups.exists_origin found
  exact ⟨former, known, rfl, .same rfl rfl⟩

theorem Notes.stands (notes : Notes before after) : Stands before after :=
  .of_eq (by rw [notes.rest]; rfl)

end Stands

/-- The process in flight stays there, or is dropped. -/
structure Flight.Sheds (one two : Flight) : Prop where
  own : ∀ kin, two.own = some kin → one.own = some kin
  coming : ∀ kin, one.coming = some kin → two.coming = some kin
  going : ∀ kin, two.going = some kin → one.going = some kin

theorem Flight.Sheds.refl (flight : Flight) : flight.Sheds flight :=
  ⟨fun _ => id, fun _ => id, fun _ => id⟩

theorem Flight.Sheds.pid (sheds : one.Sheds two) (pid : Pid) (flies : two.pid = some pid) :
    one.pid = some pid := by
  obtain ⟨kin, known, rfl⟩ := Option.map_eq_some_iff.mp flies
  exact congrArg (Option.map Kin.pid) (sheds.own kin known)

theorem Flight.Sheds.of_own (known : one.coming = none) (gone : two.own = none) : one.Sheds two :=
  ⟨fun _ flies => (nomatch gone.symm.trans flies), fun _ comes => (nomatch known.symm.trans comes),
    fun _ goes => nomatch gone.symm.trans (own_of_going goes)⟩

theorem Telling.sheds {own : Kin} {kernel : Kernel μ} {parent : Pid}
    {event : ChildEvent} (tells : Telling own kernel parent one two event) : one.Sheds two := by
  cases tells with
  | child | own => exact .refl _
  | exit => exact .of_own rfl rfl

/-! ## Zombies -/

namespace Kernel

theorem untrackChildLink_rest (kernel : Kernel μ) (parent : Option Pid) (pid : Pid) :
    kernel.untrackChildLink parent pid =
      { kernel with parentChildren := (kernel.untrackChildLink parent pid).parentChildren } := by
  cases parent <;> rfl

theorem zombies_removeZombie (kernel : Kernel μ) (pid : Pid) :
    (kernel.removeZombie pid).zombies = update kernel.zombies pid none := by
  unfold removeZombie
  split
  · rename_i absent
    rw [← absent, update_eq_self]
  · dsimp only
    rw [untrackChildLink_rest]
    rfl

theorem zombies_reapZombie (kernel : Kernel μ) (pid : Pid) :
    (kernel.reapZombie pid).zombies = update kernel.zombies pid none := by
  unfold reapZombie
  split
  · rename_i absent
    rw [← absent, update_eq_self]
  · exact kernel.zombies_removeZombie pid

theorem zombies_of_update {zombies : Pid → Option ZombieProcess} {pid other : Pid}
    (zombie : update zombies pid none other ≠ none) : zombies other ≠ none := by
  intro absent
  apply zombie
  by_cases here : other = pid
  · rw [here, update_self]
  · rw [update_of_ne here, absent]

variable {parent pid : Pid} {kernel : Kernel μ}

theorem zombies_handOver {event : ChildEvent}
    (zombie : (kernel.handOver parent event).zombies pid ≠ none) : kernel.zombies pid ≠ none := by
  unfold handOver at zombie
  split at zombie
  · rw [zombies_removeZombie] at zombie
    exact zombies_of_update zombie
  · exact zombie

theorem zombies_waitChildEvent {selector : WaitChildSelector} {options : BitVec 64} {consume : Bool}
    (zombie : (kernel.waitChildEvent parent selector options consume).2.zombies pid ≠ none) :
    kernel.zombies pid ≠ none := by
  unfold waitChildEvent at zombie
  split at zombie
  · exact zombie
  split at zombie
  · split at zombie
    · rw [zombies_reapZombie] at zombie
      exact zombies_of_update zombie
    · exact zombie
  · exact zombie

end Kernel

/-! ## Updates on behalf of a process -/

/-- Every process is where it was; one in flight may be dropped, and zombies may be gone. -/
structure Rests (one two : Flight) (before after : Kernel μ) : Prop where
  stands : Stands before after
  sheds : one.Sheds two
  zombies : ∀ pid, after.zombies pid ≠ none → before.zombies pid ≠ none
  nextPid : after.nextPid = before.nextPid

section Follows

open Kernel

variable {own : Kin} {losing : Prop} {before after : Kernel μ}

theorem Rests.of_stirs {calm : Prop} (stirs : Stirs calm before after) :
    Rests one one before after :=
  ⟨stirs.stands, .refl one, fun _ => stirs.zombies ▸ id, stirs.nextPid⟩

theorem Rests.of_eq (sheds : one.Sheds two) (same : after.standing = before.standing)
    (zombies : after.zombies = before.zombies) (nextPid : after.nextPid = before.nextPid) :
    Rests one two before after :=
  ⟨.of_eq same, sheds, fun _ => zombies ▸ id, nextPid⟩

/-- A process comes into the table or is taken out of it, or becomes a zombie; otherwise
all stand where they are. -/
theorem Follows.rule {I : Flight → Kernel μ → Prop}
    (rests : ∀ {one two before after}, I one before → Rests one two before after → I two after)
    (store : ∀ {flight kernel process}, I flight kernel → flight.own = some process.kin →
      process.state = .runnable → I .home (kernel.store process.pid process))
    (drop : ∀ {kernel process}, I .home kernel →
      kernel.processes process.pid = some process →
      (kernel.cpus process.assignedCpu).activity = .idle →
      I (.away process.kin) (kernel.drop process.pid))
    (bury : ∀ {own kernel group}, I (.left own) kernel → I (.dead own) { kernel with
        zombies := update kernel.zombies own.pid (some ⟨own.parent, group⟩) })
    (follows : Follows own losing one two before after) (holds : I one before) : I two after := by
  induction follows with
  | wakes wakes => exact rests holds (.of_stirs (wakes.stirs True))
  | trans _ _ earlier later => exact later (earlier holds)
  | aside aside =>
    refine rests holds (.of_eq (.refl _) aside.standing ?_ ?_)
    all_goals rw [aside.rest]
  | signal kernel pid info =>
    exact rests holds (.of_stirs (stirs_signalProcess kernel pid info))
  | hear | woke | arm => exact rests holds (.of_eq (.refl _) rfl rfl rfl)
  | queue tells | pass tells =>
    exact rests holds (.of_eq tells.sheds rfl rfl rfl)
  | @hand _ _ _ middle parent _ _ _ _ _ _ event _ _ wakes _ _ tells =>
    have woken := rests holds (.of_stirs (wakes.stirs True))
    have told : I _ (middle.record (.woke parent event)) :=
      rests woken (.of_eq (.refl _) rfl rfl rfl)
    have notes := notes_handOver (middle.record (.woke parent event)) parent event
    exact rests told ⟨notes.stands, tells.sheds, fun _ => zombies_handOver, by rw [notes.rest]⟩
  | enlist kernel =>
    exact rests holds (.of_eq ⟨fun _ => id, fun _ => id, fun _ => id⟩ rfl rfl rfl)
  | link =>
    cases own.parent <;> exact rests holds (.of_eq (.refl _) rfl rfl rfl)
  | @born kernel process kin runnable =>
    subst kin
    have queued := rests (store holds rfl runnable)
      (.of_stirs (stirs_enqueueRunnablePid True _ process.pid process.assignedCpu))
    exact rests queued (.of_eq (.refl _) rfl rfl rfl)
  | drop found kin idle =>
    subst kin
    exact drop holds found idle
  | store kin runnable =>
    subst kin
    exact store holds rfl runnable
  | exits kernel status =>
    exact rests holds (.of_stirs (stirs_beginThreadGroupExit True kernel _ _ status))
  | @leaves kernel middle departs =>
    have noted : I (.away own) (kernel.record (.left own.serial)) :=
      rests holds (.of_eq (.refl _) rfl rfl rfl)
    have woken := rests noted (.of_stirs (departs.wakes.stirs True))
    have left := rests woken
      (.of_stirs (stirs_untrackThreadGroup True middle own.threadGroup own.pid))
    exact rests left (.of_eq ⟨fun _ => id, nofun, fun _ => id⟩ rfl rfl rfl)
  | lost | retire =>
    exact rests holds (.of_eq (.of_own rfl rfl) rfl rfl rfl)
  | zombie => exact bury holds
  | forget kernel leader =>
    rw [untrackChildLink_rest]
    exact rests holds (.of_eq (.of_own rfl rfl) rfl rfl rfl)
  | exec kernel sighand =>
    exact rests holds ⟨.of_map (resigned_shareActions _ _), .refl _, fun _ => id, rfl⟩

theorem Follows.nextPid (follows : Follows own losing one two before after) :
    after.nextPid = before.nextPid := by
  refine follows.rule (I := fun _ now => now.nextPid = before.nextPid) ?_ ?_ ?_ ?_ rfl
  · exact fun same rests => rests.nextPid.trans same
  · exact fun same _ _ => same
  · exact fun same _ _ => same
  · exact fun same => same

end Follows

/-! ## The processes that there are -/

inductive Live (flying : Option Kin) (kernel : Kernel μ) (pid : Pid) (kin : Kin) : Prop
  | stored {process : KernelProcess} (found : kernel.processes pid = some process)
      (same : process.kin = kin)
  | held {cpu : Nat} {process : KernelProcess}
      (held : (kernel.cpus cpu).activity.held = some process) (same : process.kin = kin)
      (number : kin.pid = pid)
  | flying (flies : flying = some kin) (number : kin.pid = pid)

namespace Live

open Kernel

variable {before after kernel : Kernel μ} {one two : Option Kin} {pid : Pid} {kin own : Kin}
  {process : KernelProcess}

theorem of_stands (stands : Stands before after) (flying : ∀ own, two = some own → one = some own)
    (lives : Live two after pid kin) : Live one before pid kin := by
  cases lives with
  | stored found same =>
    obtain ⟨former, known, kept, -⟩ := stands.table _ _ found
    exact .stored known (kept.trans same)
  | held held same number =>
    obtain ⟨former, holds, kept⟩ := (stands.goesOn _).exists_former held
    exact .held holds (kept.trans same) number
  | flying flies number => exact .flying (flying kin flies) number

theorem of_eq (lives : Live one after pid kin) (same : after.standing = before.standing) :
    Live one before pid kin :=
  lives.of_stands (.of_eq same) fun _ => id

/-- Nobody else comes when a process is put into the table. -/
theorem of_store (flies : one = some process.kin)
    (lives : Live none (kernel.store process.pid process) pid kin) :
    Live one kernel pid kin := by
  cases lives with
  | stored found same =>
    rcases found_store found with ⟨rfl, rfl⟩ | ⟨-, known⟩
    · exact .flying (flies.trans (congrArg some same)) (congrArg Kin.pid same).symm
    · exact .stored known same
  | held held same number => exact .held held same number
  | flying other => nomatch other

theorem of_drop (found : kernel.processes process.pid = some process)
    (lives : Live (some process.kin) (kernel.drop process.pid) pid kin) :
    Live none kernel pid kin := by
  cases lives with
  | stored present same => exact .stored (found_drop present).2 same
  | held held same number => exact .held held same number
  | flying flies number =>
    cases flies
    subst number
    exact .stored found rfl

/-- A processor takes up something else. -/
theorem of_turn {cpu : Nat} (lives : Live two (kernel.setActivity cpu activity) pid kin) :
    Live none kernel pid kin ∨ (two = some kin ∧ kin.pid = pid) ∨
      ∃ process, activity.held = some process ∧ process.kin = kin ∧ kin.pid = pid := by
  cases lives with
  | stored found same => exact .inl (.stored found same)
  | held held same number =>
    rcases held_setActivity held with ⟨-, holds⟩ | ⟨-, earlier⟩
    · exact .inr (.inr ⟨_, holds, same, number⟩)
    · exact .inl (.held earlier same number)
  | flying flies number => exact .inr (.inl ⟨flies, number⟩)

theorem mono (lives : Live two kernel pid kin) (flying : ∀ own, two = some own → one = some own) :
    Live one kernel pid kin :=
  lives.of_stands (.of_eq rfl) flying

theorem of_some (lives : Live (some own) kernel pid kin) :
    (kin = own ∧ pid = own.pid) ∨ Live none kernel pid kin := by
  cases lives with
  | stored found same => exact .inr (.stored found same)
  | held held same number => exact .inr (.held held same number)
  | flying flies number =>
    cases flies
    exact .inl ⟨rfl, number.symm⟩

theorem not_new {cpuCount : Nat} {spaces : Nat → μ} (pid : Pid) (kin : Kin) :
    ¬Live none (new cpuCount spaces) pid kin := by
  intro lives
  cases lives with
  | stored found | held found | flying found => nomatch found

/-- Who is there afterwards was there before. -/
theorem of_follows {losing : Prop} {one two : Flight}
    (follows : Follows own losing one two before after) (lives : Live two.own after pid kin) :
    Live one.own before pid kin := by
  have back : Live two.own after pid kin → Live one.own before pid kin := by
    refine follows.rule (I := fun flight now => Live flight.own now pid kin → _) ?_ ?_ ?_ ?_ id
    · exact fun back rests lives => back (lives.of_stands rests.stands rests.sheds.own)
    · exact fun back flies _ lives => back (lives.of_store flies)
    · exact fun back found _ lives => back (lives.of_drop found)
    · intro own _ _ back lives
      have sheds : (Flight.left own).Sheds (.dead own) := .of_own rfl rfl
      refine back (lives.of_stands ?_ sheds.own)
      exact .of_eq rfl
  exact back lives

end Live

/-! ## Processors -/

/-- Processors hold processes that are assigned to them, and that of a process in
flight is free. -/
structure Seats (flight : Flight) (kernel : Kernel μ) : Prop where
  seats : ∀ cpu process, (kernel.cpus cpu).activity.held = some process → process.assignedCpu = cpu
  free : ∀ own, flight.going = some own → (kernel.cpus own.assignedCpu).activity.held = none

namespace Seats

open Kernel

variable {before after kernel : Kernel μ} {cpu : Nat} {process : KernelProcess}

theorem of_stands (stands : Stands before after)
    (going : ∀ own, two.going = some own → one.going = some own) (seats : Seats one before) :
    Seats two after := by
  constructor
  · intro cpu process held
    obtain ⟨former, holds, kin⟩ := (stands.goesOn cpu).exists_former held
    exact (congrArg Kin.assignedCpu kin).symm.trans (seats.seats cpu former holds)
  · exact fun own goes => stands.not_held (seats.free own (going own goes))

theorem of_follows {own : Kin} {losing : Prop} (follows : Follows own losing one two before after)
    (seats : Seats one before) : Seats two after := by
  refine follows.rule (I := Seats) ?_ ?_ ?_ ?_ seats
  · exact fun seats rests => seats.of_stands rests.stands rests.sheds.going
  · exact fun seats _ _ => ⟨seats.seats, nofun⟩
  · intro former process seats _ idle
    refine ⟨seats.seats, ?_⟩
    rintro _ ⟨⟩
    exact congrArg Activity.held idle
  · exact fun seats => ⟨seats.seats, nofun⟩

theorem turn (seats : Seats one kernel)
    (held : ∀ process, activity.held = some process → process.assignedCpu = cpu)
    (free : ∀ own, two.going = some own → own.assignedCpu = cpu ∧ activity.held = none) :
    Seats two (kernel.setActivity cpu activity) := by
  constructor
  · intro index process holds
    rcases held_setActivity holds with ⟨rfl, now⟩ | ⟨-, earlier⟩
    · exact held process now
    · exact seats.seats index process earlier
  · intro own goes
    obtain ⟨rfl, nobody⟩ := free own goes
    rw [cpus_setActivity_self]
    exact nobody

/-- The processor goes on with a process that is assigned to it. -/
theorem keep {next : KernelProcess} {stage : Stage} (seats : Seats .home kernel)
    (held : (kernel.cpus cpu).activity.held = some process)
    (same : next.assignedCpu = process.assignedCpu) :
    Seats .home (kernel.setActivity cpu (.kernel next stage)) := by
  refine seats.turn ?_ nofun
  rintro _ ⟨⟩
  exact same.trans (seats.seats cpu process held)

theorem takeOff (seats : Seats .home kernel)
    (held : (kernel.cpus cpu).activity.held = some process) :
    Seats (.away process.kin) (kernel.setActivity cpu .leaving) := by
  refine seats.turn (fun _ none => nomatch none) ?_
  rintro _ ⟨⟩
  exact ⟨seats.seats cpu process held, rfl⟩

theorem land {work : DispatchWork}
    (seats : Seats (.away process.kin) kernel) (here : process.assignedCpu = cpu) :
    Seats .home (kernel.setActivity cpu (.dispatched work process)) := by
  refine seats.turn ?_ nofun
  rintro _ ⟨⟩
  exact here

end Seats

end AetherKernel.Sched
