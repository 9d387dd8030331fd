import AetherKernel.Sched.Places

/-!
# The threads of a group share a processor

A thread runs on the processor of the process that made it, so that all members
of a group are assigned to one processor, and at most one of them is running.
-/

namespace AetherKernel.Sched

open Lib Signal Std Activity

variable {μ : Type} {flying one two : Option Kin} {group pid : Pid} {home : Nat}
  {kernel before after : Kernel μ}

/-- A process with its group and the processor that it is assigned to. -/
inductive Member (flying : Option Kin) (kernel : Kernel μ) (pid group : Pid) (home : Nat) : Prop
  | stored {process : KernelProcess} (found : kernel.processes pid = some process)
      (known : process.threadGroup = group) (assigned : process.assignedCpu = home)
  | held {cpu : Nat} {process : KernelProcess}
      (held : (kernel.cpus cpu).activity.held = some process)
      (same : process.pid = pid) (known : process.threadGroup = group)
      (assigned : process.assignedCpu = home)
  | flying {own : Kin} (flies : flying = some own) (same : own.pid = pid)
      (known : own.threadGroup = group) (assigned : own.assignedCpu = home)

theorem member_iff : Member flying kernel pid group home ↔
      ∃ kin, Live flying kernel pid kin ∧ kin.threadGroup = group ∧ kin.assignedCpu = home := by
  constructor
  · intro member
    cases member with
    | stored found known assigned => exact ⟨_, .stored found rfl, known, assigned⟩
    | held held same known assigned => exact ⟨_, .held held rfl same, known, assigned⟩
    | flying flies same known assigned => exact ⟨_, .flying flies same, known, assigned⟩
  rintro ⟨kin, lives, rfl, rfl⟩
  cases lives with
  | stored found same =>
    subst same
    exact .stored found rfl rfl
  | held held same number =>
    subst same
    exact .held held number rfl rfl
  | flying flies number => exact .flying flies number rfl rfl

/-- Who belongs to a group is there. -/
theorem Member.mono (member : Member two after pid group home)
    (live : ∀ pid kin, Live two after pid kin → Live one before pid kin) :
    Member one before pid group home := by
  obtain ⟨kin, lives, known, assigned⟩ := member_iff.mp member
  exact member_iff.mpr ⟨kin, live pid kin lives, known, assigned⟩

theorem Member.of_stands (member : Member flying after pid group home)
    (stands : Stands before after) :
    Member flying before pid group home :=
  member.mono fun _ _ lives => lives.of_stands stands fun _ => id

/-- A processor takes up something else. -/
theorem Member.of_turn {cpu : Nat} {activity : Activity}
    (member : Member two (kernel.setActivity cpu activity) pid group home)
    (held : ∀ process, activity.held = some process →
      ∃ kin, Live one kernel process.pid kin ∧
        kin.threadGroup = process.threadGroup ∧ kin.assignedCpu = process.assignedCpu)
    (flying : ∀ own, two = some own → Live one kernel own.pid own) :
    Member one kernel pid group home := by
  obtain ⟨kin, lives, rfl, rfl⟩ := member_iff.mp member
  rcases lives.of_turn with lived | ⟨flies, rfl⟩ | ⟨process, holds, rfl, rfl⟩
  · exact member_iff.mpr ⟨kin, lived.mono nofun, rfl, rfl⟩
  · exact member_iff.mpr ⟨kin, flying kin flies, rfl, rfl⟩
  · exact member_iff.mpr (held process holds)

/-! ## What an update leaves as it is -/

section Follows

open Kernel

variable {own : Kin} {losing : Prop} {one two : Flight}

/-- A processor goes on as before while the manager is used for another. -/
theorem Follows.goesOn (follows : Follows own losing one two before after) (cpu : Nat) :
    GoesOn (before.cpus cpu).activity (after.cpus cpu).activity := by
  obtain ⟨change, signals, same⟩ := (traces_undisturbed cpu).follows follows
  rw [same]
  refine GoesOn.map (fun process => ?_) _
  rw [signals process]
  rfl

end Follows

/-! ## Homes -/

/-- The members of a group are assigned to one processor, where they run. -/
structure Housed (flight : Flight) (kernel : Kernel μ) : Prop where
  homes : ∀ pid other group home place, Member flight.own kernel pid group home →
    Member flight.own kernel other group place → home = place
  bound : ∀ pid group home, Member flight.own kernel pid group home → group < kernel.nextPid
  free : ∀ cpu group, (kernel.cpus cpu).activity.reserves = some group →
    ∀ pid home, ¬Member flight.own kernel pid group home
  seated : Seats flight kernel

namespace Housed

open Kernel

variable {one two : Flight} {cpu : Nat} {process : KernelProcess} {next : Pid}

theorem mono (housed : Housed one before) (seated : Seats two after)
    (members : ∀ pid group home, Member two.own after pid group home →
      Member one.own before pid group home) (nextPid : before.nextPid ≤ after.nextPid)
    (reserves : ∀ cpu group, (after.cpus cpu).activity.reserves = some group →
      (before.cpus cpu).activity.reserves = some group ∨
        ∀ pid home, ¬Member one.own before pid group home) : Housed two after := by
  constructor
  · exact fun pid other group home place first second =>
      housed.homes pid other group home place (members _ _ _ first) (members _ _ _ second)
  · exact fun pid group home member =>
      (housed.bound pid group home (members _ _ _ member)).trans_le nextPid
  · intro cpu group reserved pid home member
    rcases reserves cpu group reserved with earlier | unknown
    · exact housed.free cpu group earlier pid home (members _ _ _ member)
    · exact unknown pid home (members _ _ _ member)
  · exact seated

theorem of_follows {own : Kin} {losing : Prop} (follows : Follows own losing one two before after)
    (housed : Housed one before) : Housed two after :=
  housed.mono (housed.seated.of_follows follows)
    (fun _ _ _ member => member.mono fun _ _ => .of_follows follows) follows.nextPid.ge
    fun cpu group reserved => .inl ((follows.goesOn cpu).reserves group reserved)

theorem of_stands (housed : Housed one before) (stands : Stands before after)
    (nextPid : before.nextPid ≤ after.nextPid) : Housed one after :=
  housed.mono (housed.seated.of_stands stands fun _ => id)
    (fun _ _ _ member => member.of_stands stands) nextPid
    fun cpu group reserved => .inl ((stands.goesOn cpu).reserves group reserved)

theorem of_stirs {calm : Prop} (stirs : Stirs calm before after) (housed : Housed one before) :
    Housed one after :=
  housed.of_stands stirs.stands stirs.nextPid.ge

/-- The process in flight comes into the table. -/
theorem store (housed : Housed one kernel) (flies : one.own = some process.kin) :
    Housed .home (kernel.store process.pid process) :=
  housed.mono ⟨housed.seated.seats, nofun⟩
    (fun _ _ _ member => member.mono fun _ _ lives => lives.of_store flies) (Nat.le_refl _)
    fun _ _ => .inl

/-- A processor takes up something else. -/
theorem turn {activity : Activity} (housed : Housed one kernel)
    (seated : Seats two (kernel.setActivity cpu activity))
    (held : ∀ process, activity.held = some process →
      ∃ kin, Live one.own kernel process.pid kin ∧
        kin.threadGroup = process.threadGroup ∧ kin.assignedCpu = process.assignedCpu)
    (own : ∀ own, two.own = some own → Live one.own kernel own.pid own)
    (reserves : ∀ group, activity.reserves = some group →
      (kernel.cpus cpu).activity.reserves = some group ∨
        ∀ pid home, ¬Member one.own kernel pid group home) :
    Housed two (kernel.setActivity cpu activity) := by
  refine housed.mono seated (fun _ _ _ member => member.of_turn held own) (Nat.le_refl _) ?_
  intro index group reserved
  rcases reserves_setActivity reserved with ⟨rfl, now⟩ | ⟨-, earlier⟩
  · exact reserves group now
  · exact .inl earlier

variable (housed : Housed .home kernel)
include housed

theorem takeOff (held : (kernel.cpus cpu).activity.held = some process) :
    Housed (.away process.kin) (kernel.setActivity cpu .leaving) := by
  refine housed.turn (housed.seated.takeOff held) (fun _ none => nomatch none) ?_ nofun
  rintro _ ⟨⟩
  exact .held held rfl rfl

omit housed in
theorem land {work : DispatchWork}
    (housed : Housed (.away process.kin) kernel) (here : process.assignedCpu = cpu) :
    Housed .home (kernel.setActivity cpu (.dispatched work process)) := by
  refine housed.turn (housed.seated.land here) ?_ (nofun) nofun
  rintro _ ⟨⟩
  exact ⟨process.kin, .flying rfl rfl, rfl, rfl⟩

/-- The processor goes on with a process of the same group. -/
theorem keep {next : KernelProcess} {stage : Stage}
    (held : (kernel.cpus cpu).activity.held = some process)
    (identity : next.identity = process.identity)
    (assigned : next.assignedCpu = process.assignedCpu)
    (reserves : ∀ group, stage.reserves = some group →
      ∀ pid home, ¬Member none kernel pid group home) :
    Housed .home (kernel.setActivity cpu (.kernel next stage)) := by
  refine housed.turn (housed.seated.keep held assigned) ?_ (nofun)
    fun group reserved => .inr (reserves group reserved)
  rintro _ ⟨⟩
  rw [identity, assigned]
  exact ⟨process.kin, .held held rfl rfl, rfl, rfl⟩

/-- A process is made whose group nobody belongs to, or which shares its group
and its processor with the process that makes it. -/
theorem bear {child : Kin} (bound : child.threadGroup < kernel.nextPid)
    (homes : ∀ pid home, Member none kernel pid child.threadGroup home → home = child.assignedCpu)
    (free : ∀ cpu, (kernel.cpus cpu).activity.reserves ≠ some child.threadGroup) :
    Housed (.unborn child) kernel := by
  have old {pid group : Pid} {home : Nat}
      (member : Member (Flight.unborn child).own kernel pid group home) :
      Member none kernel pid group home ∨ group = child.threadGroup ∧ home = child.assignedCpu := by
    obtain ⟨kin, lives, rfl, rfl⟩ := member_iff.mp member
    rcases lives.of_some with ⟨rfl, -⟩ | lived
    · exact .inr ⟨rfl, rfl⟩
    · exact .inl (member_iff.mpr ⟨kin, lived, rfl, rfl⟩)
  constructor
  · intro pid other group home place first second
    rcases old first with first | ⟨rfl, rfl⟩
    · rcases old second with second | ⟨rfl, rfl⟩
      · exact housed.homes pid other group home place first second
      · exact homes pid home first
    · rcases old second with second | ⟨-, rfl⟩
      · exact (homes other place second).symm
      · rfl
  · intro pid group home member
    rcases old member with earlier | ⟨rfl, -⟩
    · exact housed.bound pid group home earlier
    · exact bound
  · intro cpu group reserved pid home member
    rcases old member with earlier | ⟨rfl, -⟩
    · exact housed.free cpu group reserved pid home earlier
    · exact free cpu reserved
  · exact ⟨housed.seated.seats, nofun⟩

theorem insert {params : CloneParams} (task : Task)
    (assignedCpu sighand : Nat) (places : Places .home kernel) (valid : params.validate)
    (activity : (kernel.cpus cpu).activity = .kernel process (.cloning pid)) :
    Housed (.unborn (cloneChild kernel.journal.length process params pid task assignedCpu
      sighand).kin) (kernel.setActivity cpu (cloned process params kernel.journal.length pid)) := by
  have held := congrArg held activity
  have reserved := congrArg reserves activity
  obtain ⟨later, stage, same, identity, assigned, idle⟩ :=
    cloned_eq process params kernel.journal.length pid
  rw [same]
  have own : Member none kernel process.pid process.threadGroup
    process.assignedCpu := .held held rfl rfl rfl
  have turned : Housed .home (kernel.setActivity cpu (.kernel later stage)) :=
    housed.keep held identity assigned fun group reserves => nomatch idle.symm.trans reserves
  have earlier {other group : Pid} {home : Nat}
      (member : Member none (kernel.setActivity cpu (.kernel later stage)) other group home) :
      Member none kernel other group home := by
    refine member.of_turn ?_ nofun
    rintro _ ⟨⟩
    rw [identity, assigned]
    exact member_iff.mp own
  have reserves (index : Nat) (group : Pid)
      (again : ((kernel.setActivity cpu (.kernel later stage)).cpus index).activity.reserves =
        some group) : index ≠ cpu ∧ (kernel.cpus index).activity.reserves = some group := by
    rcases reserves_setActivity again with ⟨-, none⟩ | earlier
    · nomatch idle.symm.trans none
    · exact earlier
  cases thread : params.thread with
  | true =>
    have sameGroup : (cloneChild kernel.journal.length process params pid task assignedCpu
        sighand).kin.threadGroup = process.threadGroup := if_pos thread
    have sameCpu : (cloneChild kernel.journal.length process params pid task assignedCpu
        sighand).kin.assignedCpu = process.assignedCpu :=
      if_pos (params.sharesVm_of_validate valid (.inl thread))
    refine turned.bear ?_ ?_ ?_
    · rw [sameGroup]
      exact housed.bound _ _ _ own
    · intro other home member
      rw [sameGroup] at member
      rw [sameCpu]
      exact housed.homes _ _ _ _ _ (earlier member) own
    · intro index again
      rw [sameGroup] at again
      exact housed.free index _ (reserves index _ again).2 _ _ own
  | false =>
    have ownGroup : (cloneChild kernel.journal.length process params pid task assignedCpu
        sighand).kin.threadGroup = pid := if_neg (Bool.eq_false_iff.mp thread)
    obtain ⟨below, -, single⟩ := places.reserved cpu pid reserved
    refine turned.bear ?_ ?_ ?_
    · rw [ownGroup]
      exact below
    · intro other home member
      rw [ownGroup] at member
      exact absurd (earlier member) (housed.free cpu pid reserved other home)
    · intro index again
      rw [ownGroup] at again
      obtain ⟨apart, still⟩ := reserves index pid again
      exact apart (single index still)

theorem count (grows : kernel.nextPid ≤ next) : Housed .home { kernel with nextPid := next } :=
  housed.of_stands (.of_eq rfl) grows

/-- Nobody belongs to a group with the next pid. -/
theorem fresh (pid : Pid) (home : Nat) : ¬Member none kernel pid kernel.nextPid home :=
  fun member => (housed.bound pid _ home member).false

theorem spawn (parent : Option Pid) (task : Task) (assignedCpu sighand : Nat)
    (places : Places .home kernel) (below : kernel.nextPid < 2 ^ 32 - 1) :
    Housed (.unborn (kernel.spawned parent task assignedCpu sighand).kin)
      { kernel with nextPid := min (kernel.nextPid + 1) (2 ^ 32 - 1) } := by
  have grows := lt_nextPid below
  refine (housed.count grows.le).bear grows (fun pid home member => ?_) places.fresh.2
  have earlier : Member none kernel pid kernel.nextPid home :=
    member.mono fun _ _ lives => lives.of_eq rfl
  exact absurd earlier (housed.fresh pid home)

theorem allocate {requested : Option Pid} (places : Places .home kernel)
    (distinct : kernel.Distinct (.allocate cpu requested, []))
    (unknown : ∀ wanted, requested = some wanted →
      ∀ member home, ¬Member none kernel member wanted home)
    (activity : (kernel.cpus cpu).activity = .kernel process .running)
    (allocated : kernel.allocatePid requested = (.ok pid, { kernel with nextPid := next })) :
    Housed .home
      ({ kernel with nextPid := next }.setActivity cpu (.kernel process (.cloning pid))) := by
  obtain ⟨grows, -⟩ := places.of_allocated distinct allocated
  have held := congrArg held activity
  refine (housed.count grows).keep held rfl rfl ?_
  rintro _ ⟨⟩ member home belongs
  have earlier : Member none kernel member pid home :=
    belongs.mono fun _ _ lives => lives.of_eq rfl
  rcases choosePid_ok (allocatePid_ok allocated) with ⟨-, rfl, -⟩ | ⟨asked, -⟩
  · exact housed.fresh member home earlier
  · exact unknown pid asked member home earlier

omit housed in
theorem start (cpuCount : Nat) (spaces : Nat → μ) : Housed .home (new cpuCount spaces) := by
  have nobody (pid group : Pid) (home : Nat) :
      ¬Member none (new cpuCount spaces) pid group home := by
    intro member
    obtain ⟨kin, lives, -⟩ := member_iff.mp member
    exact Live.not_new pid kin lives
  exact ⟨fun pid _ group home _ member => absurd member (nobody pid group home),
    fun pid group home member => absurd member (nobody pid group home),
    nofun,
    fun _ _ held => (nomatch held), nofun⟩

end Housed

/-! ## Processors -/

namespace Seats

open Kernel

variable (seats : Seats .home kernel)
include seats

/-- The block of a call is recorded. -/
theorem of_blocks {step : Step μ} (blocks : Blocks kernel step after) : Seats .home after := by
  obtain ⟨cpu, ready, process, block, context, timers, futexes, -, activity, rfl, -⟩ := blocks
  exact ⟨(seats.takeOff (congrArg held activity)).seats, nofun⟩

theorem keeps [UserSpaces μ] (step : Step μ) : Keeps True Seats kernel step where
  follows _ _ _ _ _ := of_follows
  shows _ _ := by
    refine seats.of_stands ?_ fun _ => id
    exact .of_eq (Prod.ext rfl (funext (activity_setCurrent _ _ _)))
  passes _ _ _ _ passes := of_stands passes.stands fun _ => id
  resigns _ resigned := seats.of_stands (.of_map resigned) fun _ => id
  regroups _ regroups := seats.of_stands regroups.stands fun _ => id
  looks _ _ _ _ _ _ := seats.of_stands (notes_waitChildEvent _ _ _ _ _).stands fun _ => id
  allocates _ _ _ next _ _ activity _ := by
    have counted : Seats .home { kernel with nextPid := next } := ⟨seats.seats, nofun⟩
    exact counted.keep (congrArg held activity) rfl
  goesOn _ _ _ goes := of_stands (.of_turn goes) fun _ => id
  takeOff _ _ := seats.takeOff
  land _ _ _ _ _ here _ flown := flown.land here
  insert _ process pid params _ _ _ _ activity _ := by
    obtain ⟨later, stage, same, -, assigned, -⟩ :=
      cloned_eq process params kernel.journal.length pid
    rw [same]
    exact ⟨(seats.keep (congrArg held activity) assigned).seats, nofun⟩
  spawn _ _ _ _ _ := ⟨seats.seats, nofun⟩
  execve _ _ _ _ activity := by
    refine kept_of_execve activity ⟨seats.seats, nofun⟩ (fun _ _ wakes => ?_) ?_
    · exact of_stands (wakes.stirs True).stands fun _ => id
    · exact fun _ held holds => holds.keep held rfl

end Seats

namespace Kernel

theorem seats_moves [UserSpaces μ] {step : Step μ} (sound : Sound kernel)
    (seats : Seats .home kernel) (moves : Moves kernel step after) : Seats .home after := by
  rcases (seats.keeps step).moves sound.keyed sound.running (fun _ => trivial) seats moves with
    still | blocks
  · exact still
  · exact seats.of_blocks blocks

/-- What a processor holds is running and assigned to it, and only processors that
there are hold something. -/
theorem processors_hold_their_own [UserSpaces μ] {cpuCount : Nat} {spaces : Nat → μ}
    {labels : List (Step μ × List Event)} {kernel : Kernel μ}
    (run : Run Performs (new cpuCount spaces) labels kernel) (cpu : Nat) (process : KernelProcess)
    (held : (kernel.cpus cpu).activity.held = some process) :
    cpu < kernel.cpuCount ∧ process.assignedCpu = cpu ∧ process.state = .running := by
  obtain ⟨sound, seats⟩ := invariant_of_run (P := Seats .home)
    (run.mono fun _ _ _ performs => ⟨trivial, performs⟩)
    (fun sound seats _ _ moves => seats_moves sound seats moves)
    ⟨fun _ _ held => (nomatch held), nofun⟩
  refine ⟨?_, seats.seats cpu process held, sound.running cpu process held⟩
  by_contra beyond
  rw [sound.outside cpu (Nat.le_of_not_lt beyond)] at held
  cases held

theorem processors_hold_their_own_parent : ∃ labels last process,
      Run Performs (blank 2) labels last ∧ labels.map Prod.fst = callSteps ∧
      (last.cpus 0).activity.held = some process ∧ process.assignedCpu = 0 := by
  have found : ((blank 2).performAll callSteps).map
      (fun last => (last.cpus 0).activity.held.isSome) = some true := rfl
  obtain ⟨labels, last, same, run, holds⟩ := exists_run found
  obtain ⟨process, held⟩ := Option.isSome_iff_exists.mp holds
  exact ⟨labels, last, process, run, same, held, (processors_hold_their_own run 0 process held).2.1⟩

end Kernel

end AetherKernel.Sched
