import AetherKernel.Sched.Stands

/-!
# One place for each pid

A process is in the table, with a processor, or a zombie.  Within a step it may
also be in flight: out of the table and not yet with a processor.  As long as
new pids are new, no pid is in two places.  This needs nothing of what else
becomes of a process: it may be stopped and lost.
-/

namespace AetherKernel.Sched

open Lib Signal Std Option Activity Flight

inductive Place where
  | table
  | cpu (index : Nat)
  | zombie
  | flight
  deriving DecidableEq

variable {μ : Type} {one two : Flight} {own : Kin} {kernel : Kernel μ}

/-- `flying` names the process that the current step has taken out. -/
def At (flying : Option Pid) (kernel : Kernel μ) (pid : Pid) : Place → Prop
  | .table => (kernel.processes pid).isSome
  | .cpu index => ∃ process, (kernel.cpus index).activity.held = some process ∧
      process.pid = pid
  | .zombie => (kernel.zombies pid).isSome
  | .flight => flying = some pid

section Stays

variable {flying : Option Pid} {before after : Kernel μ}

theorem at_iff_of_eq (table : ∀ pid, (after.processes pid).isSome = (before.processes pid).isSome)
    (activity : ∀ cpu, (after.cpus cpu).activity = (before.cpus cpu).activity)
    (zombies : after.zombies = before.zombies) (pid : Pid) (place : Place) :
    At flying after pid place ↔ At flying before pid place := by
  cases place with
  | table =>
    simp only [At]
    rw [table]
  | cpu index =>
    simp only [At]
    rw [activity]
  | zombie =>
    simp only [At]
    rw [zombies]
  | flight => exact Iff.rfl

theorem Stirs.at_iff {calm : Prop} (stirs : Stirs calm before after) :
    ∀ pid place, At flying after pid place ↔ At flying before pid place :=
  at_iff_of_eq stirs.isSome_processes stirs.activity stirs.zombies

theorem Kernel.Passes.at_iff {cpu : Nat} {taken : Option Pid}
    (passes : Kernel.Passes cpu taken before after) :
    ∀ pid place, At flying after pid place ↔ At flying before pid place := by
  refine at_iff_of_eq (fun pid => ?_) passes.activity passes.zombies
  rcases passes.processes pid with ⟨same, -⟩ | ⟨process, found, -, -, stored, -⟩
  · rw [same]
  · rw [found, stored]
    rfl

theorem Kernel.Regroups.at_iff (regroups : Kernel.Regroups before after) :
    ∀ pid place, At flying after pid place ↔ At flying before pid place := by
  refine at_iff_of_eq (fun pid => ?_) (fun cpu => ?_) ?_
  · have one := regroups.processes pid
    generalize before.processes pid = old at one ⊢
    generalize after.processes pid = new at one ⊢
    cases one <;> rfl
  all_goals rw [regroups.rest]

theorem at_mapProcesses_iff {change : KernelProcess → KernelProcess}
    (kin : ∀ process, (change process).kin = process.kin) (pid : Pid) (place : Place) :
    At flying (before.mapProcesses change) pid place ↔ At flying before pid place := by
  have same (process : KernelProcess) : (change process).pid = process.pid :=
    congrArg Kin.pid (kin process)
  have held (activity : Activity) : (activity.map change).held = activity.held.map change := by
    cases activity <;> rfl
  cases place with
  | table => simp [At, Kernel.mapProcesses]
  | cpu index => simp [At, Kernel.mapProcesses, held, same]
  | zombie | flight => exact Iff.rfl

end Stays

theorem Telling.pid {parent : Pid}
    {event : ChildEvent} (tells : Telling own kernel parent one two event) : two.pid = one.pid := by
  cases tells <;> rfl

/-- No pid is in two places, and the pids of new children are nowhere. -/
structure Places (flight : Flight) (kernel : Kernel μ) : Prop where
  keyed : Kernel.Keyed kernel
  unique : ∀ pid a b, At flight.pid kernel pid a → At flight.pid kernel pid b → a = b
  bounded : ∀ pid place, At flight.pid kernel pid place → pid < kernel.nextPid
  reserved : ∀ cpu pid, (kernel.cpus cpu).activity.reserves = some pid → pid < kernel.nextPid ∧
    (∀ place, ¬At flight.pid kernel pid place) ∧
    ∀ other, (kernel.cpus other).activity.reserves = some pid → other = cpu

namespace Places

open Kernel

variable {before after : Kernel μ} (places : Places one before)
include places

section Move

variable (keyed : Keyed after)
  (reserves : ∀ cpu pid, (after.cpus cpu).activity.reserves = some pid →
    (before.cpus cpu).activity.reserves = some pid) (nextPid : before.nextPid ≤ after.nextPid)
include keyed reserves nextPid

/-- One process has come to another place, or is new. -/
theorem come (own : Pid) (goal : Place)
    (comes : ∀ place, At two.pid after own place → place = goal ∧ own < before.nextPid ∧
      ∀ cpu, (before.cpus cpu).activity.reserves ≠ some own)
    (still : ∀ pid place, pid ≠ own → At two.pid after pid place → At one.pid before pid place) :
    Places two after := by
  constructor
  · exact keyed
  · intro pid a b first second
    by_cases same : pid = own
    · subst same
      exact (comes a first).1.trans (comes b second).1.symm
    · exact places.unique pid a b (still pid a same first) (still pid b same second)
  · intro pid place here
    refine Nat.lt_of_lt_of_le ?_ nextPid
    by_cases same : pid = own
    · subst same
      exact (comes place here).2.1
    · exact places.bounded pid place (still pid place same here)
  · intro cpu pid reserved
    obtain ⟨bound, nowhere, single⟩ := places.reserved cpu pid (reserves cpu pid reserved)
    refine ⟨bound.trans_le nextPid, fun place here => ?_,
      fun other second => single other (reserves other pid second)⟩
    by_cases same : pid = own
    · subst same
      exact (comes place here).2.2 cpu (reserves cpu pid reserved)
    · exact nowhere place (still pid place same here)

/-- Places are left; the next pid has none. -/
theorem mono (still : ∀ pid place, At two.pid after pid place → At one.pid before pid place) :
    Places two after :=
  places.come keyed reserves nextPid before.nextPid .table
    (fun place here => (places.bounded _ place (still _ place here)).false.elim)
    (fun pid place _ => still pid place)

theorem move {own : Pid} {source : Place} (goal : Place) (was : At one.pid before own source)
    (moved : ∀ pid place, At two.pid after pid place →
      pid = own ∧ place = goal ∨ (pid = own → place ≠ source) ∧ At one.pid before pid place) :
    Places two after := by
  refine places.come keyed reserves nextPid own goal (fun place here => ?_)
    (fun pid place apart here => ((moved pid place here).resolve_left (apart ·.1)).2)
  rcases moved own place here with ⟨-, same⟩ | ⟨away, earlier⟩
  · exact ⟨same, places.bounded own source was,
      fun cpu reserved => (places.reserved cpu own reserved).2.1 source was⟩
  · exact absurd (places.unique own place source earlier was) (away rfl)

end Move

/-- Nobody has moved, and zombies are gone. -/
theorem of_stands (stands : Stands before after)
    (zombies : ∀ pid, after.zombies pid ≠ none → before.zombies pid ≠ none)
    (nextPid : before.nextPid ≤ after.nextPid)
    (flying : ∀ pid, two.pid = some pid → one.pid = some pid) : Places two after := by
  refine places.mono (stands.keyed places.keyed) (fun cpu => (stands.goesOn cpu).reserves) nextPid
    fun pid place here => ?_
  cases place with
  | table =>
    obtain ⟨process, found⟩ := isSome_iff_exists.mp here
    obtain ⟨former, known, -⟩ := stands.table pid process found
    exact isSome_iff_exists.mpr ⟨former, known⟩
  | cpu index =>
    obtain ⟨process, held, same⟩ := here
    obtain ⟨former, holds, kin⟩ := (stands.goesOn index).exists_former held
    exact ⟨former, holds, (congrArg Kin.pid kin).trans same⟩
  | zombie => exact isSome_iff_ne_none.mpr (zombies pid (isSome_iff_ne_none.mp here))
  | flight => exact flying pid here

theorem stay (stands : Stands before after)
    (zombies : after.zombies = before.zombies) (nextPid : after.nextPid = before.nextPid) :
    Places one after :=
  places.of_stands stands (fun _ => zombies ▸ id) nextPid.ge fun _ => id

theorem of_stirs {calm : Prop} (stirs : Stirs calm before after) : Places one after :=
  places.stay stirs.stands stirs.zombies stirs.nextPid

theorem of_same (flying : ∀ pid, two.pid = some pid → one.pid = some pid)
    (same : after.standing = before.standing) (zombies : after.zombies = before.zombies)
    (nextPid : before.nextPid = after.nextPid) : Places two after :=
  places.of_stands (.of_eq same) (fun _ => zombies ▸ id) nextPid.le flying

theorem of_notes (notes : Notes before after)
    (zombies : ∀ pid, after.zombies pid ≠ none → before.zombies pid ≠ none)
    (flying : ∀ pid, two.pid = some pid → one.pid = some pid) : Places two after := by
  refine places.of_stands notes.stands zombies ?_ flying
  rw [notes.rest]

/-- The process in flight comes into the table. -/
theorem store {process : KernelProcess} (flies : one.own = some process.kin) :
    Places .home (before.store process.pid process) := by
  have was : At one.pid before process.pid .flight := congrArg (Option.map Kin.pid) flies
  refine places.move ?_ (fun _ _ => id) (Nat.le_refl _) .table was fun pid place here => ?_
  · intro pid stored found
    rcases found_store found with ⟨rfl, rfl⟩ | ⟨-, known⟩
    · rfl
    · exact places.keyed pid stored known
  cases place with
  | table =>
    obtain ⟨stored, found⟩ := isSome_iff_exists.mp here
    rcases found_store found with ⟨rfl, -⟩ | ⟨-, known⟩
    · exact .inl ⟨rfl, rfl⟩
    · exact .inr ⟨fun _ => nofun, isSome_iff_exists.mpr ⟨stored, known⟩⟩
  | cpu | zombie => exact .inr ⟨fun _ => nofun, here⟩
  | flight => nomatch here

omit places

theorem drop (places : Places .home before)
    (found : (before.processes own.pid).isSome) : Places (.away own) (before.drop own.pid) := by
  have was : At home.pid before own.pid .table := found
  refine places.move ?_ (fun _ _ => id) (Nat.le_refl _) .flight was fun pid place here => ?_
  · exact fun pid stored found => places.keyed pid stored (found_drop found).2
  cases place with
  | table =>
    obtain ⟨stored, found⟩ := isSome_iff_exists.mp here
    obtain ⟨apart, known⟩ := found_drop found
    exact .inr ⟨fun same => absurd same apart, isSome_iff_exists.mpr ⟨stored, known⟩⟩
  | cpu | zombie => exact .inr ⟨fun _ => nofun, here⟩
  | flight => exact .inl ⟨(Option.some.inj here).symm, rfl⟩

theorem bury {zombie : ZombieProcess} (places : Places (.left own) before) : Places (.dead own)
      { before with zombies := Function.update before.zombies own.pid (some zombie) } := by
  have was : At (left own).pid before own.pid .flight := rfl
  refine places.move places.keyed (fun _ _ => id) (Nat.le_refl _) .zombie was
    fun pid place here => ?_
  cases place with
  | table | cpu => exact .inr ⟨fun _ => nofun, here⟩
  | zombie =>
    by_cases own : pid = own.pid
    · exact .inl ⟨own, rfl⟩
    · simp only [At, Function.update_of_ne own] at here
      exact .inr ⟨fun _ => nofun, here⟩
  | flight => nomatch here

end Places

theorem places_follows {losing : Prop} {before after : Kernel μ}
    (follows : Follows own losing one two before after) (places : Places one before) :
    Places two after := by
  refine follows.rule (I := Places) ?_ ?_ ?_ ?_ places
  · exact fun places rests =>
      places.of_stands rests.stands rests.zombies rests.nextPid.ge rests.sheds.pid
  · exact fun places flies _ => places.store flies
  · exact fun places found _ => places.drop (by rw [KernelProcess.kin, found]; rfl)
  · exact fun places => places.bury

/-! ## Steps -/

/-- New pids are new: there are some left, and one that is asked for is not the
pid of a process on a processor, or reserved for another child. -/
def Kernel.Distinct (kernel : Kernel μ) (label : Step μ × List Event) : Prop :=
  match label.1 with
  | .spawn _ _ _ _ => kernel.nextPid < 2 ^ 32 - 1
  | .allocate _ requested =>
    requested.getD kernel.nextPid < 2 ^ 32 - 1 ∧ ∀ pid, requested = some pid → ∀ cpu,
      (∀ process, (kernel.cpus cpu).activity.held = some process → process.pid ≠ pid) ∧
        (kernel.cpus cpu).activity.reserves ≠ some pid
  | _ => True

/-- A check that is enough for pids to be new. -/
def Kernel.distinguishes (kernel : Kernel μ) : Step μ → Bool
  | .spawn _ _ _ _ | .allocate _ none => kernel.nextPid < 2 ^ 32 - 1
  | .allocate _ (some _) => false
  | _ => true

theorem Kernel.distinct_of_distinguishes {step : Step μ}
    (passed : kernel.distinguishes step) (events : List Event) :
    kernel.Distinct (step, events) := by
  cases step with
  | spawn =>
    have below : kernel.nextPid < 2 ^ 32 - 1 := of_decide_eq_true passed
    exact below
  | allocate cpu requested =>
    cases requested with
    | none => exact ⟨of_decide_eq_true passed, nofun⟩
    | some pid => nomatch passed
  | _ => trivial

namespace Places

open Kernel

variable {after : Kernel μ} {cpu : Nat} {activity : Activity} {process : KernelProcess} {pid : Pid}

theorem at_setActivity {flying : Option Pid} {place : Place}
    (here : At flying (kernel.setActivity cpu activity) pid place) :
    (place = .cpu cpu ∧ ∃ process, activity.held = some process ∧ process.pid = pid) ∨
      place ≠ .cpu cpu ∧ At flying kernel pid place := by
  cases place with
  | cpu index =>
    obtain ⟨process, held, same⟩ := here
    rcases held_setActivity held with ⟨rfl, now⟩ | ⟨apart, earlier⟩
    · exact .inl ⟨rfl, process, now, same⟩
    · exact .inr ⟨fun same => apart (Place.cpu.inj same), process, earlier, same⟩
  | table | zombie | flight => exact .inr ⟨nofun, here⟩

/-- A processor goes on with a process of the same pid. -/
theorem turn {flight : Flight} (places : Places flight kernel)
    (held : ∀ process, activity.held = some process →
      ∃ former, (kernel.cpus cpu).activity.held = some former ∧
        former.pid = process.pid) (reserves : ∀ pid, activity.reserves = some pid →
      (kernel.cpus cpu).activity.reserves = some pid) :
    Places flight (kernel.setActivity cpu activity) := by
  refine places.mono places.keyed (fun index pid reserved => ?_) (Nat.le_refl _)
    fun pid place here => ?_
  · rcases reserves_setActivity reserved with ⟨rfl, now⟩ | ⟨-, earlier⟩
    · exact reserves pid now
    · exact earlier
  · rcases at_setActivity here with ⟨rfl, process, holds, rfl⟩ | ⟨-, earlier⟩
    · exact held process holds
    · exact earlier

theorem land {work : DispatchWork} (places : Places (.away process.kin) kernel) :
    Places .home (kernel.setActivity cpu (.dispatched work process)) := by
  have was : At (away process.kin).pid kernel process.kin.pid .flight := rfl
  refine places.move places.keyed (fun index pid reserved => ?_) (Nat.le_refl _) (.cpu cpu) was
    fun pid place here => ?_
  · rcases reserves_setActivity reserved with ⟨-, none⟩ | ⟨-, earlier⟩
    · nomatch none
    · exact earlier
  · rcases at_setActivity here with ⟨rfl, _, holds, rfl⟩ | ⟨-, earlier⟩
    · cases holds
      exact .inl ⟨rfl, rfl⟩
    cases place with
    | flight => nomatch earlier
    | table | zombie | cpu => exact .inr ⟨fun _ => nofun, earlier⟩

variable (places : Places .home kernel) {next : Pid}

include places

theorem takeOff (held : (kernel.cpus cpu).activity.held = some process) :
    Places (.away process.kin) (kernel.setActivity cpu .leaving) := by
  have was : At home.pid kernel process.kin.pid (.cpu cpu) := ⟨process, held, rfl⟩
  refine places.move places.keyed (fun index pid reserved => ?_) (Nat.le_refl _) .flight was
    fun pid place here => ?_
  · rcases reserves_setActivity reserved with ⟨-, none⟩ | ⟨-, earlier⟩
    · nomatch none
    · exact earlier
  · rcases at_setActivity here with ⟨-, _, none, -⟩ | ⟨apart, now⟩
    · nomatch none
    cases place with
    | flight => exact .inl ⟨(Option.some.inj now).symm, rfl⟩
    | table | zombie | cpu => exact .inr ⟨fun _ => apart, now⟩

theorem of_blocks {step : Step μ} (blocks : Blocks kernel step after) :
    Places .home after := by
  obtain ⟨cpu, ready, process, block, context, timers, futexes, -, activity, rfl, -⟩ := blocks
  have flown := places.takeOff (congrArg held activity)
  have aside : Places (.away process.kin)
      { (kernel.setActivity cpu .leaving).disarmFutexWait process.pid with
        blockedTimers := timers, blockedFutexes := futexes } :=
    flown.of_same (fun _ => id) rfl rfl rfl
  have flies : (away process.kin).own = some { process with
        kernelContext := some context, wakeResult := none, state := .blocked block }.kin := rfl
  exact aside.store flies

/-- A process is made whose pid is nowhere. -/
theorem bear {child : Kin} (nowhere : ∀ place, ¬At home.pid kernel child.pid place)
    (bound : child.pid < kernel.nextPid)
    (free : ∀ cpu, (kernel.cpus cpu).activity.reserves ≠ some child.pid) :
    Places (.unborn child) kernel := by
  refine places.come places.keyed (fun _ _ => id) (Nat.le_refl _) child.pid .flight
    (fun place here => ⟨?_, bound, free⟩) fun pid place apart here => ?_
  · by_contra apart
    refine nowhere place ?_
    cases place with
    | table | cpu | zombie => exact here
    | flight => exact absurd rfl apart
  · cases place with
    | table | cpu | zombie => exact here
    | flight => exact absurd (Option.some.inj here).symm apart

/-- A pid is reserved for a child. -/
theorem reserve (held : (kernel.cpus cpu).activity.held = some process)
    (nowhere : ∀ place, ¬At home.pid kernel pid place) (bound : pid < kernel.nextPid)
    (free : ∀ cpu, (kernel.cpus cpu).activity.reserves ≠ some pid) :
    Places .home (kernel.setActivity cpu (.kernel process (.cloning pid))) := by
  have still {other : Pid} {place : Place}
      (here : At home.pid (kernel.setActivity cpu (.kernel process (.cloning pid))) other
        place) : At home.pid kernel other place := by
    rcases at_setActivity here with ⟨rfl, _, ⟨⟩, rfl⟩ | ⟨-, earlier⟩
    · exact ⟨process, held, rfl⟩
    · exact earlier
  have reserves {index : Nat} {other : Pid}
      (reserved : ((kernel.setActivity cpu (.kernel process (.cloning pid))).cpus
        index).activity.reserves = some other) :
      index = cpu ∧ other = pid ∨ (kernel.cpus index).activity.reserves = some other := by
    rcases reserves_setActivity reserved with ⟨rfl, ⟨⟩⟩ | ⟨-, earlier⟩
    · exact .inl ⟨rfl, rfl⟩
    · exact .inr earlier
  constructor
  · exact places.keyed
  · exact fun other a b first second => places.unique other a b (still first) (still second)
  · exact fun other place here => places.bounded other place (still here)
  intro index other reserved
  rcases reserves reserved with ⟨rfl, rfl⟩ | earlier
  · refine ⟨bound, fun place here => nowhere place (still here), fun second again => ?_⟩
    rcases reserves again with ⟨same, -⟩ | before
    · exact same
    · exact absurd before (free second)
  · obtain ⟨below, absent, single⟩ := places.reserved index other earlier
    refine ⟨below, fun place here => absent place (still here), fun second again => ?_⟩
    rcases reserves again with ⟨-, rfl⟩ | before
    · exact absurd earlier (free index)
    · exact single second before

theorem fresh : (∀ place, ¬At home.pid kernel kernel.nextPid place) ∧
      ∀ cpu, (kernel.cpus cpu).activity.reserves ≠ some kernel.nextPid :=
  ⟨fun place here => (places.bounded _ place here).false,
    fun cpu reserved => (places.reserved cpu _ reserved).1.false⟩

theorem count (grows : kernel.nextPid ≤ next) : Places .home { kernel with nextPid := next } :=
  places.of_stands (.of_eq rfl) (fun _ => id) grows fun _ => id

/-- What `allocate_pid` gives out is new. -/
theorem of_allocated {requested : Option Pid}
    {events : List Event} (distinct : kernel.Distinct (.allocate cpu requested, events))
    (allocated : kernel.allocatePid requested = (.ok pid, { kernel with nextPid := next })) :
    kernel.nextPid ≤ next ∧ pid < next ∧ (∀ place, ¬At home.pid kernel pid place) ∧
      ∀ cpu, (kernel.cpus cpu).activity.reserves ≠ some pid := by
  obtain ⟨below, free⟩ := distinct
  rcases choosePid_ok (allocatePid_ok allocated) with ⟨rfl, rfl, rfl⟩ | ⟨rfl, absent, rfl⟩
  · have grows := lt_nextPid below
    exact ⟨grows.le, grows, places.fresh.1, places.fresh.2⟩
  have above := lt_nextPid below
  have grows : kernel.nextPid ≤ (if kernel.nextPid ≤ pid then min (pid + 1) (2 ^ 32 - 1)
      else kernel.nextPid) ∧ pid < if kernel.nextPid ≤ pid then min (pid + 1) (2 ^ 32 - 1)
      else kernel.nextPid := by
    split
    · rename_i beyond
      exact ⟨beyond.trans above.le, above⟩
    · rename_i inside
      exact ⟨Nat.le_refl _, Nat.lt_of_not_le inside⟩
  obtain ⟨absent, -⟩ := Bool.or_eq_false_iff.mp absent
  obtain ⟨unstored, living⟩ := Bool.or_eq_false_iff.mp absent
  refine ⟨grows.1, grows.2, fun place here => ?_, fun cpu => (free pid rfl cpu).2⟩
  cases place with
  | table => exact Bool.eq_false_iff.mp unstored here
  | zombie => exact Bool.eq_false_iff.mp living here
  | flight => nomatch here
  | cpu index =>
    obtain ⟨process, held, same⟩ := here
    exact (free pid rfl index).1 process held same

theorem insert (params : CloneParams) (task : Task) (assignedCpu sighand : Nat)
    (activity : (kernel.cpus cpu).activity = .kernel process (.cloning pid)) :
    Places (.unborn (cloneChild kernel.journal.length process params pid task assignedCpu
      sighand).kin) (kernel.setActivity cpu (cloned process params kernel.journal.length pid)) := by
  have reserved := congrArg reserves activity
  obtain ⟨bound, nowhere, single⟩ := places.reserved cpu pid reserved
  obtain ⟨later, stage, same, identity, -, idle⟩ :=
    cloned_eq process params kernel.journal.length pid
  rw [same]
  have turned : Places .home (kernel.setActivity cpu (.kernel later stage)) := by
    refine places.turn ?_ fun other reserves => nomatch idle.symm.trans reserves
    rintro _ ⟨⟩
    exact ⟨process, congrArg held activity, by rw [identity]⟩
  refine turned.bear (fun place here => ?_) bound fun index again => ?_
  · refine nowhere place ?_
    rcases at_setActivity here with ⟨rfl, _, ⟨⟩, same⟩ | ⟨-, earlier⟩
    · exact ⟨process, congrArg held activity, identity ▸ same⟩
    · exact earlier
  · rcases reserves_setActivity again with ⟨-, none⟩ | ⟨apart, earlier⟩
    · nomatch idle.symm.trans none
    · exact apart (single index earlier)

theorem keep {next : KernelProcess} (held : (kernel.cpus cpu).activity.held = some process)
    (identity : next.identity = process.identity) :
    Places .home (kernel.setActivity cpu (.kernel next .running)) := by
  refine places.turn ?_ nofun
  rintro _ ⟨⟩
  exact ⟨process, held, by rw [identity]⟩

theorem spawn (parent : Option Pid) (task : Task) (assignedCpu sighand : Nat)
    (below : kernel.nextPid < 2 ^ 32 - 1) :
    Places (.unborn (kernel.spawned parent task assignedCpu sighand).kin)
      { kernel with nextPid := min (kernel.nextPid + 1) (2 ^ 32 - 1) } := by
  have grows := lt_nextPid below
  exact (places.count grows.le).bear places.fresh.1 grows places.fresh.2

omit places in
theorem start (cpuCount : Nat) (spaces : Nat → μ) : Places .home (new cpuCount spaces) := by
  have nowhere (pid : Pid) (place : Place) :
      ¬At home.pid (new cpuCount spaces) pid place := by
    cases place with
    | table | zombie | flight => exact nofun
    | cpu index =>
      rintro ⟨process, held, -⟩
      nomatch held
  exact ⟨fun _ _ found => (nomatch found), fun pid a _ here => absurd here (nowhere pid a),
    fun pid place here => absurd here (nowhere pid place), nofun⟩

end Places

end AetherKernel.Sched
