import AetherKernel.Sched.Homes

/-!
# Thread groups that exit

A process that is in the table or on a processor is a member of its thread
group, so that an exit of the group reaches it.  A process that begins the exit
is the only one of its group that was running, and what the others find when they
are to run is the status of the group.
-/

namespace AetherKernel.Sched

open Lib Signal Std Function Option Activity

variable {μ : Type}

/-! ## The table of groups -/

namespace Kernel

theorem mem_threadGroupMembers (kernel : Kernel μ) (group pid : Pid) :
    pid ∈ kernel.threadGroupMembers group ↔ pid ∈ kernel.threadGroups.getD group ∅ :=
  TreeSet.mem_toList

variable {group member pid other : Pid} {kernel : Kernel μ} {process : KernelProcess}
  {block : ProcessBlock}

theorem mem_trackThreadGroup :
    member ∈ (kernel.trackThreadGroup group pid).threadGroupMembers other ↔
      other = group ∧ member = pid ∨ member ∈ kernel.threadGroupMembers other := by
  rw [mem_threadGroupMembers, mem_threadGroupMembers, trackThreadGroup]
  rw [TreeMap.getD_insert]
  by_cases here : other = group
  · subst here
    rw [if_pos Std.compare_self, TreeSet.mem_insert, Std.compare_eq_iff_eq]
    simp [eq_comm]
  · rw [if_neg (fun same => here (Std.compare_eq_iff_eq.mp same).symm)]
    simp [here]

theorem mem_untrackThreadGroup :
    member ∈ (kernel.untrackThreadGroup group pid).threadGroupMembers other ↔
      member ∈ kernel.threadGroupMembers other ∧ (other = group → member ≠ pid) := by
  rw [mem_threadGroupMembers, mem_threadGroupMembers]
  by_cases here : other = group
  · subst here
    unfold untrackThreadGroup
    rw [TreeMap.getD_eq_getD_getElem?, TreeMap.getD_eq_getD_getElem?]
    split
    · rename_i absent
      simp [absent]
    rename_i members found
    have erased : member ∈ members.erase pid ↔ member ∈ members ∧ member ≠ pid := by
      rw [TreeSet.mem_erase, ne_eq, Std.compare_eq_iff_eq, and_comm, ne_comm]
    rw [found, getD_some]
    have plain : (member ∈ members ∧ (other = other → member ≠ pid)) ↔
        member ∈ members.erase pid := by
      rw [erased]
      simp
    rw [plain]
    dsimp only
    split
    · rename_i empty
      simpa using TreeSet.isEmpty_iff_forall_not_mem.mp empty member
    · simp
  · have same : (kernel.untrackThreadGroup group pid).threadGroups.getD other ∅ =
        kernel.threadGroups.getD other ∅ := by
      have apart : compare group other ≠ .eq := fun same =>
        here (Std.compare_eq_iff_eq.mp same).symm
      unfold untrackThreadGroup
      split
      · rfl
      dsimp only
      split
      · rw [TreeMap.getD_erase, if_neg apart]
      · rw [TreeMap.getD_insert, if_neg apart]
    simp [same, here]

/-- The status of a group goes with its last member. -/
theorem groupExitStatus_untrackThreadGroup (kernel : Kernel μ) (group pid other : Pid) :
    (kernel.untrackThreadGroup group pid).groupExitStatus other = kernel.groupExitStatus other ∨
      (kernel.untrackThreadGroup group pid).groupExitStatus other = none ∧ other = group ∧
        ∀ member ∈ kernel.threadGroupMembers group, member = pid := by
  unfold untrackThreadGroup
  split
  · exact .inl rfl
  rename_i members found
  dsimp only
  split
  · rename_i empty
    by_cases here : other = group
    · refine .inr ⟨by simp [here], here, fun member listed => ?_⟩
      rw [mem_threadGroupMembers, TreeMap.getD_eq_getD_getElem?, found] at listed
      by_contra apart
      have still : member ∈ members.erase pid :=
        TreeSet.mem_erase.mpr ⟨fun same => apart (Std.compare_eq_iff_eq.mp same).symm, listed⟩
      exact TreeSet.isEmpty_iff_forall_not_mem.mp empty member still
    · exact .inl (update_of_ne here ..)
  · exact .inl rfl

theorem not_blocked_expelMember (found : (kernel.expelMember pid).processes pid = some process) :
    process.state ≠ .blocked block := by
  unfold expelMember at found
  split at found
  · rename_i absent
    cases absent.symm.trans found
  rename_i former known
  split at found
  · rename_i exited
    cases known.symm.trans found
    rw [exited]
    simp
  · simp only [unblock, store, processes_enqueueRunnablePid, update_self,
      Option.some.injEq] at found
    rw [← found]
    simp
  · simp only [store, processes_enqueueRunnablePid, update_self, Option.some.injEq] at found
    rw [← found]
    simp

theorem not_mem_of_blocked {members : List Pid}
    (found : (members.foldl expelMember kernel).processes pid = some process)
    (blocked : process.state = .blocked block) : pid ∉ members := by
  induction members generalizing kernel with
  | nil => exact List.not_mem_nil
  | cons first rest ih =>
    rw [List.mem_cons, not_or]
    refine ⟨?_, ih found⟩
    rintro rfl
    have later : Wakes pid False (kernel.expelMember pid)
        (rest.foldl expelMember (kernel.expelMember pid)) :=
      wakes_foldl _ wakes_expelMember rest
    obtain ⟨former, known, touched⟩ := (later.stirs True).exists_origin found
    rcases touched.eased.blocked blocked with same | ⟨_, _, _, _, same, -⟩
    all_goals exact not_blocked_expelMember known same

/-- An exit begins, and the other members can run. -/
theorem beginThreadGroupExit_eq (kernel : Kernel μ) (group own : Pid) (status : BitVec 32) :
    (kernel.beginThreadGroupExit group own status).threadGroups = kernel.threadGroups ∧
      (kernel.beginThreadGroupExit group own status).groupExitStatus =
        update kernel.groupExitStatus group (some status) := by
  have families := (kernel.wakes_beginThreadGroupExit group own status).families
  exact ⟨families.threadGroups, families.groupExitStatus⟩

end Kernel

/-! ## Members -/

/-- The process in flight, if it is a member of its group. -/
def Flight.enrolled : Flight → Option Kin
  | .listed own | .away own => some own
  | .home | .unborn _ | .left _ | .dead _ => none

/-- Groups reach their members; `start` is where the step began. -/
structure Grouped (start : Kernel μ) (flight : Flight) (kernel : Kernel μ) : Prop where
  places : Places flight kernel
  housed : Housed flight kernel
  listed : ∀ pid group home, Member flight.enrolled kernel pid group home →
    pid ∈ kernel.threadGroupMembers group
  calm : ∀ pid process, kernel.processes pid = some process → process.state = .runnable ∨
    (∃ block, process.state = .blocked block) ∧
      kernel.groupExitStatus process.threadGroup = none
  off : ∀ cpu process, (kernel.cpus cpu).activity.held = some process →
    kernel.groupExitStatus process.threadGroup = none
  kept : ∀ group, start.groupExitStatus group ≠ none → kernel.groupExitStatus group ≠ none ∨
    flight.coming = none ∧ ∀ pid home, ¬Member flight.enrolled kernel pid group home

/-- Pids are new, and one that is asked for is not that of a group which still has
members. -/
structure Kernel.NewPids (kernel : Kernel μ) (label : Step μ × List Event) : Prop where
  distinct : kernel.Distinct label
  unknown : ∀ cpu pid, label.1 = .allocate cpu (some pid) →
    ∀ member home, ¬Member none kernel member pid home

theorem Kernel.newPids_of_distinguishes {kernel : Kernel μ} {step : Step μ}
    (passed : kernel.distinguishes step) (events : List Event) : kernel.NewPids (step, events) := by
  refine ⟨distinct_of_distinguishes passed events, ?_⟩
  rintro cpu pid rfl
  nomatch passed

namespace Grouped

open Kernel

variable {start before after : Kernel μ} {one two : Flight} (grouped : Grouped start one before)

include grouped

/-- Members go, and no group changes. -/
theorem mono (places : Places two after) (housed : Housed two after)
    (members : ∀ {pid group home}, Member two.enrolled after pid group home →
      Member one.enrolled before pid group home) (groups : after.threadGroups = before.threadGroups)
    (status : after.groupExitStatus = before.groupExitStatus)
    (states : ∀ pid process, after.processes pid = some process → process.state = .runnable ∨
      (∃ block, process.state = .blocked block) ∧ ∃ former block,
        before.processes pid = some former ∧ former.state = .blocked block ∧
        former.threadGroup = process.threadGroup)
    (off : ∀ cpu process, (after.cpus cpu).activity.held = some process →
      before.groupExitStatus process.threadGroup = none)
    (coming : one.coming = none → two.coming = none) : Grouped start two after := by
  constructor
  · exact places
  · exact housed
  · intro pid group home member
    rw [threadGroupMembers, groups]
    exact grouped.listed pid group home (members member)
  · intro pid process found
    rcases states pid process found with runnable | ⟨blocks, former, block, known, blocked, same⟩
    · exact .inl runnable
    · refine .inr ⟨blocks, ?_⟩
      rcases grouped.calm pid former known with runnable | ⟨-, none⟩
      · nomatch runnable.symm.trans blocked
      · rw [status, ← same]
        exact none
  · rwa [status]
  · intro group exiting
    rw [status]
    refine (grouped.kept group exiting).imp_right ?_
    rintro ⟨stays, nobody⟩
    exact ⟨coming stays, fun pid home member => nobody pid home (members member)⟩

theorem states_of_stands (stands : Stands before after) (pid : Pid) (process : KernelProcess)
    (found : after.processes pid = some process) :
    process.state = .runnable ∨ (∃ block, process.state = .blocked block) ∧ ∃ former block,
        before.processes pid = some former ∧ former.state = .blocked block ∧
        former.threadGroup = process.threadGroup := by
  obtain ⟨former, known, kin, eased⟩ := stands.table pid process found
  have group := congrArg Kin.threadGroup kin
  cases eased with
  | same state =>
    rw [state]
    rcases grouped.calm pid former known with runnable | ⟨⟨block, blocked⟩, -⟩
    · exact .inl runnable
    · exact .inr ⟨⟨block, blocked⟩, former, block, known, blocked, group⟩
  | woken state => exact .inl state
  | moved blocked state => exact .inr ⟨⟨_, state⟩, former, _, known, blocked, group⟩

/-- Processes stay where they are, and no group changes. -/
theorem of_stands (places : Places two after) (housed : Housed two after)
    (stands : Stands before after) (groups : after.threadGroups = before.threadGroups)
    (status : after.groupExitStatus = before.groupExitStatus)
    (flying : ∀ own, two.enrolled = some own → one.enrolled = some own)
    (coming : one.coming = none → two.coming = none) : Grouped start two after := by
  refine grouped.mono places housed (fun member => member.mono fun _ _ lives =>
    lives.of_stands stands flying) groups status (grouped.states_of_stands stands)
    (fun cpu process held => ?_) coming
  obtain ⟨former, holds, kin⟩ := (stands.goesOn cpu).exists_former held
  rw [← show _ = process.threadGroup from congrArg Kin.threadGroup kin]
  exact grouped.off cpu former holds

theorem stay (stands : Stands before after) (zombies : after.zombies = before.zombies)
    (nextPid : after.nextPid = before.nextPid) (groups : after.threadGroups = before.threadGroups)
    (status : after.groupExitStatus = before.groupExitStatus) : Grouped start one after :=
  grouped.of_stands (grouped.places.stay stands zombies nextPid)
    (grouped.housed.of_stands stands nextPid.ge) stands groups status (fun _ => id) id

theorem of_stirs {calm : Prop} (stirs : Stirs calm before after)
    (families : Families before after) : Grouped start one after :=
  grouped.stay stirs.stands stirs.zombies stirs.nextPid families.threadGroups
    families.groupExitStatus

omit grouped

section Own

variable {own : Kin} {kernel : Kernel μ} {process : KernelProcess}

/-- The process in flight comes into the table, and it can run. -/
theorem store (grouped : Grouped start one kernel)
    (places : Places .home (kernel.store process.pid process))
    (housed : Housed .home (kernel.store process.pid process))
    (flies : one.enrolled = some process.kin) (runnable : process.state = .runnable) :
    Grouped start .home (kernel.store process.pid process) := by
  refine grouped.mono places housed (fun member => member.mono fun _ _ lives =>
    lives.of_store flies) rfl rfl (fun pid stored found => ?_) grouped.off fun _ => rfl
  rcases found_store found with ⟨rfl, rfl⟩ | ⟨-, known⟩
  · exact .inl runnable
  · exact grouped.states_of_stands (.of_eq rfl) pid stored known

theorem drop (grouped : Grouped start .home kernel)
    (places : Places (.away process.kin) (kernel.drop process.pid))
    (housed : Housed (.away process.kin) (kernel.drop process.pid))
    (found : kernel.processes process.pid = some process) :
    Grouped start (.away process.kin) (kernel.drop process.pid) :=
  grouped.mono places housed (fun member => member.mono fun _ _ lives => lives.of_drop found)
    rfl rfl (fun pid stored present =>
      grouped.states_of_stands (.of_eq rfl) pid stored (found_drop present).2)
    grouped.off fun _ => rfl

/-- A new process becomes a member of its group. -/
theorem enlist (grouped : Grouped start (.unborn own) kernel)
    (places : Places (.listed own) (kernel.trackThreadGroup own.threadGroup own.pid))
    (housed : Housed (.listed own) (kernel.trackThreadGroup own.threadGroup own.pid)) :
    Grouped start (.listed own) (kernel.trackThreadGroup own.threadGroup own.pid) := by
  constructor
  · exact places
  · exact housed
  · intro pid group home member
    rw [mem_trackThreadGroup]
    cases member with
    | stored found known assigned =>
      exact .inr (grouped.listed pid group home (.stored found known assigned))
    | held held same known assigned =>
      exact .inr (grouped.listed pid group home (.held held same known assigned))
    | flying flies same known =>
      cases flies
      exact .inl ⟨known.symm, same.symm⟩
  · exact grouped.calm
  · exact grouped.off
  · intro group exiting
    rcases grouped.kept group exiting with still | ⟨stays, -⟩
    · exact .inl still
    · nomatch stays

/-- An exit of the group begins; the process that begins it has been running on
the processor of the group. -/
theorem exit (grouped : Grouped start (.away own) kernel) (status : BitVec 32)
    (housed : Housed (.away own) (kernel.beginThreadGroupExit own.threadGroup own.pid status)) :
    Grouped start (.away own) (kernel.beginThreadGroupExit own.threadGroup own.pid status) := by
  have stirs := stirs_beginThreadGroupExit True kernel own.threadGroup own.pid status
  obtain ⟨groups, statuses⟩ := kernel.beginThreadGroupExit_eq own.threadGroup own.pid status
  constructor
  · exact grouped.places.of_stirs stirs
  · exact housed
  · intro pid group home member
    rw [threadGroupMembers, groups]
    exact grouped.listed pid group home (member.of_stands stirs.stands)
  · intro pid process found
    rcases grouped.states_of_stands stirs.stands pid process found with
      runnable | ⟨⟨block, blocked⟩, former, other, known, blocks, same⟩
    · exact .inl runnable
    refine .inr ⟨⟨block, blocked⟩, ?_⟩
    by_cases here : process.threadGroup = own.threadGroup
    · -- A member that is in the table has been let out of its block.
      have listed := grouped.listed pid own.threadGroup _ (.stored known (same.trans here) rfl)
      have absent := not_mem_of_blocked found blocked
      rw [List.mem_filter, not_and] at absent
      have itself : pid = own.pid := by simpa using absent listed
      subst itself
      have stored : At (Flight.away own).pid kernel own.pid .table :=
        isSome_iff_exists.mpr ⟨_, known⟩
      nomatch grouped.places.unique own.pid .table .flight stored rfl
    · rw [statuses, update_of_ne here, ← same]
      rcases grouped.calm pid former known with runnable | ⟨-, none⟩
      · nomatch runnable.symm.trans blocks
      · exact none
  · intro cpu process held
    rw [stirs.activity] at held
    by_cases here : process.threadGroup = own.threadGroup
    · -- Another member would run on the processor that this one has left.
      have member : Member (Flight.away own).own kernel process.pid own.threadGroup cpu :=
        .held held rfl here (grouped.housed.seated.seats cpu process held)
      have shared : cpu = own.assignedCpu :=
        grouped.housed.homes _ _ _ _ _ member (.flying rfl rfl rfl rfl)
      have free := grouped.housed.seated.free own rfl
      rw [← shared, held] at free
      nomatch free
    · rw [statuses, update_of_ne here]
      exact grouped.off cpu process held
  · intro group exiting
    by_cases here : group = own.threadGroup
    · left
      rw [statuses, here, update_self]
      exact nofun
    · rw [statuses, update_of_ne here]
      refine (grouped.kept group exiting).imp_right ?_
      rintro ⟨stays, nobody⟩
      exact ⟨stays, fun pid home member => nobody pid home (member.of_stands stirs.stands)⟩

/-- A process leaves its group. -/
theorem leave (grouped : Grouped start (.away own) kernel)
    (housed : Housed (.left own) (kernel.untrackThreadGroup own.threadGroup own.pid)) :
    Grouped start (.left own) (kernel.untrackThreadGroup own.threadGroup own.pid) := by
  have stirs := stirs_untrackThreadGroup True kernel own.threadGroup own.pid
  have members (pid group : Pid) (home : Nat)
      (member : Member none (kernel.untrackThreadGroup own.threadGroup own.pid) pid group home) :
      Member (some own) kernel pid group home ∧ pid ≠ own.pid := by
    have earlier := member.of_stands stirs.stands
    cases earlier with
    | stored found known assigned =>
      refine ⟨.stored found known assigned, ?_⟩
      rintro rfl
      have stored : At (Flight.away own).pid kernel own.pid .table :=
        isSome_iff_exists.mpr ⟨_, found⟩
      nomatch grouped.places.unique own.pid .table .flight stored rfl
    | @held cpu process held same known assigned =>
      refine ⟨.held held same known assigned, ?_⟩
      rintro rfl
      have there : At (Flight.away own).pid kernel own.pid (.cpu cpu) := ⟨process, held, same⟩
      nomatch grouped.places.unique own.pid _ .flight there rfl
    | flying flies => nomatch flies
  constructor
  · exact (grouped.places.of_stirs stirs).of_same (fun _ => id) rfl rfl rfl
  · exact housed
  · intro pid group home member
    obtain ⟨earlier, apart⟩ := members pid group home member
    exact mem_untrackThreadGroup.mpr ⟨grouped.listed pid group home earlier, fun _ => apart⟩
  · intro pid process found
    rcases grouped.states_of_stands stirs.stands pid process found with
      runnable | ⟨blocks, former, block, known, blocked, same⟩
    · exact .inl runnable
    refine .inr ⟨blocks, ?_⟩
    rcases grouped.calm pid former known with runnable | ⟨-, none⟩
    · nomatch runnable.symm.trans blocked
    rcases kernel.groupExitStatus_untrackThreadGroup own.threadGroup own.pid
        process.threadGroup with still | ⟨removed, -, -⟩
    · rw [still, ← same]
      exact none
    · exact removed
  · intro cpu process held
    rw [stirs.activity] at held
    rcases kernel.groupExitStatus_untrackThreadGroup own.threadGroup own.pid
        process.threadGroup with still | ⟨removed, -, -⟩
    · rw [still]
      exact grouped.off cpu process held
    · exact removed
  · intro group exiting
    rcases kernel.groupExitStatus_untrackThreadGroup own.threadGroup own.pid group with
      still | ⟨-, rfl, alone⟩
    · rw [still]
      refine (grouped.kept group exiting).imp_right ?_
      rintro ⟨stays, nobody⟩
      exact ⟨rfl, fun pid home member => nobody pid home (members pid group home member).1⟩
    · refine .inr ⟨rfl, fun pid home member => ?_⟩
      obtain ⟨earlier, apart⟩ := members pid _ home member
      exact apart (alone pid (grouped.listed pid _ home earlier))

end Own

theorem enrolled_of_telling {own : Kin} {kernel : Kernel μ} {parent : Pid} {event : ChildEvent}
    (tells : Telling own kernel parent one two event) :
    (∀ other, two.enrolled = some other → one.enrolled = some other) ∧
      (one.coming = none → two.coming = none) := by
  cases tells with
  | child | own => exact ⟨fun _ => id, id⟩
  | exit => exact ⟨nofun, fun _ => rfl⟩

end Grouped

open Kernel in
theorem grouped_follows {start : Kernel μ} {own : Kin} {losing : Prop} {one two : Flight}
    {before after : Kernel μ} (follows : Follows own losing one two before after)
    (grouped : Grouped start one before) : Grouped start two after := by
  have places := places_follows follows grouped.places
  have housed := grouped.housed.of_follows follows
  induction follows with
  | wakes wakes => exact grouped.of_stirs (wakes.stirs True) wakes.families
  | trans first second earlier later =>
    have middle := earlier grouped (places_follows first grouped.places)
      (grouped.housed.of_follows first)
    exact later middle (places_follows second middle.places) (middle.housed.of_follows second)
  | aside aside =>
    refine grouped.stay (.of_eq aside.standing) ?_ ?_ ?_ ?_
    all_goals rw [aside.rest]
  | signal kernel pid info =>
    exact grouped.of_stirs (stirs_signalProcess kernel pid info)
      (kernel.families_signalProcess pid info)
  | hear | woke | arm => exact grouped.stay (.of_eq rfl) rfl rfl rfl rfl
  | queue tells | pass tells =>
    obtain ⟨flying, coming⟩ := Grouped.enrolled_of_telling tells
    exact grouped.of_stands places housed (.of_eq rfl) rfl rfl flying coming
  | @hand one two kernel middle parent process woken selector statusPtr infoPtr options event found
      blocked wakes stored runnable tells =>
      have notes := notes_handOver (middle.record (.woke parent event)) parent event
      have told := grouped.of_stirs (wakes.stirs True) wakes.families
      obtain ⟨flying, coming⟩ := Grouped.enrolled_of_telling tells
      refine told.of_stands places housed (.of_eq ?_) ?_ ?_ flying coming
      all_goals
        rw [notes.rest]
        rfl
  | enlist kernel => exact grouped.enlist places housed
  | link kernel coming =>
    cases own.parent <;> exact grouped.stay (.of_eq rfl) rfl rfl rfl rfl
  | @born kernel process kin runnable =>
    subst kin
    have stored := grouped.store (grouped.places.store rfl) (grouped.housed.store rfl) rfl runnable
    have queued := stored.of_stirs (stirs_enqueueRunnablePid True _ process.pid
      process.assignedCpu) (families_enqueueRunnablePid _ _ _)
    exact queued.stay (.of_eq rfl) rfl rfl rfl rfl
  | drop found kin idle =>
    subst kin
    exact grouped.drop places housed found
  | store kin runnable =>
    subst kin
    exact grouped.store places housed rfl runnable
  | lost | retire | zombie =>
    exact grouped.of_stands places housed (.of_eq rfl) rfl rfl
      (fun _ flies => nomatch flies) fun _ => rfl
  | exits kernel status => exact grouped.exit status housed
  | @leaves kernel middle departs =>
    have noted : Grouped start (.away own) (kernel.record (.left own.serial)) :=
      grouped.stay (.of_eq rfl) rfl rfl rfl rfl
    exact (noted.of_stirs (departs.wakes.stirs True) departs.wakes.families).leave housed
  | forget kernel leader =>
    refine grouped.of_stands places housed (.of_eq ?_) ?_ ?_
      (fun _ flies => nomatch flies) fun _ => rfl
    all_goals
      rw [untrackChildLink_rest]
      rfl
  | exec kernel sighand => exact grouped.stay (.of_map (resigned_shareActions _ _)) rfl rfl rfl rfl

/-! ## Steps -/

namespace Grouped

open Kernel

variable {start kernel after : Kernel μ} {cpu : Nat} {activity : Activity} {process : KernelProcess}
  {step : Step μ}

/-- A processor takes up something else. -/
theorem turn {one two : Flight} (grouped : Grouped start one kernel)
    (places : Places two (kernel.setActivity cpu activity))
    (housed : Housed two (kernel.setActivity cpu activity))
    (held : ∀ process, activity.held = some process →
      kernel.groupExitStatus process.threadGroup = none ∧
        ∃ kin, Live one.enrolled kernel process.pid kin ∧
          kin.threadGroup = process.threadGroup ∧ kin.assignedCpu = process.assignedCpu)
    (flying : ∀ own, two.enrolled = some own → Live one.enrolled kernel own.pid own)
    (coming : one.coming = none → two.coming = none) :
    Grouped start two (kernel.setActivity cpu activity) := by
  refine grouped.mono places housed
    (fun member => member.of_turn (fun process holds => (held process holds).2) flying) rfl rfl
    (fun pid process (found : kernel.processes pid = some process) =>
      grouped.states_of_stands (.of_eq rfl) pid process found)
    (fun index process holds => ?_) coming
  rcases held_setActivity holds with ⟨rfl, now⟩ | ⟨-, earlier⟩
  · exact (held process now).1
  · exact grouped.off index process earlier

/-- A processor starts a process of a group that does not exit. -/
theorem land {work : DispatchWork}
    (grouped : Grouped start (.away process.kin) kernel) (here : process.assignedCpu = cpu)
    (lives : kernel.groupExitStatus process.threadGroup = none) :
    Grouped start .home (kernel.setActivity cpu (.dispatched work process)) := by
  refine grouped.turn grouped.places.land (grouped.housed.land here) ?_
    (nofun) id
  rintro _ ⟨⟩
  exact ⟨lives, process.kin, .flying rfl rfl, rfl, rfl⟩

variable (grouped : Grouped start .home kernel)
include grouped

/-- A processor goes on with a process of the same group. -/
theorem proceed (places : Places .home (kernel.setActivity cpu activity))
    (housed : Housed .home (kernel.setActivity cpu activity))
    (former : ∀ process, activity.held = some process →
      ∃ former, (kernel.cpus cpu).activity.held = some former ∧
        former.identity = process.identity ∧ former.assignedCpu = process.assignedCpu) :
    Grouped start .home (kernel.setActivity cpu activity) := by
  refine grouped.turn places housed (fun process held => ?_) (nofun) id
  obtain ⟨before, holds, identity, assigned⟩ := former process held
  rw [← identity, ← assigned]
  exact ⟨grouped.off cpu before holds, before.kin, .held holds rfl rfl, rfl, rfl⟩

theorem takeOff (held : (kernel.cpus cpu).activity.held = some process) :
    Grouped start (.away process.kin) (kernel.setActivity cpu .leaving) := by
  refine grouped.turn (grouped.places.takeOff held) (grouped.housed.takeOff held)
    (fun _ none => nomatch none) ?_ fun _ => rfl
  rintro _ ⟨⟩
  exact .held held rfl rfl

theorem bear {child : Kin}
    (places : Places (.unborn child) kernel) (housed : Housed (.unborn child) kernel)
    (kept : ∀ group, start.groupExitStatus group ≠ none → kernel.groupExitStatus group ≠ none) :
    Grouped start (.unborn child) kernel :=
  { grouped with
    places
    housed
    kept := fun group exiting => .inl (kept group exiting) }

theorem count {next : Nat} (grows : kernel.nextPid ≤ next) :
    Grouped start .home { kernel with nextPid := next } :=
  grouped.of_stands (grouped.places.count grows) (grouped.housed.count grows)
    (.of_eq rfl) rfl rfl (fun _ => id) id

/-- The block of a call is recorded; the group of the process does not exit. -/
theorem of_blocks (blocks : Blocks kernel step after) : Grouped start .home after := by
  have places := grouped.places.of_blocks blocks
  obtain ⟨cpu, ready, process, block, context, timers, futexes, -, activity, rfl, -⟩ := blocks
  have held := congrArg held activity
  have flown := grouped.takeOff held
  have flies : (Flight.away process.kin).enrolled = some { process with
        kernelContext := some context, wakeResult := none, state := .blocked block }.kin := rfl
  have aside : Stands (kernel.setActivity cpu .leaving)
      { (kernel.setActivity cpu .leaving).disarmFutexWait process.pid with
        blockedTimers := timers, blockedFutexes := futexes } := .of_eq rfl
  have disarmed := flown.stay aside rfl rfl rfl rfl
  refine ⟨places, disarmed.housed.store flies, fun pid group home member => ?_,
    fun pid now found => ?_, flown.off, fun group exiting => ?_⟩
  · exact disarmed.listed pid group home (member.mono fun _ _ lives => lives.of_store flies)
  · rcases found_store found with ⟨-, rfl⟩ | ⟨-, known⟩
    · exact .inr ⟨⟨block, rfl⟩, grouped.off cpu process held⟩
    · exact grouped.calm pid now known
  · refine (disarmed.kept group exiting).imp_right ?_
    rintro ⟨-, nobody⟩
    exact ⟨rfl, fun pid home member =>
      nobody pid home (member.mono fun _ _ lives => lives.of_store flies)⟩

omit grouped

theorem insert {pid : Pid} {params : CloneParams} (task : Task)
    (assignedCpu sighand : Nat) (grouped : Grouped kernel .home kernel) (valid : params.validate)
    (activity : (kernel.cpus cpu).activity = .kernel process (.cloning pid)) :
    Grouped kernel (.unborn (cloneChild kernel.journal.length process params pid task assignedCpu
      sighand).kin) (kernel.setActivity cpu (cloned process params kernel.journal.length pid)) := by
  have places := grouped.places.insert params task assignedCpu sighand activity
  have housed := grouped.housed.insert task assignedCpu sighand grouped.places valid activity
  obtain ⟨later, stage, same, identity, assigned, -⟩ :=
    cloned_eq process params kernel.journal.length pid
  rw [same] at places housed ⊢
  have home : Places .home (kernel.setActivity cpu (.kernel later stage)) :=
    places.of_same nofun rfl rfl rfl
  have settled : Housed .home (kernel.setActivity cpu (.kernel later stage)) :=
    housed.mono ⟨housed.seated.seats, nofun⟩
      (fun _ _ _ member => member.mono fun _ _ lives => lives.mono nofun) (Nat.le_refl _)
      fun _ _ => .inl
  refine (grouped.proceed home settled ?_).bear places housed fun _ => id
  rintro _ ⟨⟩
  exact ⟨process, congrArg held activity, identity.symm, assigned.symm⟩

theorem keeps [UserSpaces μ] (grouped : Grouped kernel .home kernel)
    (fresh : kernel.NewPids (step, events)) : Keeps True (Grouped kernel) kernel step where
  follows _ _ _ _ _ := grouped_follows
  shows cpu current :=
    grouped.stay (.of_eq (Prod.ext rfl (funext (activity_setCurrent _ _ _)))) rfl rfl rfl rfl
  passes _ _ _ _ passes holds :=
    holds.stay passes.stands passes.zombies passes.nextPid passes.threadGroups
      passes.groupExitStatus
  resigns _ resigned := grouped.stay (.of_map resigned) rfl rfl rfl rfl
  regroups _ regroups := by
    refine grouped.stay regroups.stands ?_ ?_ ?_ ?_
    all_goals rw [regroups.rest]
  looks _ process wait selector _ _ := by
    have notes := kernel.notes_waitChildEvent process.pid selector wait.options wait.consume
    refine grouped.of_stands (grouped.places.of_notes notes (fun _ => zombies_waitChildEvent)
      fun _ => id) (grouped.housed.of_stands notes.stands ?_) notes.stands ?_ ?_ (fun _ => id) id
    all_goals rw [notes.rest]
  allocates cpu process pid next requested same activity allocated := by
    subst same
    obtain ⟨grows, below, nowhere, free⟩ := grouped.places.of_allocated fresh.distinct allocated
    refine (grouped.count grows).proceed ((grouped.places.count grows).reserve
      (congrArg held activity) nowhere below free)
      (grouped.housed.allocate grouped.places fresh.distinct (fun wanted asked => ?_) activity
        allocated) ?_
    · subst asked
      exact fresh.unknown cpu wanted rfl
    · rintro _ ⟨⟩
      exact ⟨process, congrArg held activity, rfl, rfl⟩
  goesOn _ _ _ goes holds := holds.stay (.of_turn goes) rfl rfl rfl rfl
  takeOff _ _ := grouped.takeOff
  land _ _ _ _ _ here lives flown := flown.land here lives
  insert _ _ _ _ task assignedCpu sighand _ activity valid :=
    grouped.insert task assignedCpu sighand valid activity
  spawn parent task assignedCpu sighand same := by
    subst same
    have grows := (lt_nextPid fresh.distinct).le
    exact (grouped.count grows).bear (grouped.places.spawn parent task assignedCpu sighand
      fresh.distinct) (grouped.housed.spawn parent task assignedCpu sighand grouped.places
      fresh.distinct) fun _ => id
  execve _ process task _ activity := by
    refine kept_of_execve activity (grouped.stay (.of_eq rfl) rfl rfl rfl rfl)
      (fun _ _ wakes holds => holds.of_stirs (wakes.stirs True) wakes.families) ?_
    intro middle held holds
    refine holds.proceed (holds.places.keep held rfl) (holds.housed.keep held rfl rfl nofun) ?_
    rintro _ ⟨⟩
    exact ⟨process, held, rfl, rfl⟩

/-- The next step begins here. -/
theorem restart (grouped : Grouped start one kernel) : Grouped kernel one kernel :=
  { grouped with kept := fun _ => .inl }

end Grouped

/-! ## Runs -/

namespace Kernel

variable {kernel after : Kernel μ} {step : Step μ} {events : List Event}

theorem grouped_moves [UserSpaces μ] (sound : Sound kernel)
    (grouped : Grouped kernel .home kernel) (moves : Moves kernel step after)
    (fresh : kernel.NewPids (step, events)) : Grouped kernel .home after := by
  have keeps := grouped.keeps fresh
  rcases keeps.moves sound.keyed sound.running (fun _ => trivial) grouped moves with still | blocks
  · exact still
  · exact grouped.of_blocks blocks

theorem grouped_new (cpuCount : Nat) (spaces : Nat → μ) :
    Grouped (new cpuCount spaces) .home (new cpuCount spaces) where
  places := .start cpuCount spaces
  housed := .start cpuCount spaces
  listed pid group home member := by
    cases member with
    | stored found | held found | flying found => nomatch found
  calm _ _ found := nomatch found
  off _ _ held := nomatch held
  kept _ := .inl

def threadParams : CloneParams :=
  ⟨true, false, true, true, false, none⟩

/-- The process makes a thread and is interrupted. -/
def threadSteps : List (Step (BitVec 64 → Byte)) :=
  [.allocate 0 none, .insert 0 threadParams (program 0x400000 0) 0 0,
    .compute 0 (.returned (.ok 0)), .finishReturn 0, .release 0]

/-- A group knows its members, and all of them are assigned to one processor, so that no
two run at once. -/
theorem thread_group_shares_processor [UserSpaces μ] {cpuCount : Nat} {spaces : Nat → μ}
    {labels : List (Step μ × List Event)} {kernel : Kernel μ}
    (run : Run (Guarded NewPids Performs) (new cpuCount spaces) labels kernel) (group : Pid) :
    (∀ pid home, Member none kernel pid group home → pid ∈ kernel.threadGroupMembers group ∧
      ∀ other place, Member none kernel other group place → place = home) ∧
    ∀ one two first second, (kernel.cpus one).activity.held = some first →
      (kernel.cpus two).activity.held = some second → first.threadGroup = group →
      second.threadGroup = group → one = two := by
  obtain ⟨-, grouped⟩ := invariant_of_run (P := fun kernel => Grouped kernel .home kernel) run
    (fun sound grouped fresh _ moves => (grouped_moves sound grouped moves fresh).restart)
    (grouped_new cpuCount spaces)
  obtain ⟨homes, -, -, seated⟩ := grouped.housed
  refine ⟨fun pid home member => ⟨grouped.listed pid group home member,
    fun other place found => homes other pid group place home found member⟩,
    fun one two first second held holds known same => ?_⟩
  rw [← seated.seats one first held, ← seated.seats two second holds]
  exact homes _ _ group _ _ (.held held rfl known rfl) (.held holds rfl same rfl)

theorem thread_group_shares_processor_thread :
    ∃ labels last, Run (Guarded NewPids Performs) (blank 1) labels last ∧
      labels.map Prod.fst = callSteps ++ threadSteps ∧ 2 ∈ last.threadGroupMembers 1 := by
  have found : ((blank 1).performWhere distinguishes (callSteps ++ threadSteps)).map (fun last =>
      (last.processes 2).map (·.threadGroup)) = some (some 1) := rfl
  obtain ⟨labels, last, same, run, value⟩ := exists_guarded_run
    (fun _ _ _ passed => newPids_of_distinguishes passed _) found
  obtain ⟨process, stored, known⟩ := map_eq_some_iff.mp value
  exact ⟨labels, last, run, same,
    ((thread_group_shares_processor run 1).1 2 _ (.stored stored known rfl)).1⟩

end Kernel

end AetherKernel.Sched
