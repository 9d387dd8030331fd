import AetherKernel.Sched.ChildWaitRuns
import AetherKernel.Sched.Stands

/-!
# The parent of a `vfork`

A child that is made by `vfork` shares the memory of its parent, and so it is
assigned to the processor of its parent.  It cannot run there before the block
of the parent has been recorded, and its `execve` or its exit finds the parent
blocked.
-/

namespace AetherKernel.Sched

open Lib Signal Std List

variable {μ : Type} {before after : Kernel μ}

/-- The process waits for a child that has neither replaced its program nor
exited. -/
def Hopes (kernel : Kernel μ) (process : KernelProcess) (child : Pid) : Prop :=
  ∃ serial, process.vforkChild = some (serial, child) ∧ .left serial ∉ kernel.journal

/-- Children run where their parents do, and those who wait for a child do so
with reason. -/
structure Vforked (flight : Flight) (kernel : Kernel μ) : Prop where
  keyed : Kernel.Keyed kernel
  seated : Seats flight kernel
  serials : ∀ pid kin, Live flight.own kernel pid kin → kin.serial < kernel.journal.length ∨
    flight.coming = some kin ∧ kin.serial ≤ kernel.journal.length
  children : ∀ pid kin serial child, Live flight.own kernel pid kin →
    kin.vforkChild = some (serial, child) →
    serial < kernel.journal.length ∨ ∃ own, flight.coming = some own ∧ own.serial = serial
  lefts : ∀ serial, .left serial ∈ kernel.journal → serial < kernel.journal.length
  family : ∀ pid parent other child number, Live flight.own kernel pid parent →
    Live flight.own kernel other child → parent.vforkChild = some (child.serial, number) →
    child.pid = number ∧ child.assignedCpu = parent.assignedCpu ∧
      (.left child.serial ∈ kernel.journal ∨ child.vforkParent = some parent.pid)
  stored : ∀ pid process child, kernel.processes pid = some process →
    process.state = .blocked (.vfork child) → Hopes kernel process child
  held : ∀ cpu process child, (kernel.cpus cpu).activity.held = some process →
    (kernel.cpus cpu).activity.awaits = some child → Hopes kernel process child

theorem Activity.awaits_of_held {activity : Activity} (nobody : activity.held = none) :
    activity.awaits = none := by
  cases activity with
  | idle | leaving => rfl
  | dispatched | user | kernel => nomatch nobody

/-- A process has left, or begins to wait for the child that it has just made. -/
structure Inherits (flight : Flight) (kernel : Kernel μ) (former kin : Kin) : Prop where
  same : kin = { former with vforkParent := kin.vforkParent, vforkChild := kin.vforkChild }
  vforkParent : .left former.serial ∈ kernel.journal ∨ kin.vforkParent = former.vforkParent
  vforkChild : kin.vforkChild = former.vforkChild ∨ former.serial < kernel.journal.length ∧
    ∃ own, flight.coming = some own ∧ own.serial = kernel.journal.length ∧
      kin.vforkChild = some (own.serial, own.pid) ∧ own.assignedCpu = former.assignedCpu ∧
      own.vforkParent = some former.pid

theorem Inherits.refl (flight : Flight) (kernel : Kernel μ) (kin : Kin) :
    Inherits flight kernel kin kin :=
  ⟨rfl, .inr rfl, .inl rfl⟩

section Inherits

variable {flight : Flight} {kernel : Kernel μ} {former kin : Kin}
  (inherits : Inherits flight kernel former kin)

include inherits

theorem Inherits.serial : kin.serial = former.serial := by
  rw [inherits.same]

theorem Inherits.pid : kin.pid = former.pid := by
  rw [inherits.same]

theorem Inherits.assignedCpu : kin.assignedCpu = former.assignedCpu := by
  rw [inherits.same]

end Inherits

/-- No process has left. -/
def Stays (before after : Kernel μ) : Prop :=
  ∃ events, after.journal = events ++ before.journal ∧ ∀ serial, .left serial ∉ events

theorem Stays.of_eq (journal : after.journal = before.journal) : Stays before after :=
  ⟨[], journal, by simp⟩

theorem Stirs.stays {calm : Prop} (stirs : Stirs calm before after) : Stays before after := by
  obtain ⟨events, journal, minor⟩ := stirs.journal
  exact ⟨events, journal, fun serial member => minor _ member⟩

theorem Notes.stays (notes : Notes before after) : Stays before after := by
  obtain ⟨events, journal, known⟩ := notes.journal
  exact ⟨events, journal, fun serial member => known _ member⟩

namespace Hopes

variable {process former : KernelProcess} {child : Pid}

theorem of_kin (hopes : Hopes before former child) (kin : former.kin = process.kin) :
    Hopes before process child := by
  obtain ⟨serial, known, still⟩ := hopes
  exact ⟨serial, (congrArg Kin.vforkChild kin).symm.trans known, still⟩

theorem mono (hopes : Hopes before process child) (stays : Stays before after) :
    Hopes after process child := by
  obtain ⟨serial, known, still⟩ := hopes
  obtain ⟨events, journal, nobody⟩ := stays
  refine ⟨serial, known, ?_⟩
  rw [journal, mem_append, not_or]
  exact ⟨nobody serial, still⟩

end Hopes

theorem Hopes.of_runnable {kernel : Kernel μ} {process : KernelProcess}
    (runnable : process.state = .runnable) (child : Pid)
    (blocked : process.state = .blocked (.vfork child)) : Hopes kernel process child :=
  nomatch runnable.symm.trans blocked

namespace Vforked

open Kernel

variable {one two : Flight} {child : Kin} {process : KernelProcess}

variable (vforked : Vforked one before)
include vforked

theorem family_of_inherits {older parent former : Kin}
    {pid other number : Pid} (lived : Live one.own before pid older)
    (waits : Inherits one before older parent) (born : Live one.own before other former)
    (leaves : Inherits one before former child)
    (known : parent.vforkChild = some (child.serial, number)) :
    child.pid = number ∧ child.assignedCpu = parent.assignedCpu ∧
      (.left child.serial ∈ before.journal ∨ child.vforkParent = some parent.pid) := by
  rw [leaves.serial] at known ⊢
  rw [leaves.pid, leaves.assignedCpu, waits.assignedCpu, waits.pid]
  have kept : former.pid = number ∧ former.assignedCpu = older.assignedCpu ∧
      (.left former.serial ∈ before.journal ∨ former.vforkParent = some older.pid) := by
    rcases waits.vforkChild with same | ⟨-, own, came, new, begins, place, vfork⟩
    · exact vforked.family pid older other former number lived born (same.symm.trans known)
    obtain ⟨numbered, rfl⟩ : own.serial = former.serial ∧ own.pid = number := by
      simpa using begins.symm.trans known
    -- No process in the tables is as young as the child in flight.
    have same : own = former := by
      rcases vforked.serials other former born with below | ⟨comes, -⟩
      · omega
      · exact Option.some.inj (came.symm.trans comes)
    subst same
    exact ⟨rfl, place, .inr vfork⟩
  refine ⟨kept.1, kept.2.1, ?_⟩
  rcases leaves.vforkParent with gone | same
  · exact .inl gone
  · rw [same]
    exact kept.2.2

/-- What there is was there before, and nobody has left. -/
theorem of_inherits (keyed : Keyed after) (seated : Seats two after)
    (live : ∀ pid kin, Live two.own after pid kin → ∃ former, Live one.own before pid former ∧
      Inherits one before former kin)
    (stored : ∀ pid process child, after.processes pid = some process →
      process.state = .blocked (.vfork child) → Hopes before process child)
    (held : ∀ cpu process child, (after.cpus cpu).activity.held = some process →
      (after.cpus cpu).activity.awaits = some child → Hopes before process child)
    (stays : Stays before after) (coming : ∀ own, one.coming = some own →
      two.coming = some own ∨ before.journal.length < after.journal.length) :
    Vforked two after := by
  obtain ⟨events, journal, nobody⟩ := id stays
  have longer : before.journal.length ≤ after.journal.length := by
    rw [journal, length_append]
    omega
  have same (serial : Nat) : .left serial ∈ after.journal ↔ .left serial ∈ before.journal := by
    rw [journal, mem_append]
    exact or_iff_right (nobody serial)
  constructor
  · exact keyed
  · exact seated
  · intro pid kin lives
    obtain ⟨former, lived, inherits⟩ := live pid kin lives
    have old (below : former.serial < before.journal.length) : kin.serial < after.journal.length :=
      (inherits.serial.trans_lt below).trans_le longer
    rcases vforked.serials pid former lived with below | ⟨own, bound⟩
    · exact .inl (old below)
    rcases inherits.vforkParent with gone | parent
    · exact .inl (old (vforked.lefts _ gone))
    rcases inherits.vforkChild with child | ⟨below, -⟩
    · have unchanged : kin = former := by rw [inherits.same, parent, child]
      subst unchanged
      rcases coming kin own with still | grown
      · exact .inr ⟨still, bound.trans longer⟩
      · exact .inl (bound.trans_lt grown)
    · exact .inl (old below)
  · intro pid kin serial child lives known
    obtain ⟨former, lived, inherits⟩ := live pid kin lives
    have young (own : Kin) (came : one.coming = some own) : own.serial < after.journal.length ∨
        ∃ other, two.coming = some other ∧ other.serial = own.serial := by
      rcases coming own came with still | grown
      · exact .inr ⟨own, still, rfl⟩
      · left
        rcases vforked.serials _ own (.flying (Flight.own_of_coming came) rfl) with
          below | ⟨-, bound⟩
        · exact below.trans_le longer
        · exact bound.trans_lt grown
    rcases inherits.vforkChild with same | ⟨-, own, came, -, new, -⟩
    · rcases vforked.children pid former serial child lived (same.symm.trans known) with
        below | ⟨own, came, rfl⟩
      · exact .inl (below.trans_le longer)
      · exact young own came
    · cases known.symm.trans new
      exact young own came
  · intro serial gone
    exact (vforked.lefts serial ((same serial).mp gone)).trans_le longer
  · intro pid parent other child number lives bears known
    obtain ⟨older, lived, waits⟩ := live pid parent lives
    obtain ⟨former, born, leaves⟩ := live other child bears
    rw [same]
    exact vforked.family_of_inherits lived waits born leaves known
  · exact fun pid process child found blocked => (stored pid process child found blocked).mono stays
  · exact fun cpu process child holds awaits => (held cpu process child holds awaits).mono stays

/-- Processes stay where they are. -/
theorem of_stands (stands : Stands before after)
    (stays : Stays before after) (sheds : one.Sheds two) : Vforked two after := by
  refine vforked.of_inherits (stands.keyed vforked.keyed)
    (vforked.seated.of_stands stands sheds.going)
    (fun _ kin lives => ⟨kin, lives.of_stands stands sheds.own, .refl _ _ _⟩) ?_ ?_ stays
    fun own came => .inl (sheds.coming own came)
  · intro pid process child found blocked
    obtain ⟨former, known, kin, state⟩ := stands.blocked found blocked fun _ _ _ => nofun
    exact (vforked.stored pid former child known state).of_kin kin
  · intro cpu process child held awaits
    obtain ⟨former, holds, kin⟩ := (stands.goesOn cpu).exists_former held
    exact (vforked.held cpu former child holds ((stands.goesOn cpu).awaits child awaits)).of_kin kin

/-- Processes are woken and signalled. -/
theorem of_stirs {calm : Prop} (stirs : Stirs calm before after) : Vforked one after :=
  vforked.of_stands stirs.stands stirs.stays (.refl _)

/-- The tables of processes and processors are the same. -/
theorem of_eq (stays : Stays before after) (same : after.standing = before.standing) :
    Vforked one after :=
  vforked.of_stands (.of_eq same) stays (.refl _)

theorem of_notes (notes : Notes before after) (sheds : one.Sheds two) : Vforked two after :=
  vforked.of_stands notes.stands notes.stays sheds

/-- A process comes into the table. -/
theorem store (flies : one.own = some process.kin)
    (hopes : ∀ child, process.state = .blocked (.vfork child) → Hopes before process child)
    (coming : ∀ own, one.coming = some own → before.journal.length < after.journal.length)
    (same : after.standing = (before.store process.pid process).standing)
    (stays : Stays before after) : Vforked .home after := by
  have stored : Stands (before.store process.pid process) after := .of_eq same
  obtain ⟨processes, activity⟩ := Prod.mk.inj same
  refine vforked.of_inherits ?_ ?_ (fun _ kin lives =>
    ⟨kin, (lives.of_stands stored fun _ => id).of_store flies, .refl _ _ _⟩) ?_
      (fun cpu => ?_) stays
    fun own came => .inr (coming own came)
  · intro pid stored present
    rw [processes] at present
    rcases found_store present with ⟨rfl, rfl⟩ | ⟨-, known⟩
    · rfl
    · exact vforked.keyed pid stored known
  · exact Seats.of_stands stored (fun _ => id) ⟨vforked.seated.seats, nofun⟩
  · intro pid stored child present blocked
    rw [processes] at present
    rcases found_store present with ⟨-, rfl⟩ | ⟨-, known⟩
    · exact hopes child blocked
    · exact vforked.stored pid stored child known blocked
  · rw [congrFun activity cpu]
    exact vforked.held cpu

omit vforked in
theorem drop (vforked : Vforked .home before) (found : before.processes process.pid = some process)
    (idle : (before.cpus process.assignedCpu).activity = .idle) :
    Vforked (.away process.kin) (before.drop process.pid) := by
  refine vforked.of_inherits ?_ ⟨vforked.seated.seats, ?_⟩
    (fun _ kin lives => ⟨kin, lives.of_drop found, .refl _ _ _⟩) ?_ vforked.held (.of_eq rfl) nofun
  · exact fun pid stored present => vforked.keyed pid stored (found_drop present).2
  · rintro _ ⟨⟩
    exact congrArg Activity.held idle
  · exact fun pid stored child present => vforked.stored pid stored child (found_drop present).2

/-- A processor takes up something else. -/
theorem turn {cpu : Nat} {activity : Activity}
    (seated : Seats two (before.setActivity cpu activity))
    (own : ∀ kin, two.own = some kin → Live one.own before kin.pid kin)
    (held : ∀ process, activity.held = some process →
      (∀ child, activity.awaits = some child → Hopes before process child) ∧
      ∃ former, Live one.own before process.kin.pid former ∧ Inherits one before former process.kin)
    (coming : ∀ own, one.coming = some own → two.coming = some own) :
    Vforked two (before.setActivity cpu activity) := by
  refine vforked.of_inherits vforked.keyed seated ?_ vforked.stored ?_ (.of_eq rfl)
    fun own came => .inl (coming own came)
  · intro pid kin lives
    rcases lives.of_turn with lived | ⟨flies, rfl⟩ | ⟨process, holds, rfl, rfl⟩
    · exact ⟨kin, lived.mono nofun, .refl _ _ _⟩
    · exact ⟨kin, own kin flies, .refl _ _ _⟩
    · exact (held process holds).2
  · intro index process child holds awaits
    by_cases here : index = cpu
    · subst here
      rw [cpus_setActivity_self] at holds awaits
      exact (held process holds).1 child awaits
    · rw [cpus_setActivity_of_ne _ here] at holds awaits
      exact vforked.held index process child holds awaits

omit vforked in
/-- A process is made that has no child to wait for. -/
theorem bear (vforked : Vforked .home before)
    (young : child.serial = before.journal.length) (barren : child.vforkChild = none) :
    Vforked (.unborn child) before := by
  refine { vforked with serials := ?_, children := ?_, family := ?_, seated := ?_ }
  · exact ⟨vforked.seated.seats, nofun⟩
  · intro pid kin lives
    rcases lives.of_some with ⟨rfl, -⟩ | lived
    · exact .inr ⟨rfl, young.le⟩
    · exact (vforked.serials pid kin lived).imp_right fun ⟨comes, _⟩ => nomatch comes
  · intro pid kin serial number lives known
    rcases lives.of_some with ⟨rfl, -⟩ | lived
    · nomatch barren.symm.trans known
    · exact (vforked.children pid kin serial number lived known).imp_right
        fun ⟨_, comes, _⟩ => nomatch comes
  intro pid parent other kin number lives bears known
  rcases lives.of_some with ⟨rfl, -⟩ | lived
  · nomatch barren.symm.trans known
  · rcases bears.of_some with ⟨rfl, -⟩ | born
    · rcases vforked.children pid parent _ number lived known with below | ⟨_, comes, -⟩
      · omega
      · nomatch comes
    · exact vforked.family pid parent other kin number lived born known

/-- A process leaves for which nobody waits. -/
theorem note (serial : Nat) (rest : after = { before with journal := after.journal })
    (journal : ∀ event, event ∈ after.journal ↔ event = .left serial ∨ event ∈ before.journal)
    (longer : before.journal.length ≤ after.journal.length) (bound : serial < before.journal.length)
    (stored : ∀ pid process child, before.processes pid = some process →
      process.state = .blocked (.vfork child) → process.vforkChild ≠ some (serial, child))
    (held : ∀ cpu process child, (before.cpus cpu).activity.held = some process →
      (before.cpus cpu).activity.awaits = some child →
      process.vforkChild ≠ some (serial, child)) : Vforked one after := by
  have processes : after.processes = before.processes := by rw [rest]
  have cpus : after.cpus = before.cpus := by rw [rest]
  have stands : Stands before after := .of_eq (by rw [rest]; rfl)
  have live {pid : Pid} {kin : Kin} (lives : Live one.own after pid kin) :
      Live one.own before pid kin := lives.of_stands stands fun _ => id
  have hopes {process : KernelProcess} {child : Pid} (hopes : Hopes before process child)
      (other : process.vforkChild ≠ some (serial, child)) : Hopes after process child := by
    obtain ⟨number, known, still⟩ := hopes
    refine ⟨number, known, ?_⟩
    rw [journal]
    rintro (same | gone)
    · cases same
      exact other known
    · exact still gone
  constructor
  · exact stands.keyed vforked.keyed
  · exact vforked.seated.of_stands stands fun _ => id
  · intro pid kin lives
    rcases vforked.serials pid kin (live lives) with below | ⟨came, limit⟩
    · exact .inl (below.trans_le longer)
    · exact .inr ⟨came, limit.trans longer⟩
  · intro pid kin number child lives known
    exact (vforked.children pid kin number child (live lives) known).imp_left
      fun below => below.trans_le longer
  · intro number gone
    rcases (journal _).mp gone with same | gone
    · cases same
      exact bound.trans_le longer
    · exact (vforked.lefts number gone).trans_le longer
  · intro pid parent other child number lives bears known
    obtain ⟨named, place, vfork⟩ :=
      vforked.family pid parent other child number (live lives) (live bears) known
    exact ⟨named, place, vfork.imp_left fun gone => (journal _).mpr (.inr gone)⟩
  · intro pid process child found blocked
    rw [processes] at found
    exact hopes (vforked.stored pid process child found blocked)
      (stored pid process child found blocked)
  · intro cpu process child holds awaits
    rw [cpus] at holds awaits
    exact hopes (vforked.held cpu process child holds awaits) (held cpu process child holds awaits)

/-- The parent of the process that leaves is not blocked for it afterwards, and
it is not about to block, because it would be on the same processor. -/
theorem departs {own : Kin} (lives : Live one.own before own.pid own)
    (bound : own.serial < before.journal.length)
    (elsewhere : (before.cpus own.assignedCpu).activity.awaits = none)
    (departs : Departs own (before.record (.left own.serial)) after) : Vforked one after := by
  have stirs := departs.wakes.stirs True
  obtain ⟨events, journal, minor⟩ := stirs.journal
  -- The same updates on a machine on which nobody leaves.
  have quiet : Stirs True before { after with journal := events ++ before.journal } :=
    { stirs with journal := ⟨events, rfl, minor⟩ }
  have staying := vforked.of_stirs quiet
  have still : Live one.own { after with journal := events ++ before.journal } own.pid own := by
    cases lives with
    | stored found same =>
      obtain ⟨now, present, touched⟩ := quiet.exists_touched found
      refine .stored present (Eq.trans ?_ same)
      rw [touched.rest]
      rfl
    | held held same =>
      exact .held ((congrArg Activity.held (quiet.activity _)).trans held) same rfl
    | flying flies => exact .flying flies rfl
  refine staying.note own.serial rfl ?_ ?_ ?_ ?_ ?_
  · rw [journal]
    simp only [record, mem_append, mem_cons]
    tauto
  · rw [journal]
    simp [record]
  · simp only [length_append]
    omega
  · intro pid process child found blocked known
    obtain ⟨serial, same, here⟩ := staying.stored pid process child found blocked
    cases known.symm.trans same
    obtain ⟨rfl, -, gone | vfork⟩ :=
      staying.family pid process.kin _ own child (.stored found rfl) still same
    · exact here gone
    · rw [show process.kin.pid = pid from staying.keyed pid process found] at vfork
      exact departs.freed pid process vfork found blocked
  · intro cpu process child holds awaits known
    obtain ⟨-, place, -⟩ :=
      staying.family _ process.kin _ own child (.held holds rfl rfl) still known
    have seat := staying.seated.seats cpu process holds
    have where_ : own.assignedCpu = cpu := place.trans seat
    subst where_
    have waits : (before.cpus own.assignedCpu).activity.awaits = some child :=
      (congrArg Activity.awaits (stirs.activity _)).symm.trans awaits
    cases elsewhere.symm.trans waits

end Vforked

open Kernel in
theorem vforked_follows {own : Kin} {losing : Prop} {one two : Flight}
    (follows : Follows own losing one two before after) (vforked : Vforked one before) :
    Vforked two after := by
  induction follows with
  | wakes wakes => exact vforked.of_stirs (wakes.stirs True)
  | trans _ _ earlier later => exact later (earlier vforked)
  | aside aside => exact vforked.of_eq (.of_eq aside.journal) aside.standing
  | signal kernel pid info => exact vforked.of_stirs (stirs_signalProcess kernel pid info)
  | hear | arm => exact vforked.of_eq (.of_eq rfl) rfl
  | queue tells free =>
    exact vforked.of_stands (.of_eq rfl) ⟨[_], rfl, by simp⟩ tells.sheds
  | pass tells found watches unmatched =>
    exact vforked.of_stands (.of_eq rfl) ⟨[_, _], rfl, by simp⟩ tells.sheds
  | woke event found runnable => exact vforked.of_eq ⟨[_], rfl, by simp⟩ rfl
  | @hand one two _ middle parent _ _ _ _ _ _ event _ _ wakes _ _ tells =>
    have told : Vforked one (middle.record (.woke parent event)) :=
      (vforked.of_stirs (wakes.stirs True)).of_eq ⟨[_], rfl, by simp⟩ rfl
    exact told.of_notes (notes_handOver _ _ _) tells.sheds
  | enlist kernel =>
    exact vforked.of_stands (.of_eq rfl) (.of_eq rfl)
      ⟨fun _ => id, fun _ => id, fun _ => id⟩
  | link kernel coming => cases own.parent <;> exact vforked.of_eq (.of_eq rfl) rfl
  | born same runnable =>
    subst same
    rw [insertProcess, record_enqueueRunnablePid]
    refine Vforked.of_stirs ?_ (stirs_enqueueRunnablePid True _ _ _)
    exact vforked.store rfl (Hopes.of_runnable runnable) (fun _ _ => Nat.lt_succ_self _) rfl
      ⟨[_], rfl, by simp⟩
  | drop found same idle =>
    subst same
    exact vforked.drop found idle
  | store same runnable =>
    subst same
    exact vforked.store rfl (Hopes.of_runnable runnable) (fun _ came => nomatch came) rfl
      (.of_eq rfl)
  | lost kernel => exact vforked.of_notes (.refl kernel) (.of_own rfl rfl)
  | exits kernel status =>
    exact vforked.of_stirs (stirs_beginThreadGroupExit True kernel _ _ status)
  | leaves departs =>
    refine Vforked.of_stirs ?_ (stirs_untrackThreadGroup True _ _ _)
    have still := vforked.departs (.flying rfl rfl) ?_
      (Activity.awaits_of_held (vforked.seated.free _ rfl)) departs
    · exact still.of_stands (.of_eq rfl) (.of_eq rfl)
        ⟨fun _ => id, fun _ comes => (nomatch comes), fun _ => id⟩
    · exact (vforked.serials _ _ (.flying rfl rfl)).resolve_right fun ⟨comes, _⟩ => nomatch comes
  | retire kernel thread =>
    exact vforked.of_notes (kernel.notes_forget none own.pid) (.of_own rfl rfl)
  | forget kernel leader =>
    exact vforked.of_notes (kernel.notes_forget own.parent own.pid) (.of_own rfl rfl)
  | zombie kernel leader group => exact vforked.of_notes (.of_rest rfl) (.of_own rfl rfl)
  | exec kernel sighand =>
    exact vforked.of_stands (.of_map (resigned_shareActions _ _)) (.of_eq rfl) (.refl _)

namespace Vforked

open Kernel

variable {kernel : Kernel μ} {cpu : Nat} {process : KernelProcess}

theorem land {work : DispatchWork}
    (vforked : Vforked (.away process.kin) kernel) (here : process.assignedCpu = cpu) :
    Vforked .home (kernel.setActivity cpu (.dispatched work process)) := by
  refine vforked.turn (vforked.seated.land here) (nofun) ?_ nofun
  rintro _ ⟨⟩
  exact ⟨nofun, process.kin, .flying rfl rfl, .refl _ _ _⟩

variable (vforked : Vforked .home kernel)
include vforked

theorem takeOff (held : (kernel.cpus cpu).activity.held = some process) :
    Vforked (.away process.kin) (kernel.setActivity cpu .leaving) := by
  refine vforked.turn (vforked.seated.takeOff held) ?_ (fun _ none => nomatch none) nofun
  rintro _ ⟨⟩
  exact .held held rfl rfl

/-- The block of a call is recorded. -/
theorem of_blocks {step : Step μ} (blocks : Blocks kernel step after) :
    Vforked .home after := by
  obtain ⟨cpu, ready, process, block, context, timers, futexes, -, activity, rfl, -⟩ := blocks
  have held := congrArg Activity.held activity
  have flown := vforked.takeOff held
  have flies : (Flight.away process.kin).own = some { process with
        kernelContext := some context, wakeResult := none, state := .blocked block }.kin := rfl
  refine flown.store flies ?_ (nofun) rfl (.of_eq rfl)
  rintro child ⟨⟩
  exact vforked.held cpu process child held (congrArg Activity.awaits activity)

theorem insert {pid : Pid} {params : CloneParams} (task : Task) (assignedCpu sighand : Nat)
    (activity : (kernel.cpus cpu).activity = .kernel process (.cloning pid))
    (valid : params.validate) :
    Vforked (.unborn (cloneChild kernel.journal.length process params pid task assignedCpu
      sighand).kin) (kernel.setActivity cpu (cloned process params kernel.journal.length pid)) := by
  have held := congrArg Activity.held activity
  have seat := vforked.seated.seats cpu process held
  have borne : Vforked (.unborn
    (cloneChild kernel.journal.length process params pid task assignedCpu
      sighand).kin) kernel := vforked.bear rfl rfl
  refine borne.turn (borne.seated.turn (fun next holds => ?_) nofun)
    (fun kin flies => .flying flies rfl) ?_ fun _ => id
  · unfold cloned at holds
    split at holds <;> cases holds <;> exact seat
  intro next holds
  cases vfork : params.isVfork with
  | false =>
    simp only [cloned, vfork] at holds ⊢
    cases holds
    exact ⟨nofun, process.kin, .held held rfl rfl, .refl _ _ _⟩
  | true =>
    simp only [cloned, vfork] at holds ⊢
    cases holds
    have old := vforked.serials _ process.kin (.held held rfl rfl)
    refine ⟨?_, process.kin, .held held rfl rfl, rfl, .inr rfl, .inr ⟨?_, _, rfl, rfl, rfl, ?_, ?_⟩⟩
    · rintro child ⟨⟩
      exact ⟨_, rfl, fun gone => (vforked.lefts _ gone).false⟩
    · exact old.resolve_right fun ⟨comes, _⟩ => nomatch comes
    · -- A child that shares the memory is assigned to the same processor.
      exact if_pos (params.sharesVm_of_validate valid (.inr vfork))
    · exact if_pos vfork

/-- A process has replaced its program, and has no parent that waits for it. -/
theorem execve (task : Task) (activity : (kernel.cpus cpu).activity = .kernel process .running)
    (departs : Departs process.kin (kernel.record (.left process.serial)) after) :
    Vforked .home (after.setActivity cpu
      (.kernel { process with pendingExec := some task, vforkParent := none } .running)) := by
  have held := congrArg Activity.held activity
  have seat : process.kin.assignedCpu = cpu := vforked.seated.seats cpu process held
  have stirs := departs.wakes.stirs True
  have still := vforked.departs (.held held rfl rfl) ?_ ?_ departs
  · have holds : (after.cpus cpu).activity.held = some process :=
      (congrArg Activity.held (stirs.activity cpu)).trans held
    refine still.turn (still.seated.keep holds rfl) (nofun) ?_ fun _ => id
    rintro _ ⟨⟩
    refine ⟨nofun, process.kin, .held holds rfl rfl, rfl, .inl ?_, .inl rfl⟩
    obtain ⟨events, journal, -⟩ := stirs.journal
    rw [journal]
    exact mem_append_right _ (mem_cons_self ..)
  · exact (vforked.serials _ process.kin (.held held rfl rfl)).resolve_right
      fun ⟨comes, _⟩ => nomatch comes
  · rw [seat, activity]
    rfl

theorem keeps [UserSpaces μ] (step : Step μ) :
    Keeps True Vforked kernel step where
  follows _ _ _ _ _ := vforked_follows
  shows _ _ := vforked.of_eq (.of_eq rfl) (Prod.ext rfl (funext (activity_setCurrent _ _ _)))
  passes _ _ _ _ passes holds := holds.of_stands passes.stands (.of_eq passes.journal) (.refl _)
  resigns _ resigned := vforked.of_stands (.of_map resigned) (.of_eq rfl) (.refl _)
  regroups _ regroups :=
    vforked.of_stands regroups.stands (.of_eq (by rw [regroups.rest])) (.refl _)
  looks _ _ _ _ _ _ := vforked.of_notes (notes_waitChildEvent _ _ _ _ _) (.refl _)
  allocates cpu process pid next _ _ activity _ := by
    have counted : Vforked .home { kernel with nextPid := next } :=
      vforked.of_eq (.of_eq rfl) rfl
    have held := congrArg Activity.held activity
    refine counted.turn (counted.seated.keep held rfl) (nofun) ?_ fun _ => id
    rintro _ ⟨⟩
    exact ⟨nofun, process.kin, .held held rfl rfl, .refl _ _ _⟩
  goesOn _ _ _ goes holds := holds.of_stands (.of_turn goes) (.of_eq rfl) (.refl _)
  takeOff _ _ := vforked.takeOff
  land _ _ _ _ _ here _ flown := flown.land here
  insert _ _ _ _ task assignedCpu sighand _ activity valid :=
    vforked.insert task assignedCpu sighand activity valid
  spawn _ _ _ _ _ := by
    have counted : Vforked .home { kernel with nextPid := min (kernel.nextPid + 1) (2 ^ 32 - 1) } :=
      vforked.of_eq (.of_eq rfl) rfl
    exact counted.bear rfl rfl
  execve _ _ task _ activity := vforked.execve task activity (departs_wakeVforkParent _ _)

omit vforked in
theorem start (cpuCount : Nat) (spaces : Nat → μ) : Vforked .home (new cpuCount spaces) := by
  constructor
  · exact fun _ _ found => nomatch found
  · exact ⟨fun _ _ held => (nomatch held), nofun⟩
  · exact fun pid kin lives => (Live.not_new pid kin lives).elim
  · exact fun pid kin _ _ lives => (Live.not_new pid kin lives).elim
  · exact nofun
  · exact fun pid parent _ _ _ lives => (Live.not_new pid parent lives).elim
  · exact fun _ _ _ found => nomatch found
  · exact fun _ _ _ held => nomatch held

end Vforked

/-! ## Runs -/

namespace Kernel

theorem vforked_moves [UserSpaces μ] {kernel : Kernel μ} {step : Step μ}
    (sound : Sound kernel) (moves : Moves kernel step after) (vforked : Vforked .home kernel) :
    Vforked .home after := by
  rcases (vforked.keeps step).moves sound.keyed sound.running (fun _ => trivial) vforked moves with
    still | blocks
  · exact still
  · exact vforked.of_blocks blocks

/-- A parent that is blocked for the child of its `vfork` waits for a child that
has neither replaced its program nor been reaped. -/
theorem vfork_parent_woken [UserSpaces μ] {cpuCount : Nat} {spaces : Nat → μ}
    {labels : List (Step μ × List Event)} {kernel : Kernel μ}
    (run : Run Performs (new cpuCount spaces) labels kernel) (pid child : Pid)
    (process : KernelProcess) (found : kernel.processes pid = some process)
    (blocked : process.state = .blocked (.vfork child)) :
    ∃ serial, process.vforkChild = some (serial, child) ∧ .left serial ∉ kernel.journal := by
  have holds := invariant_of_run (run.mono fun _ _ _ performs => ⟨trivial, performs⟩)
    (fun sound vforked _ _ moves => vforked_moves sound moves vforked) (.start cpuCount spaces)
  exact holds.2.stored pid process child found blocked

def vfork : CloneParams :=
  ⟨false, false, true, false, true, none⟩

/-- It makes a child by `vfork` and waits for it. -/
def vforkSteps : List (Step (BitVec 64 → Byte)) :=
  [.allocate 0 none, .insert 0 vfork (program 0x400000 1) 1 1, .vforkWait 0, .finishBlock 0 false]

/-- The child is in the run queue of the first processor, and the parent waits. -/
theorem vfork_parent_woken_waits : ∃ labels last process, Run Performs (blank 2) labels last ∧
      labels.map Prod.fst = callSteps ++ vforkSteps ∧
      last.processes 1 = some process ∧ process.state = .blocked (.vfork 2) ∧
      (last.cpus 0).runQueue = [2] ∧
      ∃ serial, process.vforkChild = some (serial, 2) ∧ .left serial ∉ last.journal := by
  have found : ((blank 2).performAll (callSteps ++ vforkSteps)).map (fun last =>
      ((last.processes 1).map (·.state), (last.cpus 0).runQueue)) =
        some (some (.blocked (.vfork 2)), [2]) := by
    rfl
  obtain ⟨labels, last, same, run, values⟩ := exists_run found
  rw [Prod.mk.injEq, Option.map_eq_some_iff] at values
  obtain ⟨⟨process, stored, blocked⟩, queued⟩ := values
  exact ⟨labels, last, process, run, same, stored, blocked, queued,
    vfork_parent_woken run 1 2 process stored blocked⟩

end Kernel

end AetherKernel.Sched
