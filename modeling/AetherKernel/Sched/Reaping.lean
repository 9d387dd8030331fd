import AetherKernel.Sched.ChildWaitRuns
import AetherKernel.Sched.Places

/-!
# Every exit is reaped once

The exit of a child is reported by one event, which goes with the zombie.  When
the event is taken, the zombie and the link of the child go with it, and nothing
is left that could tell a parent of the child again.
-/

namespace AetherKernel.Sched

open Lib Signal Std Function Option List Activity Flight

variable {μ : Type} {before after kernel start : Kernel μ} {event : ChildEvent} {one two : Flight}
  {pid : Pid}

/-! ## What has happened -/

/-- The exit of the child has been taken, and the pid has not been used again. -/
def spent (child : Pid) : List Event → Bool
  | [] => false
  | .created pid :: rest => decide (pid ≠ child) && spent child rest
  | .consumed _ ⟨pid, .exited _⟩ :: rest => decide (pid = child) || spent child rest
  | _ :: rest => spent child rest

/-- The descriptor of the child has been marked, and the pid has not been used
again. -/
def marked (child : Pid) : List Event → Bool
  | [] => false
  | .created pid :: rest => decide (pid ≠ child) && marked child rest
  | .marked pid :: rest => decide (pid = child) || marked child rest
  | _ :: rest => marked child rest

/-- A wait has returned an event of the child. -/
def Event.Tells (child : Pid) : Event → Prop
  | .consumed _ event | .seen _ event => event.pid = child
  | _ => False

/-- No wait has returned an event of a child after its exit. -/
def Silent : List Event → Prop
  | [] => True
  | event :: rest => (∀ child, event.Tells child → spent child rest = false) ∧ Silent rest

/-- No wait returns, and no pid is used. -/
def Event.Mute : Event → Prop
  | .created _ | .consumed _ _ | .seen _ _ => False
  | _ => True

section Journal

variable {events journal : List Event}

theorem Silent.of_append (silent : Silent (events ++ journal)) : Silent journal := by
  induction events with
  | nil => exact silent
  | cons event rest ih => exact ih silent.2

theorem Event.Minor.mute {event : Event} (minor : event.Minor) : event.Mute := by
  cases event with
  | counted | notified => trivial
  | created | reaped | queued | passed | woke | consumed | seen | marked | left =>
    exact minor.elim

end Journal

/-! ## Who knows of a child -/

/-- What there is of a process, and who its parent is. -/
inductive Parentage (flight : Flight) (kernel : Kernel μ) (pid : Pid) (parent : Option Pid) : Prop
  | lives {kin : Kin} (lives : Live flight.own kernel pid kin) (known : kin.parent = parent)
  | zombie {zombie : ZombieProcess} (found : kernel.zombies pid = some zombie)
      (known : zombie.parent = parent)

/-- Nothing is left of a child, unless its pid is about to be used again. -/
structure Gone (flight : Flight) (kernel : Kernel μ) (child : Pid) : Prop where
  nowhere : ∀ parent, Parentage flight kernel child parent →
    ∃ own, flight.coming = some own ∧ own.pid = child
  links : ∀ parent, child ∈ kernel.parentChildren parent →
    ∃ own, flight.coming = some own ∧ own.pid = child
  events : ∀ parent, ∀ event ∈ kernel.childEvents parent, event.pid ≠ child
  marked : marked child kernel.journal

/-- The exit of the child. -/
def exitOf (child : Pid) (event : ChildEvent) : Bool :=
  event.pid = child && match event.kind with
    | .exited _ => true
    | .stopped _ | .continued => false

/-- The parent is blocked in a `wait4`. -/
def InWait4 (kernel : Kernel μ) (parent : Pid) : Prop :=
  ∃ process selector statusPtr infoPtr options, kernel.processes parent = some process ∧
    process.state = .blocked (.waitChild selector .wait4 statusPtr infoPtr options)

/-- Each exit that is told of comes from one zombie. -/
structure Reports (flight : Flight) (kernel : Kernel μ) : Prop where
  exits : ∀ parent child status, ⟨child, .exited status⟩ ∈ kernel.childEvents parent →
    (∃ zombie, kernel.zombies child = some zombie ∧ zombie.parent = some parent) ∧
      ∀ own, flight = .dead own → own.pid ≠ child
  once : ∀ parent child, ((kernel.childEvents parent).filter (exitOf child)).length ≤ 1
  dead : ∀ own, flight = .dead own →
    ∃ zombie, kernel.zombies own.pid = some zombie ∧ zombie.parent = own.parent

/-- Zombies, events and links belong together; `start` is where the step began. -/
structure Reaping (start : Kernel μ) (flight : Flight) (kernel : Kernel μ) : Prop
    extends Reports flight kernel where
  places : Places flight kernel
  waits : ∀ parent, InWait4 kernel parent → InWait4 start parent
  links : ∀ parent child, child ∈ kernel.parentChildren parent → child < kernel.nextPid ∧
    ∀ known, Parentage flight kernel child known → known = some parent
  reserved : ∀ cpu pid, (kernel.cpus cpu).activity.reserves = some pid →
    ∀ parent, pid ∉ kernel.parentChildren parent
  past : ∀ child, spent child kernel.journal → Gone flight kernel child
  silent : Silent kernel.journal
  grown : start.journal <:+ kernel.journal

/-- No wait has returned an event of a child that is over, and no exit has been
taken. -/
structure Hushed (before after : List Event) : Prop where
  spent : ∀ child, Sched.spent child after = Sched.spent child before
  marked : ∀ child, Sched.marked child before → Sched.marked child after
  silent : Silent before → Silent after
  suffix : before <:+ after

theorem Hushed.cons {event : Event} (mute : event.Mute) (journal : List Event) :
    Hushed journal (event :: journal) := by
  cases event with
  | created | consumed | seen => exact mute.elim
  | marked pid =>
    refine ⟨fun _ => rfl, fun child known => ?_, fun silent => ⟨fun _ tells => tells.elim, silent⟩,
      suffix_cons _ _⟩
    rw [Sched.marked, known, Bool.or_true]
  | reaped | queued | passed | woke | notified | counted | left =>
    exact ⟨fun _ => rfl, fun _ known => known, fun silent => ⟨fun _ tells => tells.elim, silent⟩,
      suffix_cons _ _⟩

theorem Hushed.of_mute {earlier later : List Event} (events : List Event)
    (journal : later = events ++ earlier) (mute : ∀ event ∈ events, event.Mute) :
    Hushed earlier later := by
  subst journal
  induction events with
  | nil => exact ⟨fun _ => rfl, fun _ known => known, fun silent => silent, suffix_rfl⟩
  | cons event rest ih =>
    obtain ⟨first, others⟩ := forall_mem_cons.mp mute
    have older := ih others
    have newer := Hushed.cons first (rest ++ earlier)
    exact ⟨fun child => (newer.spent child).trans (older.spent child),
      fun child known => newer.marked child (older.marked child known),
      fun silent => newer.silent (older.silent silent), older.suffix.trans newer.suffix⟩

theorem Hushed.of_eq {earlier later : List Event} (journal : later = earlier) :
    Hushed earlier later :=
  .of_mute [] journal fun _ member => nomatch member

theorem hushed_seen (parent : Pid) (early : spent event.pid kernel.journal = false) :
    Hushed kernel.journal (.seen parent event :: kernel.journal) := by
  constructor
  · exact fun child => rfl
  · exact fun child known => known
  · refine fun silent => ⟨fun child tells => ?_, silent⟩
    cases tells
    exact early
  · exact suffix_cons _ _

/-- A wait has returned an event of a child that lives. -/
theorem hushed_consumed (parent : Pid) (lives : ∀ status, event.kind ≠ .exited status)
    (early : spent event.pid kernel.journal = false) :
    Hushed kernel.journal (.consumed parent event :: kernel.journal) := by
  have seen := hushed_seen parent early
  refine ⟨fun child => ?_, seen.marked, seen.silent, suffix_cons _ _⟩
  obtain ⟨pid, kind⟩ := event
  cases kind with
  | exited status => exact absurd rfl (lives status)
  | stopped | continued => rfl

theorem Parentage.mono {parent : Option Pid} (here : Parentage two after pid parent)
    (live : ∀ pid kin, Live two.own after pid kin → Live one.own before pid kin)
    (zombies : after.zombies = before.zombies) : Parentage one before pid parent := by
  cases here with
  | lives lives known => exact .lives (live pid _ lives) known
  | zombie found known => exact .zombie (zombies ▸ found) known

/-- Where a process is that exists. -/
theorem Live.exists_place {kin : Kin} (lives : Live one.own kernel pid kin) :
    ∃ place, At one.pid kernel pid place ∧ place ≠ .zombie ∧
      (place = .flight → one.own = some kin) := by
  cases lives with
  | stored found => exact ⟨.table, isSome_iff_exists.mpr ⟨_, found⟩, nofun, nofun⟩
  | held held same number =>
    subst same
    exact ⟨.cpu _, ⟨_, held, number⟩, nofun, nofun⟩
  | flying flies number =>
    subst number
    exact ⟨.flight, congrArg (Option.map Kin.pid) flies, nofun, fun _ => flies⟩

namespace Places

variable {own : Kin} (places : Places one kernel)
include places

/-- What is in flight is nowhere else. -/
theorem eq_own {kin : Kin} (flies : one.own = some own) (lives : Live one.own kernel own.pid kin) :
    kin = own := by
  obtain ⟨place, here, -, known⟩ := lives.exists_place
  have flight : At one.pid kernel own.pid .flight := congrArg (Option.map Kin.pid) flies
  exact Option.some.inj ((known (places.unique _ _ _ here flight)).symm.trans flies)

theorem absent (flies : one.own = some own) : kernel.processes own.pid = none := by
  by_contra present
  have flight : At one.pid kernel own.pid .flight := congrArg (Option.map Kin.pid) flies
  have stored : At one.pid kernel own.pid .table := isSome_iff_ne_none.mpr present
  nomatch places.unique _ _ _ flight stored

theorem no_zombie {kin : Kin} (lives : Live one.own kernel pid kin) :
    kernel.zombies pid = none := by
  by_contra present
  obtain ⟨place, here, alive, -⟩ := lives.exists_place
  have dead : At one.pid kernel pid .zombie := isSome_iff_ne_none.mpr present
  exact alive (places.unique _ _ _ here dead)

end Places

/-- No exit is new. -/
theorem Reports.mono (reports : Reports one before)
    (dead : ∀ own, two = .dead own → one = .dead own) (zombies : after.zombies = before.zombies)
    (events : ∀ parent, (after.childEvents parent).Sublist (before.childEvents parent)) :
    Reports two after := by
  constructor
  · intro parent child status queued
    obtain ⟨zombie, other⟩ := reports.exits parent child status ((events parent).subset queued)
    rw [zombies]
    exact ⟨zombie, fun own flies => other own (dead own flies)⟩
  · exact fun parent child =>
      ((events parent).filter (exitOf child)).length_le.trans (reports.once parent child)
  · intro own flies
    rw [zombies]
    exact reports.dead own (dead own flies)

theorem inWait4_of_stands (stands : Stands before after) {parent : Pid}
    (waiting : InWait4 after parent) : InWait4 before parent := by
  obtain ⟨process, selector, statusPtr, infoPtr, options, found, blocked⟩ := waiting
  obtain ⟨former, known, -, same⟩ := stands.blocked found blocked fun _ _ _ => nofun
  exact ⟨former, selector, statusPtr, infoPtr, options, known, same⟩

namespace Reaping

open Kernel

variable (reaping : Reaping start one before)

include reaping

/-- Processes go, and no parent is told of a child that is over. -/
theorem mono (places : Places two after) (reports : Reports two after)
    (waits : ∀ parent, InWait4 after parent → InWait4 start parent)
    (parentage : ∀ pid parent, Parentage two after pid parent → Parentage one before pid parent)
    (coming : ∀ own, one.coming = some own → two.coming = some own)
    (events : ∀ parent, ∀ event ∈ after.childEvents parent, event ∈ before.childEvents parent ∨
      spent event.pid before.journal = false)
    (links : ∀ parent child, child ∈ after.parentChildren parent →
      child ∈ before.parentChildren parent)
    (reserves : ∀ cpu pid, (after.cpus cpu).activity.reserves = some pid →
      (before.cpus cpu).activity.reserves = some pid ∨ ∀ parent, pid ∉ before.parentChildren parent)
    (nextPid : before.nextPid ≤ after.nextPid) (hushed : Hushed before.journal after.journal) :
    Reaping start two after := by
  have still {child : Pid} : (∃ own, one.coming = some own ∧ own.pid = child) →
      ∃ own, two.coming = some own ∧ own.pid = child :=
    fun ⟨own, comes, same⟩ => ⟨own, coming own comes, same⟩
  refine ⟨reports, places, waits, fun parent child linked => ?_,
    fun cpu pid reserved parent linked => ?_,
    fun child past => ?_, hushed.silent reaping.silent, reaping.grown.trans hushed.suffix⟩
  · obtain ⟨bound, known⟩ := reaping.links parent child (links parent child linked)
    exact ⟨bound.trans_le nextPid, fun other here => known other (parentage child other here)⟩
  · rcases reserves cpu pid reserved with earlier | unlinked
    · exact reaping.reserved cpu pid earlier parent (links parent pid linked)
    · exact unlinked parent (links parent pid linked)
  rw [hushed.spent] at past
  obtain ⟨nowhere, unlinked, untold, noted⟩ := reaping.past child past
  constructor
  · exact fun parent here => still (nowhere parent (parentage child parent here))
  · exact fun parent linked => still (unlinked parent (links parent child linked))
  · intro parent event queued
    rcases events parent event queued with earlier | early
    · exact untold parent event earlier
    · rintro rfl
      nomatch early.symm.trans past
  · exact hushed.marked child noted

/-- Nobody has moved, and some links and events are gone. -/
theorem of_stands (places : Places two after) (stands : Stands before after)
    (sheds : one.Sheds two) (dead : ∀ own, two = .dead own → one = .dead own)
    (hushed : Hushed before.journal after.journal) (zombies : after.zombies = before.zombies)
    (events : ∀ parent, (after.childEvents parent).Sublist (before.childEvents parent))
    (links : ∀ parent child, child ∈ after.parentChildren parent →
      child ∈ before.parentChildren parent)
    (nextPid : before.nextPid ≤ after.nextPid) : Reaping start two after :=
  reaping.mono places (reaping.toReports.mono dead zombies events)
    (fun parent waiting => reaping.waits parent (inWait4_of_stands stands waiting))
    (fun _ _ here => here.mono (fun _ _ lives => lives.of_stands stands sheds.own) zombies)
    sheds.coming (fun parent _ queued => .inl ((events parent).subset queued)) links
    (fun cpu pid reserved => .inl ((stands.goesOn cpu).reserves pid reserved)) nextPid hushed

/-- Only the journal and tables that are not looked at here have changed. -/
theorem stay (stands : Stands before after) (hushed : Hushed before.journal after.journal)
    (zombies : after.zombies = before.zombies) (events : after.childEvents = before.childEvents)
    (links : after.parentChildren = before.parentChildren)
    (nextPid : after.nextPid = before.nextPid) : Reaping start one after :=
  reaping.of_stands (reaping.places.stay stands zombies nextPid) stands (.refl _) (fun _ => id)
    hushed zombies (fun _ => events ▸ .refl _) (fun _ _ linked => links ▸ linked) nextPid.ge

theorem of_stirs {calm : Prop} (stirs : Stirs calm before after)
    (links : after.parentChildren = before.parentChildren) : Reaping start one after := by
  refine reaping.stay stirs.stands ?_ stirs.zombies stirs.childEvents links stirs.nextPid
  obtain ⟨events, journal, minor⟩ := stirs.journal
  exact .of_mute events journal fun event member => (minor event member).mute

theorem of_wakes {own : Pid} {moving : Prop} (wakes : Wakes own moving before after) :
    Reaping start one after :=
  reaping.of_stirs (wakes.stirs True) wakes.families.parentChildren

/-- Something is noted in the journal. -/
theorem note (events : List Event)
    (rest : after = { before with journal := events ++ before.journal })
    (mute : ∀ event ∈ events, event.Mute) : Reaping start one after := by
  rw [rest]
  exact reaping.stay (.of_eq rfl) (.of_mute events rfl mute) rfl rfl rfl rfl

/-! ## Parents are told -/

omit reaping

section Telling

variable {own : Kin} {parent child : Pid}

theorem dead_of_telling (tells : Telling own kernel parent one two event) (kin : Kin)
    (dies : two = .dead kin) : one = .dead kin := by
  cases tells with
  | child | own => exact dies
  | exit => nomatch dies

/-- The only exit that a parent is told of is that of the process itself. -/
theorem exit_of_telling {status : BitVec 32}
    (tells : Telling own kernel parent one two ⟨child, .exited status⟩) :
    one = .dead own ∧ two = .home ∧ child = own.pid ∧ own.parent = some parent := by
  cases tells with
  | child _ _ lives | own _ _ lives => exact absurd rfl (lives status)
  | exit known => exact ⟨rfl, rfl, rfl, known⟩

theorem two_of_telling (lives : ∀ status, event.kind ≠ .exited status)
    (tells : Telling own kernel parent one two event) : two = one := by
  cases tells with
  | child | own => rfl
  | exit known status => exact absurd rfl (lives status)

theorem exitOf_eq (exit : exitOf child event) : ∃ status, event = ⟨child, .exited status⟩ := by
  obtain ⟨pid, kind⟩ := event
  cases kind with
  | exited status =>
    simp only [exitOf, Bool.and_true, decide_eq_true_eq] at exit
    subst exit
    exact ⟨status, rfl⟩
  | stopped | continued => simp [exitOf] at exit

variable (tells : Telling own before parent one two event)

include reaping tells

theorem parentage_of_telling : Parentage one before event.pid (some parent) := by
  cases tells with
  | child found known => exact .lives (.stored found rfl) known
  | own same known => exact .lives (.flying rfl same.symm) known
  | exit known =>
    obtain ⟨zombie, found, same⟩ := reaping.dead own rfl
    exact .zombie found (same.trans known)

/-- What a parent is told of is not over. -/
theorem not_spent_of_telling : spent event.pid before.journal = false := by
  rw [Bool.eq_false_iff]
  intro past
  obtain ⟨other, comes, same⟩ :=
    (reaping.past event.pid past).nowhere _ (reaping.parentage_of_telling tells)
  cases tells with
  | child found =>
    rw [← same, reaping.places.absent (own_of_coming comes)] at found
    nomatch found
  | own | exit => nomatch comes

theorem reports_queue : Reports two (before.queueChildEvent parent event) := by
  constructor
  · intro other child status queued
    rcases mem_queueChildEvent queued with earlier | ⟨rfl, same⟩
    · obtain ⟨zombie, apart⟩ := reaping.exits other child status earlier
      exact ⟨zombie, fun kin dies => apart kin (dead_of_telling tells kin dies)⟩
    · subst same
      obtain ⟨rfl, rfl, rfl, known⟩ := exit_of_telling tells
      obtain ⟨zombie, found, same⟩ := reaping.dead own rfl
      exact ⟨⟨zombie, found, same.trans known⟩, nofun⟩
  · intro other child
    by_cases here : other = parent
    · subst here
      simp only [queueChildEvent, record, update_self, filter_append, length_append]
      by_cases exit : exitOf child event
      · obtain ⟨status, rfl⟩ := exitOf_eq exit
        obtain ⟨rfl, rfl, rfl, known⟩ := exit_of_telling tells
        -- The process has only just become a zombie.
        have nothing : (before.childEvents other).filter (exitOf own.pid) = [] := by
          rw [filter_eq_nil_iff]
          intro posted member again
          obtain ⟨status, rfl⟩ := exitOf_eq again
          exact (reaping.exits other own.pid status member).2 own rfl rfl
        rw [nothing, length_nil, Nat.zero_add]
        exact length_filter_le _ _
      · rw [filter_cons_of_neg exit]
        simpa using reaping.once other child
    · simp only [queueChildEvent, record, update_of_ne here]
      exact reaping.once other child
  · exact fun kin dies => reaping.dead kin (dead_of_telling tells kin dies)

theorem queue : Reaping start two (before.queueChildEvent parent event) := by
  have stands : Stands before (before.queueChildEvent parent event) := .of_eq rfl
  refine reaping.mono ?_ (reaping.reports_queue tells) reaping.waits (fun _ _ here => ?_)
    tells.sheds.coming (fun other posted queued => ?_) (fun _ _ => id) (fun _ _ => .inl)
    (Nat.le_refl _) (.of_mute [_] rfl (by simp [Event.Mute]))
  · exact reaping.places.of_same (fun _ flies => tells.pid ▸ flies) rfl rfl rfl
  · exact here.mono (fun _ _ lives => lives.of_stands stands tells.sheds.own) rfl
  · rcases mem_queueChildEvent queued with earlier | ⟨-, rfl⟩
    · exact .inl earlier
    · exact .inr (reaping.not_spent_of_telling tells)

end Telling

/-! ## Processes move -/

section Moves

variable {own : Kin} {parent : Option Pid} {child other : Pid} {process : KernelProcess}

theorem parentage_own (reaping : Reaping start one kernel)
    (flies : one.own = some own) (here : Parentage one kernel own.pid parent) :
    parent = own.parent := by
  cases here with
  | lives lives known => rw [← known, reaping.places.eq_own flies lives]
  | zombie found => nomatch (reaping.places.no_zombie (.flying flies rfl)).symm.trans found

theorem mem_trackChildLink {known : Pid}
    (linked : child ∈ (kernel.trackChildLink (some known) pid).parentChildren other) :
    known = other ∧ child = pid ∨ child ∈ kernel.parentChildren other := by
  by_cases here : other = known
  · subst here
    simp only [trackChildLink, update_self, TreeSet.mem_insert] at linked
    exact linked.imp_left fun same => ⟨rfl, (Std.compare_eq_iff_eq.mp same).symm⟩
  · simp only [trackChildLink, update_of_ne here] at linked
    exact .inr linked

/-- A child that is about to be inserted is linked to its parent. -/
theorem link (reaping : Reaping start one kernel) (comes : one.coming = some own) :
    Reaping start one (kernel.trackChildLink own.parent own.pid) := by
  have flies := own_of_coming comes
  have flight : At one.pid kernel own.pid .flight := congrArg (Option.map Kin.pid) flies
  cases known : own.parent with
  | none => exact reaping
  | some mother =>
    have back {pid : Pid} {known : Option Pid}
        (here : Parentage one (kernel.trackChildLink (some mother) own.pid) pid known) :
        Parentage one kernel pid known := here.mono (fun _ _ lives => lives.of_eq rfl) rfl
    refine { reaping with
        exits := reaping.exits
        places := reaping.places.of_same (fun _ => id) rfl rfl rfl
        links := fun parent child linked => ?_
        reserved := fun cpu pid reserved parent linked => ?_
        past := fun child past => ?_ }
    · rcases mem_trackChildLink linked with ⟨rfl, rfl⟩ | earlier
      · refine ⟨reaping.places.bounded _ .flight flight, fun other here => ?_⟩
        exact (reaping.parentage_own flies (back here)).trans known
      · obtain ⟨bound, owner⟩ := reaping.links parent child earlier
        exact ⟨bound, fun other here => owner other (back here)⟩
    · rcases mem_trackChildLink linked with ⟨-, rfl⟩ | earlier
      · exact (reaping.places.reserved cpu own.pid reserved).2.1 .flight flight
      · exact reaping.reserved cpu pid reserved parent earlier
    · obtain ⟨nowhere, unlinked, untold, noted⟩ := reaping.past child past
      refine ⟨fun parent here => nowhere parent (back here), fun parent linked => ?_, untold, noted⟩
      rcases mem_trackChildLink linked with ⟨-, rfl⟩ | earlier
      · exact ⟨own, comes, rfl⟩
      · exact unlinked parent earlier

theorem mem_untrackChildLink
    (linked : child ∈ (kernel.untrackChildLink parent pid).parentChildren other) :
    child ∈ kernel.parentChildren other ∧ (parent = some other → child ≠ pid) := by
  cases parent with
  | none => exact ⟨linked, nofun⟩
  | some known =>
    by_cases here : other = known
    · subst here
      simp only [untrackChildLink, update_self, TreeSet.mem_erase] at linked
      exact ⟨linked.2, fun _ same => linked.1 (Std.compare_eq_iff_eq.mpr same.symm)⟩
    · simp only [untrackChildLink, update_of_ne here] at linked
      exact ⟨linked, fun same => absurd (Option.some.inj same).symm here⟩

/-- The process in flight is dropped. -/
theorem fade (reaping : Reaping start one before) (stays : one.coming = none) (rest : after =
      { before with parentChildren := after.parentChildren, journal := after.journal })
    (links : ∀ parent child, child ∈ after.parentChildren parent →
      child ∈ before.parentChildren parent) (hushed : Hushed before.journal after.journal) :
    Reaping start .home after := by
  have same : after.standing = before.standing := by
    rw [rest]
    rfl
  have places : Places .home after :=
    reaping.places.of_same nofun same (by rw [rest]) (by rw [rest])
  refine reaping.of_stands places (.of_eq same) (.of_own stays rfl) nofun hushed ?_ (fun _ => ?_)
    links ?_
  all_goals rw [rest]

theorem inWait4_store {parent : Pid}
    (runnable : process.state = .runnable) (waiting : InWait4 (kernel.store pid process) parent) :
    InWait4 kernel parent := by
  obtain ⟨stored, selector, statusPtr, infoPtr, options, found, blocked⟩ := waiting
  rcases found_store found with ⟨-, rfl⟩ | ⟨-, known⟩
  · nomatch runnable.symm.trans blocked
  · exact ⟨stored, selector, statusPtr, infoPtr, options, known, blocked⟩

theorem store (reaping : Reaping start (.away process.kin) kernel)
    (runnable : process.state = .runnable) :
    Reaping start .home (kernel.store process.pid process) :=
  reaping.mono (reaping.places.store rfl) (reaping.toReports.mono nofun rfl fun _ => .refl _)
    (fun parent waiting => reaping.waits parent (inWait4_store runnable waiting))
    (fun _ _ here => here.mono (fun _ _ lives => lives.of_store rfl) rfl) nofun (fun _ _ => .inl)
    (fun _ _ => id)
    (fun _ _ => .inl) (Nat.le_refl _) (.of_eq rfl)

/-- The pid of the process is used. -/
theorem born (reaping : Reaping start (.listed process.kin) kernel)
    (runnable : process.state = .runnable) :
    Reaping start .home ((kernel.store process.pid process).record
      (.created process.pid)) := by
  have stands : Stands (kernel.store process.pid process)
    ((kernel.store process.pid process).record (.created process.pid)) :=
    .of_eq rfl
  have back {pid : Pid} {parent : Option Pid}
      (here : Parentage .home ((kernel.store process.pid process).record
        (.created process.pid)) pid parent) :
      Parentage (.listed process.kin) kernel pid parent :=
    here.mono (fun _ _ lives => (lives.of_stands stands fun _ => id).of_store rfl) rfl
  constructor
  · exact reaping.toReports.mono nofun rfl fun _ => .refl _
  · exact (reaping.places.store rfl).stay stands rfl rfl
  · exact fun parent waiting => reaping.waits parent (inWait4_store runnable waiting)
  · intro parent child linked
    obtain ⟨bound, known⟩ := reaping.links parent child linked
    exact ⟨bound, fun other here => known other (back here)⟩
  · exact reaping.reserved
  · intro child past
    have after : (decide (process.pid ≠ child) && spent child kernel.journal) = true := past
    rw [Bool.and_eq_true, decide_eq_true_eq] at after
    obtain ⟨apart, earlier⟩ := after
    obtain ⟨nowhere, unlinked, untold, noted⟩ := reaping.past child earlier
    have none : ¬∃ kin, (listed process.kin).coming = some kin ∧ kin.pid = child := by
      rintro ⟨_, ⟨⟩, same⟩
      exact apart same
    constructor
    · exact fun parent here => absurd (nowhere parent (back here)) none
    · exact fun parent linked => absurd (unlinked parent linked) none
    · exact untold
    · change (decide (process.pid ≠ child) && marked child kernel.journal) = true
      rw [noted, Bool.and_true]
      exact decide_eq_true apart
  · exact ⟨fun _ tells => tells.elim, reaping.silent⟩
  · exact reaping.grown.trans (suffix_cons _ _)

theorem drop (reaping : Reaping start .home kernel)
    (found : kernel.processes process.pid = some process) :
    Reaping start (.away process.kin) (kernel.drop process.pid) := by
  have present : (kernel.processes process.kin.pid).isSome := isSome_iff_exists.mpr ⟨_, found⟩
  refine reaping.mono (reaping.places.drop present)
    (reaping.toReports.mono nofun rfl fun _ => .refl _) (fun parent waiting => ?_)
    (fun _ _ here => here.mono (fun _ _ lives => lives.of_drop found) rfl) nofun (fun _ _ => .inl)
    (fun _ _ => id)
    (fun _ _ => .inl) (Nat.le_refl _) (.of_eq rfl)
  obtain ⟨stored, selector, statusPtr, infoPtr, options, present, blocked⟩ := waiting
  exact reaping.waits parent
    ⟨stored, selector, statusPtr, infoPtr, options, (found_drop present).2, blocked⟩

/-- What is left of the process is its zombie. -/
theorem bury {group : Pid} (reaping : Reaping start (.left own) kernel) : Reaping start (.dead own)
      { kernel with
        zombies := update kernel.zombies own.pid (some ⟨own.parent, group⟩) } := by
  have sheds : (left own).Sheds (.dead own) := .of_own rfl rfl
  refine reaping.mono reaping.places.bury ?_ reaping.waits (fun pid parent here => ?_) nofun
    (fun _ _ => .inl) (fun _ _ => id) (fun _ _ => .inl) (Nat.le_refl _) (.of_eq rfl)
  · constructor
    · intro parent child status queued
      obtain ⟨⟨zombie, found, known⟩, -⟩ := reaping.exits parent child status queued
      have apart : child ≠ own.pid := by
        rintro rfl
        nomatch (reaping.places.no_zombie (.flying rfl rfl)).symm.trans found
      refine ⟨⟨zombie, ?_, known⟩, ?_⟩
      · exact (update_of_ne apart ..).trans found
      · rintro _ ⟨⟩
        exact apart.symm
    · exact reaping.once
    · rintro _ ⟨⟩
      exact ⟨_, update_self .., rfl⟩
  · cases here with
    | lives lives known =>
      refine .lives (lives.of_stands ?_ sheds.own) known
      exact .of_eq rfl
    | zombie found known =>
      by_cases here : pid = own.pid
      · subst here
        simp only [update_self, Option.some.injEq] at found
        subst found
        exact .lives (.flying rfl rfl) known
      · simp only [update_of_ne here] at found
        exact .zombie found known

end Moves

end Reaping

/-- In the new events no exit wakes a parent that was blocked in a `wait4`, and
no exit is taken while other events of the child are queued. -/
structure Fair (start : Kernel μ) (events : List Event) : Prop where
  woken : ∀ parent child status, .woke parent ⟨child, .exited status⟩ ∈ events →
    ¬InWait4 start parent
  alone : ∀ parent child status, .consumed parent ⟨child, .exited status⟩ ∈ events →
    ∀ other, ∀ event ∈ start.childEvents other, event.pid = child →
      ∃ status, event.kind = .exited status

theorem Fair.of_append {newer older : List Event}
    (fair : Fair start (newer ++ older)) : Fair start older :=
  ⟨fun parent child status member =>
      fair.woken parent child status (mem_append_right _ member),
    fun parent child status member =>
      fair.alone parent child status (mem_append_right _ member)⟩

/-- What has been fair until now was so before. -/
theorem Fair.of_suffix
    (fair : ∀ events, after.journal = events ++ start.journal → Fair start events)
    (grown : before.journal <:+ after.journal) (events : List Event)
    (journal : before.journal = events ++ start.journal) : Fair start events := by
  obtain ⟨newer, same⟩ := grown
  refine (fair (newer ++ events) ?_).of_append
  rw [← same, journal, append_assoc]

namespace Kernel

theorem parentChildren_untrackThreadGroup (kernel : Kernel μ) (tgid pid : Pid) :
    (kernel.untrackThreadGroup tgid pid).parentChildren = kernel.parentChildren := by
  unfold untrackThreadGroup
  split
  · rfl
  · dsimp only
    split <;> rfl

end Kernel

open Kernel in
theorem reaping_follows {own : Kin} {losing : Prop}
    (follows : Follows own losing one two before after)
    (fair : ∀ events, after.journal = events ++ start.journal → Fair start events)
    (reaping : Reaping start one before) : Reaping start two after := by
  induction follows with
  | wakes wakes => exact reaping.of_wakes wakes
  | trans _ second earlier later =>
    have grown := (tracks_advances.toTraces.follows second).journal
    exact later fair (earlier (Fair.of_suffix fair grown) reaping)
  | aside aside =>
    refine reaping.stay (.of_eq aside.standing) (.of_eq aside.journal) ?_ aside.childEvents ?_ ?_
    all_goals rw [aside.rest]
  | signal kernel pid info =>
    exact reaping.of_stirs (stirs_signalProcess kernel pid info)
      (kernel.families_signalProcess pid info).parentChildren
  | hear | arm => exact reaping.stay (.of_eq rfl) (.of_eq rfl) rfl rfl rfl rfl
  | queue tells free => exact reaping.queue tells
  | pass tells found watches unmatched =>
    exact (reaping.queue tells).note [_] rfl (by simp [Event.Mute])
  | woke event found runnable => exact reaping.note [_] rfl (by simp [Event.Mute])
  | @hand one two kernel middle parent process woken selector statusPtr infoPtr options event found
      blocked wakes stored runnable tells =>
      have told : Reaping start one (middle.record (.woke parent event)) :=
        (reaping.of_wakes wakes).note [_] rfl (by simp [Event.Mute])
      have told' : Telling own (middle.record (.woke parent event)) parent one two event :=
        tells.of_eq rfl
      by_cases exit : ∃ status, event.kind = .exited status
      · -- The parent would have been blocked when the step began.
        exfalso
        obtain ⟨status, kind⟩ := exit
        obtain ⟨newer, journal, -⟩ :=
          (notes_handOver (middle.record (.woke parent event)) parent event).journal
        obtain ⟨older, grown⟩ := (reaping.of_wakes wakes).grown
        have posted := fair (newer ++ .woke parent event :: older) (by
          rw [journal, append_assoc, cons_append, grown]
          rfl)
        refine posted.woken parent event.pid status ?_ (reaping.waits parent
          ⟨process, selector, statusPtr, infoPtr, options, found, blocked⟩)
        rw [← kind]
        exact mem_append_right _ (mem_cons_self ..)
      · have lives (status : BitVec 32) : event.kind ≠ .exited status :=
          fun same => exit ⟨status, same⟩
        have early := told.not_spent_of_telling told'
        have result : (middle.record (.woke parent event)).handOver parent event =
            (middle.record (.woke parent event)).record (.consumed parent event) := by
          unfold handOver
          split
          · rename_i status kind
            exact absurd kind (lives status)
          · rfl
        rw [result, Reaping.two_of_telling lives tells]
        exact told.stay (.of_eq rfl) (hushed_consumed parent lives early) rfl rfl rfl rfl
  | enlist kernel =>
    exact reaping.of_stands (reaping.places.of_same (fun _ => id) rfl rfl rfl) (.of_eq rfl)
      ⟨fun _ => id, fun _ => id, fun _ => id⟩ (fun _ dies => nomatch dies) (.of_eq rfl) rfl
      (fun _ => .refl _) (fun _ _ => id) (Nat.le_refl _)
  | link kernel coming =>
    rcases coming with rfl | rfl
    all_goals exact reaping.link rfl
  | @born kernel process same runnable =>
    rw [insertProcess, record_enqueueRunnablePid]
    subst same
    exact (reaping.born runnable).of_stirs (stirs_enqueueRunnablePid True _ _ _)
      (families_enqueueRunnablePid _ _ _).parentChildren
  | drop found same idle =>
    subst same
    exact reaping.drop found
  | store same runnable =>
    subst same
    exact reaping.store runnable
  | lost kernel => exact reaping.fade rfl rfl (fun _ _ => id) (.of_eq rfl)
  | exits kernel status =>
    exact reaping.of_stirs (stirs_beginThreadGroupExit True kernel _ _ status)
      (kernel.wakes_beginThreadGroupExit _ _ status).families.parentChildren
  | @leaves kernel middle departs =>
    have noted : Reaping start (.away own) (kernel.record (.left own.serial)) :=
      reaping.note [_] rfl (by simp [Event.Mute])
    have left := (noted.of_wakes departs.wakes).of_stirs
      (stirs_untrackThreadGroup True middle own.threadGroup own.pid)
      (parentChildren_untrackThreadGroup middle own.threadGroup own.pid)
    exact left.of_stands (left.places.of_same (fun _ => id) rfl rfl rfl) (.of_eq rfl)
      ⟨fun _ => id, fun _ comes => (nomatch comes), fun _ => id⟩ (fun _ dies => nomatch dies)
      (.of_eq rfl) rfl (fun _ => .refl _) (fun _ _ => id) (Nat.le_refl _)
  | retire kernel thread =>
    exact reaping.fade rfl rfl (fun _ _ => id) (.of_mute [_, _] rfl (by simp [Event.Mute]))
  | forget kernel leader =>
    refine reaping.fade rfl ?_ (fun _ _ linked => (Reaping.mem_untrackChildLink linked).1) ?_
    · rw [untrackChildLink_rest]
      rfl
    · rw [untrackChildLink_rest]
      exact .of_mute [_, _] rfl (by simp [Event.Mute])
  | zombie kernel leader group => exact reaping.bury
  | exec kernel sighand =>
    exact reaping.stay (.of_map (resigned_shareActions _ _)) (.of_eq rfl) rfl rfl rfl rfl

/-! ## Waits -/

theorem Kernel.reapZombie_eq {zombie : ZombieProcess} (found : kernel.zombies pid = some zombie) :
    kernel.reapZombie pid = { kernel with
        zombies := update kernel.zombies pid none
        parentChildren := (kernel.untrackChildLink zombie.parent pid).parentChildren
        journal := .marked pid :: .reaped pid :: kernel.journal } := by
  simp only [Kernel.reapZombie, Kernel.removeZombie, found]
  cases zombie.parent <;> rfl

/-- The queues without an event that is taken. -/
def remaining (kernel : Kernel μ) (parent : Pid) (events : List ChildEvent) :
    Pid → List ChildEvent :=
  update kernel.childEvents parent events

open Kernel in
/-- What a wait that looks for an event can do. -/
inductive Looked (kernel : Kernel μ) (parent : Pid) : Kernel μ → Prop
  | nothing : Looked kernel parent kernel
  | sees {event : ChildEvent} (member : event ∈ kernel.childEvents parent) :
      Looked kernel parent (kernel.record (.seen parent event))
  | takes {event : ChildEvent} {older newer : List ChildEvent}
      (queue : kernel.childEvents parent = older ++ event :: newer)
      (lives : ∀ status, event.kind ≠ .exited status) :
      Looked kernel parent
        ({ kernel with childEvents := remaining kernel parent (older ++ newer) }.record
          (.consumed parent event))
  | reaps {child : Pid} {status : BitVec 32} {older newer : List ChildEvent}
      (queue : kernel.childEvents parent = older ++ ⟨child, .exited status⟩ :: newer) :
      Looked kernel parent
        (({ kernel with childEvents := remaining kernel parent (older ++ newer) }.record
          (.consumed parent ⟨child, .exited status⟩)).reapZombie child)

theorem Kernel.looked (kernel : Kernel μ) (parent : Pid) (selector : WaitChildSelector)
    (options : BitVec 64) (consume : Bool) :
    Looked kernel parent (kernel.waitChildEvent parent selector options consume).2 := by
  unfold Kernel.waitChildEvent
  split
  · exact .nothing
  rename_i event found
  have member := mem_of_find?_eq_some found
  cases consume with
  | false => exact .sees member
  | true =>
    obtain ⟨first, older, newer, before, matching, queue, rest⟩ :=
      exists_of_eraseP member (List.find?_some found)
    have same : first = event := by
      rw [queue, List.find?_append, List.find?_eq_none.mpr before] at found
      simpa [matching] using found
    subst same
    simp only [if_true, rest]
    split
    · rename_i status kind
      obtain ⟨child, _⟩ := first
      subst kind
      exact .reaps queue
    · rename_i alive
      exact .takes queue alive

namespace Reaping

open Kernel

/-- An event of the queue is not over. -/
theorem not_spent_of_queued {flight : Flight} {parent : Pid} (reaping : Reaping start flight kernel)
    (queued : event ∈ kernel.childEvents parent) : spent event.pid kernel.journal = false := by
  rw [Bool.eq_false_iff]
  exact fun past => (reaping.past event.pid past).events parent event queued rfl

section Reap

variable {parent child : Pid} {status : BitVec 32} {older newer : List ChildEvent}

theorem remaining_sublist
    (queue : kernel.childEvents parent = older ++ event :: newer) (other : Pid) :
    (remaining kernel parent (older ++ newer) other).Sublist (kernel.childEvents other) := by
  unfold remaining
  by_cases here : other = parent
  · subst here
    rw [update_self, queue]
    exact (sublist_cons_self _ _).append_left older
  · rw [update_of_ne here]

variable (reaping : Reaping kernel .home kernel)
  (queue : kernel.childEvents parent = older ++ ⟨child, .exited status⟩ :: newer)
  (alone : ∀ other, ∀ event ∈ kernel.childEvents other, event.pid = child →
    ∃ status, event.kind = .exited status)
include reaping queue alone

/-- No other event of the child is left in any queue. -/
theorem remaining_ne (other : Pid) (event : ChildEvent)
    (queued : event ∈ remaining kernel parent (older ++ newer) other) : event.pid ≠ child := by
  intro same
  have earlier := (remaining_sublist queue other).subset queued
  obtain ⟨later, kind⟩ := alone other event earlier same
  obtain ⟨pid, _⟩ := event
  subst kind same
  obtain ⟨⟨zombie, found, known⟩, -⟩ := reaping.exits parent pid status (by simp [queue])
  obtain ⟨⟨again, present, owner⟩, -⟩ := reaping.exits other pid later earlier
  cases found.symm.trans present
  cases known.symm.trans owner
  rw [remaining, update_self] at queued
  have single := reaping.once parent pid
  rw [queue, filter_append, filter_cons_of_pos (by simp [exitOf]), length_append,
    length_cons] at single
  have another : ⟨pid, .exited later⟩ ∈ (older ++ newer).filter (exitOf pid) :=
    mem_filter.mpr ⟨queued, by simp [exitOf]⟩
  have more := length_pos_of_mem another
  rw [filter_append, length_append] at more
  omega

/-- A wait takes an exit out of the queue. -/
theorem reap {zombie : ZombieProcess}
    (found : kernel.zombies child = some zombie) (known : zombie.parent = some parent)
    (rest : after = { kernel with
        childEvents := remaining kernel parent (older ++ newer)
        zombies := update kernel.zombies child none
        parentChildren := (kernel.untrackChildLink (some parent) child).parentChildren
        journal := .marked child :: .reaped child :: .consumed parent ⟨child, .exited status⟩ ::
          kernel.journal }) : Reaping kernel .home after := by
  have untold := reaping.remaining_ne queue alone
  have shorter := remaining_sublist queue
  have member : ⟨child, .exited status⟩ ∈ kernel.childEvents parent := by simp [queue]
  have early := reaping.not_spent_of_queued member
  have still {pid : Pid} (alive : update kernel.zombies child none pid ≠ none) :
      pid ≠ child ∧ update kernel.zombies child none pid = kernel.zombies pid := by
    by_cases here : pid = child
    · rw [here, update_self] at alive
      exact absurd rfl alive
    · exact ⟨here, update_of_ne here ..⟩
  have back {pid : Pid} {owner : Option Pid} (here : Parentage .home after pid owner) :
      pid ≠ child ∧ Parentage .home kernel pid owner := by
    cases here with
    | lives lives owned =>
      have lived := lives.of_eq (show after.standing = kernel.standing by rw [rest]; rfl)
      refine ⟨?_, .lives lived owned⟩
      rintro rfl
      nomatch (reaping.places.no_zombie lived).symm.trans found
    | zombie present owned =>
      rw [rest] at present
      obtain ⟨apart, same⟩ := still fun gone => nomatch gone.symm.trans present
      exact ⟨apart, .zombie (same.symm.trans present) owned⟩
  have linked {other pid : Pid}
      (link : pid ∈ (kernel.untrackChildLink (some parent) child).parentChildren other) :
      pid ≠ child ∧ pid ∈ kernel.parentChildren other := by
    obtain ⟨earlier, apart⟩ := mem_untrackChildLink link
    refine ⟨?_, earlier⟩
    rintro rfl
    have owner := (reaping.links other pid earlier).2 _ (.zombie found known)
    exact apart owner rfl
  subst rest
  constructor
  · constructor
    · intro other pid later queued
      obtain ⟨⟨zombie, present, owner⟩, -⟩ :=
        reaping.exits other pid later ((shorter other).subset queued)
      refine ⟨⟨zombie, ?_, owner⟩, nofun⟩
      exact (update_of_ne (untold other _ queued) ..).trans present
    · exact fun other pid =>
        ((shorter other).filter (exitOf pid)).length_le.trans (reaping.once other pid)
    · exact nofun
  · refine reaping.places.of_stands (.of_eq rfl) (fun pid alive => ?_) (Nat.le_refl _) fun _ => id
    rw [← (still alive).2]
    exact alive
  · exact reaping.waits
  · intro other pid link
    obtain ⟨bound, owner⟩ := reaping.links other pid (linked link).2
    exact ⟨bound, fun owned here => owner owned (back here).2⟩
  · exact fun cpu pid reserved other link => reaping.reserved cpu pid reserved other (linked link).2
  · intro pid past
    have cases : (decide (child = pid) || spent pid kernel.journal) = true := past
    rw [Bool.or_eq_true, decide_eq_true_eq] at cases
    by_cases same : pid = child
    · subst same
      refine ⟨fun owner here => absurd rfl (back here).1, fun other link =>
        absurd rfl (linked link).1,
        untold, ?_⟩
      simp [marked]
    obtain ⟨nowhere, unlinked, silent, noted⟩ :=
      reaping.past pid (cases.resolve_left fun here => same here.symm)
    refine ⟨fun owner here => nowhere owner (back here).2,
      fun other link => unlinked other (linked link).2,
      fun other event queued => silent other event ((shorter other).subset queued), ?_⟩
    simp [marked, noted]
  · refine ⟨fun _ tells => tells.elim, fun _ tells => tells.elim, fun pid tells => ?_,
      reaping.silent⟩
    cases tells
    exact early
  · exact ((suffix_cons _ _).trans (suffix_cons _ _)).trans (suffix_cons _ _)

end Reap

/-- A wait looks for an event. -/
theorem look (reaping : Reaping kernel .home kernel) (parent : Pid) (selector : WaitChildSelector)
    (options : BitVec 64) (consume : Bool)
    (fair : ∀ events, (kernel.waitChildEvent parent selector options consume).2.journal =
      events ++ kernel.journal → Fair kernel events) :
    Reaping kernel .home (kernel.waitChildEvent parent selector options consume).2 := by
  have looked := kernel.looked parent selector options consume
  generalize (kernel.waitChildEvent parent selector options consume).2 = after at looked fair
  cases looked with
  | nothing => exact reaping
  | sees member =>
    exact reaping.stay (.of_eq rfl) (hushed_seen parent (reaping.not_spent_of_queued member))
      rfl rfl rfl rfl
  | @takes event older newer queue lives =>
    have early := reaping.not_spent_of_queued
      (show event ∈ kernel.childEvents parent by simp [queue])
    have hushed := hushed_consumed parent lives early
    exact reaping.of_stands (reaping.places.of_same (fun _ => id) rfl rfl rfl)
      (.of_eq rfl) (.refl _)
      (fun _ => id) hushed rfl (remaining_sublist queue) (fun _ _ => id) (Nat.le_refl _)
  | @reaps child status older newer queue =>
    obtain ⟨⟨zombie, found, known⟩, -⟩ := reaping.exits parent child status (by simp [queue])
    have result : ({ kernel with childEvents := remaining kernel parent (older ++ newer) }.record
        (.consumed parent ⟨child, .exited status⟩)).reapZombie child = _ := reapZombie_eq found
    rw [known] at result
    have alone := (fair [.marked child, .reaped child, .consumed parent ⟨child, .exited status⟩]
      (by rw [result]; rfl)).alone parent child status (by simp)
    exact reaping.reap queue alone found known result

/-! ## Steps -/

section Steps

variable {cpu : Nat} {process : KernelProcess}

/-- A processor takes up something else. -/
theorem turn {activity : Activity} (reaping : Reaping start one kernel)
    (places : Places two (kernel.setActivity cpu activity))
    (held : ∀ process, activity.held = some process →
      Parentage one kernel process.pid process.parent)
    (own : ∀ own, two.own = some own → Live one.own kernel own.pid own)
    (reserves : ∀ pid, activity.reserves = some pid →
      (kernel.cpus cpu).activity.reserves = some pid ∨ ∀ parent, pid ∉ kernel.parentChildren parent)
    (coming : ∀ own, one.coming = some own → two.coming = some own)
    (dead : ∀ own, two = .dead own → one = .dead own) :
    Reaping start two (kernel.setActivity cpu activity) := by
  refine reaping.mono places (reaping.toReports.mono dead rfl fun _ => .refl _) reaping.waits
    (fun pid parent here => ?_) coming (fun _ _ => .inl) (fun _ _ => id)
    (fun index pid reserved => ?_) (Nat.le_refl _) (.of_eq rfl)
  · cases here with
    | lives lives known =>
      rcases lives.of_turn with lived | ⟨flies, rfl⟩ | ⟨process, holds, rfl, rfl⟩
      · exact .lives (lived.mono nofun) known
      · exact .lives (own _ flies) known
      · exact known ▸ held process holds
    | zombie found known => exact .zombie found known
  · rcases reserves_setActivity reserved with ⟨rfl, now⟩ | ⟨-, earlier⟩
    · exact reserves pid now
    · exact .inl earlier

theorem land {work : DispatchWork} (reaping : Reaping start (.away process.kin) kernel) :
    Reaping start .home (kernel.setActivity cpu (.dispatched work process)) := by
  refine reaping.turn reaping.places.land ?_ (nofun) (nofun) (nofun) nofun
  rintro _ ⟨⟩
  exact .lives (.flying rfl rfl) rfl

variable (reaping : Reaping start .home kernel)
include reaping

theorem takeOff (held : (kernel.cpus cpu).activity.held = some process) :
    Reaping start (.away process.kin) (kernel.setActivity cpu .leaving) := by
  refine reaping.turn (reaping.places.takeOff held) (fun _ none => nomatch none) ?_
    (nofun) (nofun) nofun
  rintro _ ⟨⟩
  exact .held held rfl rfl

/-- A process is made whose pid no parent knows. -/
theorem bear {child : Kin} (places : Places (.unborn child) kernel)
    (unknown : ∀ parent, child.pid ∉ kernel.parentChildren parent) :
    Reaping start (.unborn child) kernel := by
  have old {pid : Pid} {parent : Option Pid} (here : Parentage (.unborn child) kernel pid parent) :
      pid = child.pid ∨ Parentage .home kernel pid parent := by
    cases here with
    | lives lives known => exact lives.of_some.imp And.right (.lives · known)
    | zombie found known => exact .inr (.zombie found known)
  refine { reaping with
      toReports := reaping.toReports.mono nofun rfl fun _ => .refl _
      places
      links := fun parent pid linked => ?_
      past := fun pid past => ?_ }
  · obtain ⟨bound, known⟩ := reaping.links parent pid linked
    refine ⟨bound, fun owner here => ?_⟩
    rcases old here with rfl | earlier
    · exact absurd linked (unknown parent)
    · exact known owner earlier
  obtain ⟨nowhere, unlinked, untold, noted⟩ := reaping.past pid past
  refine ⟨fun parent here => ?_, fun parent linked => ?_, untold, noted⟩
  · rcases old here with rfl | earlier
    · exact ⟨child, rfl, rfl⟩
    · obtain ⟨_, comes, -⟩ := nowhere parent earlier
      nomatch comes
  · obtain ⟨_, comes, -⟩ := unlinked parent linked
    nomatch comes

theorem insert (params : CloneParams) (task : Task) (assignedCpu sighand : Nat)
    (activity : (kernel.cpus cpu).activity = .kernel process (.cloning pid)) :
    Reaping start (.unborn (cloneChild kernel.journal.length process params pid task assignedCpu
      sighand).kin) (kernel.setActivity cpu (cloned process params kernel.journal.length pid)) := by
  have places := reaping.places.insert params task assignedCpu sighand activity
  obtain ⟨later, stage, same, identity, -, idle⟩ :=
    cloned_eq process params kernel.journal.length pid
  rw [same] at places ⊢
  have home : Places .home (kernel.setActivity cpu (.kernel later stage)) :=
    places.of_same nofun rfl rfl rfl
  have turned : Reaping start .home (kernel.setActivity cpu (.kernel later stage)) := by
    refine reaping.turn home ?_ (nofun) (fun other reserved => nomatch idle.symm.trans reserved)
      (fun _ => id) fun _ => id
    rintro _ ⟨⟩
    rw [identity]
    exact .lives (.held (congrArg held activity) rfl rfl) rfl
  exact turned.bear places (reaping.reserved cpu pid (congrArg reserves activity))

omit reaping

/-- The next step begins here. -/
theorem restart {other : Kernel μ} {flight : Flight} (reaping : Reaping start flight kernel)
    (waits : ∀ parent, InWait4 kernel parent → InWait4 other parent)
    (grown : other.journal <:+ kernel.journal) : Reaping other flight kernel :=
  { reaping with waits, grown }

/-- The block of a call is recorded. -/
theorem of_blocks {step : Step μ} (blocks : Blocks kernel step after)
    (reaping : Reaping kernel .home kernel) : Reaping after .home after := by
  have places := reaping.places.of_blocks blocks
  obtain ⟨cpu, ready, process, block, context, timers, futexes, -, activity, rfl, -⟩ := blocks
  have flown := reaping.takeOff (congrArg held activity)
  have elsewhere (parent : Pid) (waiting : InWait4 (kernel.setActivity cpu .leaving) parent) :
      parent ≠ process.pid := by
    obtain ⟨other, selector, statusPtr, infoPtr, options, found, blocked⟩ := waiting
    rintro rfl
    exact nomatch (flown.places.absent rfl).symm.trans found
  refine Reaping.mono (flown.restart (fun parent waiting => ?_) suffix_rfl) places
    (flown.toReports.mono nofun rfl fun _ => .refl _) (fun _ => id)
    (fun _ _ here => here.mono (fun pid kin lives => ?_) rfl) nofun (fun _ _ => .inl)
    (fun _ _ => id)
    (fun _ _ => .inl) (Nat.le_refl _) (.of_eq rfl)
  · obtain ⟨other, selector, statusPtr, infoPtr, options, found, blocked⟩ := id waiting
    refine ⟨other, selector, statusPtr, infoPtr, options, ?_, blocked⟩
    exact (update_of_ne (elsewhere parent waiting) ..).trans found
  have stored : Live none ((kernel.setActivity cpu .leaving).store process.kin.pid
      { process with state := .blocked block, kernelContext := some context, wakeResult := none })
      pid kin := by
    exact lives.of_eq rfl
  have flies : (away process.kin).own = some { process with
    state := .blocked block, kernelContext := some context, wakeResult := none }.kin := rfl
  exact Live.of_store flies stored

end Steps

end Reaping

end AetherKernel.Sched
