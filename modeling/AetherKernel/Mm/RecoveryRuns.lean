import AetherKernel.Mm.Recovery

/-!
# Runs of the recovery

The code takes the lock of the page cache before that of the frame allocator.
The handler called by an allocation goes the other way: it holds the lock of
the frame allocator when it empties the cache.  It only tries the lock of the
cache, so what can go wrong is that it asks for the lock it holds, and it does
so exactly when there is a page to give back.
-/

namespace AetherKernel.Mm

open Lib LockMachine Mm.Buddy Relation Function Exec Option
open BuddyAllocator Balanced Memory Returns

abbrev MemoryMachine (cap : Capacity) :=
  LockMachine Nat MemoryLock MemoryEffect (Memory cap)

namespace MemoryMachine

variable {cap : Capacity} {m after : MemoryMachine cap} {cpu : Nat}

/-- All CPUs idle. -/
def start (allocator : BuddyAllocator cap) : MemoryMachine cap :=
  ⟨new allocator, fun _ => none, fun _ => []⟩

def Step (m : MemoryMachine cap) (label : Move Nat MemoryCall) (after : MemoryMachine cap) : Prop :=
  m.move Memory.perform MemoryCall.code label = some after

/-- An allocation that reclaims the page cache finds it locked or empty. -/
def Spares (m : MemoryMachine cap) : Move Nat MemoryCall → Prop
  | .begins _ _ => True
  | .goes cpu => ∀ rest, m.todo cpu = .run .reclaim :: rest →
      m.owner .frameAllocator = some cpu → m.owner .pageCache ≠ none ∨ m.shared.cache.entries = []

/-! ## The order of the locks -/

/-- The lock of the page cache comes before that of the frame allocator. -/
def weight : MemoryLock → Nat
  | .pageCache => 1
  | .frameAllocator => 0

/-- The locks under which the code runs each effect. -/
def Admits : MemoryEffect → Set MemoryLock → Prop
  | .alloc _, held | .again _, held | .retain _, held | .release _ _, held | .refCount _, held
  | .recover (some _), held => .frameAllocator ∈ held
  | .recover none, _ | .reclaim, _ | .endRecovery, _ => True
  | .copyCached _, held | .contains _, held => .pageCache ∈ held
  | .invalidate _ _, held | .insertPage _ _ _, held | .makeRoom _ _ _ _, held =>
    held = {.pageCache}
  | .fill _ _, held | .dropDuplicate _, held => held = ∅

abbrev Falling : Set MemoryLock → List MemoryInstr → Prop :=
  Balanced Admits (Falls weight)

variable {held : Set MemoryLock} {effect : MemoryEffect} (outside : .frameAllocator ∉ held)
  {memory : Memory cap} {exhausted rest : List MemoryInstr}
  {outcome : Effected MemoryLock MemoryEffect (Memory cap)} {count order left : Nat}
  {allocator : BuddyAllocator cap} {label : Move Nat MemoryCall}

include outside

/-- A request to the allocator by a CPU that does not hold its lock. -/
theorem balanced_request (admitted : Admits effect (insert .frameAllocator held)) :
    Falling held (critical .frameAllocator [.run effect]) := by
  -- Any other lock weighs more.
  refine Balanced.critical outside (fun other member => ?_) (run admitted)
  cases other with
  | frameAllocator => exact absurd member outside
  | pageCache => exact Nat.zero_lt_one

theorem balanced_releaseFrames (frame : PhysFrame) (count : Nat) :
    Falling held (releaseFrames frame count) :=
  balanced_request outside (Set.mem_insert _ _)

theorem balanced_releaseEntries (entries : List (Vfs.PageCacheKey × Vfs.CachedPage PhysFrame)) :
    Falling held (releaseEntries entries) :=
  flatMap fun entry _ => balanced_releaseFrames outside entry.2.frame 1

omit outside

/-- An operation of the page cache by a CPU without locks. -/
theorem balanced_cached (admitted : Admits effect {.pageCache}) :
    Falling ∅ (critical .pageCache [.run effect]) := by
  apply Balanced.critical
  · exact Set.notMem_empty _
  · exact fun _ member => absurd member (Set.notMem_empty _)
  · apply run
    rwa [insert_empty_eq]

/-- The code of every call is in order. -/
theorem code_ordered (call : MemoryCall) : Ordered Admits (Falls weight) ∅ call.code := by
  apply ordered
  have free : MemoryLock.frameAllocator ∉ (∅ : Set MemoryLock) := Set.notMem_empty _
  cases call with
  | alloc | retain | refCount => exact balanced_request free (Set.mem_insert _ _)
  | release frame count => exact balanced_releaseFrames free frame count
  | heapRecovery => exact run trivial
  | copyCached | contains | invalidate => exact balanced_cached rfl
  | loadPage key loaded =>
    apply append
    · exact balanced_request free (Set.mem_insert _ _)
    · exact run rfl

/-! ## What the effects insert -/

theorem attempt_spec (performed : memory.attempt cpu count exhausted = some outcome) :
    (outcome.shared.result cpu).isSome ∧
      (outcome.inserts = [] ∨ outcome.inserts = exhausted) := by
  rcases map_eq_some_iff.mp performed with ⟨⟨result, allocator⟩, _, rfl⟩
  cases result with
  | ok address => exact ⟨isSome_of_eq_some (update_self _ _ _), .inl rfl⟩
  | error error =>
    refine ⟨isSome_of_eq_some (update_self _ _ _), ?_⟩
    dsimp only
    split
    · exact .inr rfl
    · exact .inl rfl

theorem outside_of_empty (empty : held = ∅) : .frameAllocator ∉ held := by
  rw [empty]
  exact Set.notMem_empty _

theorem outside_of_pageCache (only : held = {.pageCache}) : .frameAllocator ∉ held := by
  rw [only]
  simp

theorem balanced_fill (empty : held = ∅) (memory : Memory cap)
    (key : Vfs.PageCacheKey) (loaded : Loaded) : Falling held (memory.fill cpu key loaded) := by
  have outside := outside_of_empty empty
  unfold fill
  split
  · exact balanced_releaseFrames outside _ 1
  · split
    · exact balanced_releaseFrames outside _ 1
    · apply append
      · rw [empty]
        exact balanced_cached rfl
      · exact run empty
  · exact nil

/-! ## The allocator -/

/-- The allocator is in one of the states its operations lead to. -/
def Sound (allocator : BuddyAllocator cap) : Prop :=
  ∃ view, Invariant allocator view

/-- A public operation returns and leaves a sound allocator. -/
theorem Sound.perform (sound : Sound allocator) (operation : Operation) :
    (Buddy.perform operation).Returns allocator fun _ later => Sound later := by
  rcases sound with ⟨view, invariant⟩
  apply (perform_invariant invariant operation).mono
  rintro _ later ⟨after, kept, _⟩
  exact ⟨after, kept⟩

theorem Sound.retain (sound : Sound allocator) (frame : PhysFrame) :
    (BuddyAllocator.retain frame).Returns allocator fun _ later => Sound later := by
  rw [BuddyAllocator.retain]
  cases checkedAddrFromFrame frame with
  | error error => exact throw sound
  | ok address => exact sound.perform (.retainFrame address)

theorem Sound.refCount (sound : Sound allocator) (frame : PhysFrame) :
    (BuddyAllocator.refCount frame).Returns allocator fun _ later => Sound later := by
  rcases sound with ⟨view, invariant⟩
  rw [BuddyAllocator.refCount]
  split
  · exact pure ⟨view, invariant⟩
  rw [refCountForAddr]
  split
  · exact pure ⟨view, invariant⟩
  rename_i number _
  rcases findAllocationIndex_eq invariant.valid number with
    ⟨_, i, _, _, _, found⟩ | ⟨_, missing⟩
  · apply step found
    exact pure ⟨view, invariant⟩
  · apply step missing
    exact pure ⟨view, invariant⟩

/-- A free block of the order is where an allocation looks first: in the cache
of the CPU, or for a large order on the global list. -/
def Stocked (allocator : BuddyAllocator cap) (cpu order : Nat) : Prop :=
  if order ≤ perCpuCacheMaxOrder then allocator.head (.cpu cpu order) ≠ none
  else allocator.head (.global order) ≠ none

theorem popFront_stocked {k : ListId} (stocked : allocator.head k ≠ none) :
    ∃ i, popFront k allocator = some (.ok (some i), allocator.unlink k none i) := by
  rcases ne_none_iff_exists'.mp stocked with ⟨i, first⟩
  refine ⟨i, ?_⟩
  rw [popFront, get_bind_apply]
  simp only [first]
  rfl

/-- A block of the exact order is taken without splitting. -/
theorem allocFromGlobal_stocked
    (within : order ≤ allocator.maxOrder) (stocked : allocator.head (.global order) ≠ none) :
    ∃ i later, allocFromGlobal order allocator = some (.ok i, later) := by
  have found : allocator.searchOrder (allocator.maxOrder + 1 - order) order = order := by
    rcases Nat.exists_eq_add_of_le' (Nat.sub_pos_of_lt (Nat.lt_succ_of_le within)) with ⟨fuel, eq⟩
    rw [eq, searchOrder, if_neg]
    rintro ⟨_, empty⟩
    exact stocked (isNone_iff_eq_none.mp empty)
  rcases popFront_stocked stocked with ⟨i, popped⟩
  rw [allocFromGlobal, get_bind_apply]
  simp only [found, Nat.not_lt.mpr within, Nat.sub_self, hasUnused,
    Nat.zero_le, decide_true, Bool.not_true, Bool.false_eq_true, if_false]
  rw [globalPopFirst, bind_ok popped]
  exact ⟨i, _, rfl⟩

theorem allocBlock_stocked (online : cpu < allocator.cpuCount) (within : order ≤ allocator.maxOrder)
    (stocked : Stocked allocator cpu order) :
    ∃ i later, allocBlock cpu order allocator = some (.ok i, later) := by
  rw [allocBlock, bind_ok (checkedCpu_online online)]
  unfold Stocked at stocked
  split at stocked
  · rename_i small
    rcases popFront_stocked stocked with ⟨i, popped⟩
    rw [if_pos small, cpuPop, bind_ok popped]
    exact ⟨i, _, rfl⟩
  · rename_i large
    rw [if_neg large]
    exact allocFromGlobal_stocked within stocked

/-- An allocation whose order is in stock succeeds. -/
theorem allocFrame4kOnCpu_stocked (sound : Sound allocator) (online : cpu < allocator.cpuCount)
    (chosen : orderForCount count allocator.maxOrder = .ok order)
    (stocked : Stocked allocator cpu order) :
    ∃ address later,
      allocFrame4kOnCpu cpu count allocator = some (.ok address, later) := by
  rcases sound with ⟨view, invariant⟩
  rcases allocBlock_stocked online (orderForCount_eq_ok chosen).2.2 stocked with ⟨i, middle, popped⟩
  have provides := (allocBlock_provides invariant.valid cpu order).of_run popped
  rcases provides with ⟨_, _, failed, _⟩ | ⟨_, _, same, reaches, orderEq, idle, occupies⟩
  · nomatch failed
  · cases same
    rcases markAllocated_eq reaches.valid occupies orderEq idle with ⟨later, _, marked, _⟩
    rw [allocFrame4kOnCpu, get_bind_apply, chosen, Exec.ofExcept_ok,
      pure_bind, bind_ok popped, bind_ok marked]
    exact ⟨_, _, rfl⟩

/-! ## What every effect does -/

/-- What an effect leaves for the next one: a sound allocator, the results of
the other CPUs, and work that is in order.  Only the reclaim takes a lock. -/
structure Left (m : MemoryMachine cap) (cpu : Nat) (effect : MemoryEffect)
    (outcome : Effected MemoryLock MemoryEffect (Memory cap)) : Prop where
  sound : Sound outcome.shared.allocator
  result : ∀ other, other ≠ cpu → outcome.shared.result other = m.shared.result other
  takes : ∀ name, outcome.takes = some name → effect = .reclaim ∧ m.owner name = none
  inserts : effect ≠ .reclaim → ∀ held, Admits effect held → Falling held outcome.inserts

variable (sound : Sound m.shared.allocator)
include sound

theorem Left.of_same (inserts : ∀ held, Admits effect held → Falling held outcome.inserts)
    (allocator : outcome.shared.allocator = m.shared.allocator := by rfl)
    (result : outcome.shared.result = m.shared.result := by rfl)
    (takes : outcome.takes = none := by rfl) : Left m cpu effect outcome := by
  constructor
  · rw [allocator]
    exact sound
  · intro other _
    rw [result]
  · intro name taken
    rw [takes] at taken
    nomatch taken
  · exact fun _ => inserts

theorem attempt_left (count : Nat) (inserts : ∀ held, Admits effect held → Falling held exhausted) :
    ∃ outcome, m.shared.attempt cpu count exhausted = some outcome ∧ Left m cpu effect outcome := by
  rcases sound.perform (.allocFrame4kOnCpu cpu count) with ⟨result, allocator, run, kept⟩
  have other (value : Except FrameAllocError PhysFrame) (other : Nat) (differs : other ≠ cpu) :
      ({ m.shared with allocator := allocator }.setResult cpu value).result other =
        m.shared.result other :=
    update_of_ne differs _ _
  refine ⟨_, congrArg _ run, ?_⟩
  cases result with
  | ok address =>
    exact ⟨kept, other _, nofun, fun _ _ _ => nil⟩
  | error error =>
    refine ⟨kept, other _, nofun, fun _ held admitted => ?_⟩
    dsimp only
    split
    · exact inserts held admitted
    · exact nil

omit sound in
theorem withAllocator_left {α : Type} {routine : Routine cap α}
    (returns : routine.Returns m.shared.allocator fun _ later => Sound later) :
    ∃ outcome, m.shared.withAllocator routine = some outcome ∧ Left m cpu effect outcome := by
  rcases returns with ⟨result, allocator, run, kept⟩
  exact ⟨_, congrArg _ run, kept, fun _ _ => rfl, nofun, fun _ _ _ => nil⟩

theorem perform_left (cpu : Nat) (effect : MemoryEffect) :
    ∃ outcome, Memory.perform cpu effect m.owner m.shared = some outcome ∧
      Left m cpu effect outcome := by
  have nothing (held : Set MemoryLock) (_ : Admits effect held) :
      Falling held ([] : List MemoryInstr) := nil
  cases effect with
  | alloc count => exact attempt_left sound count fun held admitted => run admitted
  | recover retry =>
    refine ⟨_, rfl, ?_⟩
    unfold recover
    split
    · exact Left.of_same sound nothing
    · refine Left.of_same sound fun held admitted => ?_
      refine append (append (run trivial) (run trivial)) ?_
      cases retry with
      | none => exact nil
      | some count => exact run admitted
  | reclaim =>
    refine ⟨_, rfl, ?_⟩
    unfold reclaim
    split
    · rename_i free
      refine ⟨sound, fun _ _ => rfl, ?_, fun other => absurd rfl other⟩
      rintro name taken
      cases taken
      exact ⟨rfl, free⟩
    · exact Left.of_same sound nothing
  | endRecovery | copyCached | contains => exact ⟨_, rfl, Left.of_same sound nothing⟩
  | again count => exact attempt_left sound count nothing
  | retain frame => exact withAllocator_left (sound.retain frame)
  | release frame count => exact withAllocator_left (sound.perform (.release cpu frame count))
  | refCount frame => exact withAllocator_left (sound.refCount frame)
  | invalidate file pages =>
    refine ⟨_, rfl, Left.of_same sound fun held only => ?_⟩
    exact balanced_releaseEntries (outside_of_pageCache only) _
  | fill key loaded =>
    exact ⟨_, rfl, Left.of_same sound fun held empty => balanced_fill empty _ key loaded⟩
  | insertPage key frame len =>
    refine ⟨_, rfl, ?_⟩
    dsimp only [insertPage]
    split
    · exact Left.of_same sound nothing
    · exact Left.of_same sound fun held only => run only
  | makeRoom key frame len access =>
    refine ⟨_, rfl, ?_⟩
    unfold makeRoom
    split
    · split
      · refine Left.of_same sound fun held only => append ?_ (run only)
        exact balanced_releaseFrames (outside_of_pageCache only) _ 1
      · exact Left.of_same sound nothing
    · exact Left.of_same sound nothing
  | dropDuplicate frame =>
    refine ⟨_, rfl, Left.of_same sound fun held empty => ?_⟩
    split
    · exact nil
    · exact balanced_releaseFrames (outside_of_empty empty) frame 1

theorem left_of_perform (performed : Memory.perform cpu effect m.owner m.shared = some outcome) :
    Left m cpu effect outcome := by
  rcases perform_left sound cpu effect with ⟨other, run, left⟩
  rw [performed] at run
  cases run
  exact left

omit sound in
/-- The entries of the cache are given back by a CPU that does not hold the lock
of the allocator, unless there is none. -/
theorem ordered_reclaim (work : m.todo cpu = .run .reclaim :: rest)
    (spares : Spares m (.goes cpu)) (ordered : Ordered Admits (Falls weight) (m.held cpu) rest) :
    Ordered Admits (Falls weight) (takenWith (m.shared.reclaim m.owner).takes (m.held cpu))
      ((m.shared.reclaim m.owner).inserts ++ rest) := by
  unfold reclaim
  split
  · rename_i free
    have fresh : MemoryLock.pageCache ∉ m.held cpu := by
      intro mine
      nomatch free.symm.trans mine
    rw [takenWith_some]
    apply given_back fresh _ ordered
    by_cases holds : m.owner .frameAllocator = some cpu
    · have empty := (spares rest work holds).resolve_left (not_not_intro free)
      rw [empty]
      exact nil
    · exact balanced_releaseEntries holds m.shared.cache.entries
  · rw [takenWith_none]
    exact ordered

/-- Every effect respects the order where the cache is spared. -/
theorem respects (spares : Spares m (.goes cpu)) :
    m.Respects Admits (Falls weight) (fun memory => Sound memory.allocator) Memory.perform cpu := by
  intro effect rest outcome work performed admitted
  have left := left_of_perform sound performed
  refine ⟨left.sound, fun ordered => ?_⟩
  by_cases reclaims : effect = .reclaim
  · subst reclaims
    cases performed
    exact ordered_reclaim work spares ordered
  · have takes : outcome.takes = none :=
      eq_none_iff_forall_ne_some.mpr fun name taken => reclaims (left.takes name taken).1
    rw [takes, takenWith_none]
    exact left.inserts reclaims _ admitted rest ordered

omit sound

/-! ## The invariant -/

structure Steady (m : MemoryMachine cap) : Prop where
  sound : Sound m.shared.allocator
  inOrder : m.InOrder Admits (Falls weight)

theorem steady_start (sound : Sound allocator) : Steady (start allocator) :=
  ⟨sound, inOrder_idle _⟩

theorem Steady.moves (steady : Steady m)
    (guarded : Guarded Spares Step m label after) : Steady after := by
  rcases guarded with ⟨spares, moves⟩
  have next := steady.inOrder.moves (fun memory => Sound memory.allocator) steady.sound
    (fun cpu call _ => code_ordered call) (fun cpu goes => respects steady.sound (goes ▸ spares))
    moves
  exact ⟨next.1, next.2⟩

theorem steady_of_run {labels : List (Move Nat MemoryCall)}
    (sound : Sound allocator) (run : Run (Guarded Spares Step) (start allocator) labels m) :
    Steady m := by
  have preserved (state : MemoryMachine cap) (label : Move Nat MemoryCall)
      (next : MemoryMachine cap) (steady : Steady state)
      (moves : Guarded Spares Step state label next) : Steady next := steady.moves moves
  exact run.invariant preserved (steady_start sound)

/-- The other CPUs leave the work and the result of a CPU alone. -/
theorem others_leave (steady : Steady m) (moves : Step m label after)
    (begins : ∀ call, label ≠ .begins cpu call) (goes : label ≠ .goes cpu) :
    after.todo cpu = m.todo cpu ∧ after.shared.result cpu = m.shared.result cpu := by
  cases label with
  | begins other call =>
    have differs : cpu ≠ other := by
      rintro rfl
      exact begins call rfl
    obtain ⟨-, rfl⟩ := begins_eq moves
    exact ⟨update_of_ne differs _ _, rfl⟩
  | goes other =>
    have differs : cpu ≠ other := by
      rintro rfl
      exact goes rfl
    rcases go_cases moves with ⟨_, _, _, _, rfl⟩ | ⟨_, _, _, _, rfl⟩ |
      ⟨_, _, _, _, _, performed, rfl⟩ | ⟨_, _, _, _, _, _, performed, _, rfl⟩
    · exact ⟨update_of_ne differs _ _, rfl⟩
    · exact ⟨update_of_ne differs _ _, rfl⟩
    · exact ⟨update_of_ne differs _ _, (left_of_perform steady.sound performed).result cpu differs⟩
    · exact ⟨update_of_ne differs _ _, (left_of_perform steady.sound performed).result cpu differs⟩

/-! ## The steps of an allocation -/

/-- What an allocation has to do when at most so many steps are left. -/
def allocStage (count : Nat) : Nat → List MemoryInstr
  | 8 => MemoryCall.code (.alloc count)
  | 7 => [.run (.alloc count), .unlock .frameAllocator]
  | 6 => [.run (.recover (some count)), .unlock .frameAllocator]
  | 5 => [.run .reclaim, .run .endRecovery, .run (.again count), .unlock .frameAllocator]
  | 4 => [.unlock .pageCache, .run .endRecovery, .run (.again count), .unlock .frameAllocator]
  | 3 => [.run .endRecovery, .run (.again count), .unlock .frameAllocator]
  | 2 => [.run (.again count), .unlock .frameAllocator]
  | 1 => [.unlock .frameAllocator]
  | _ => []

/-- A CPU is in an allocation; from the first attempt on there is a result. -/
structure Allocating (m : MemoryMachine cap) (cpu count left : Nat) : Prop where
  work : m.todo cpu = allocStage count left
  result : left ≤ 6 → (m.shared.result cpu).isSome

/-- An instruction that only works on a lock takes a stage to the next one. -/
theorem Allocating.of_lock {next : Nat}
    {instr : MemoryInstr} (allocating : Allocating m cpu count left)
    (stage : allocStage count left = instr :: rest) (atLock : ∀ effect, instr ≠ .run effect)
    (goes : Step m (.goes cpu) after) (following : rest = allocStage count next)
    (result : next ≤ 6 → left ≤ 6) : Allocating after cpu count next := by
  have work := allocating.work.trans stage
  rcases go_cases goes with ⟨_, _, work', _, rfl⟩ | ⟨_, _, work', _, rfl⟩ |
    ⟨_, _, _, _, work', _, rfl⟩ | ⟨_, _, _, _, _, work', _, _, rfl⟩ <;>
    rw [work] at work' <;> cases work'
  · exact ⟨(update_self _ _ _).trans following, fun small =>
      allocating.result (result small)⟩
  · exact ⟨(update_self _ _ _).trans following, fun small =>
      allocating.result (result small)⟩
  · exact absurd rfl (atLock _)
  · exact absurd rfl (atLock _)

/-- What one effect of an allocation leaves. -/
theorem effect_leaves (work : m.todo cpu = .run effect :: rest) (goes : Step m (.goes cpu) after) :
    ∃ outcome, Memory.perform cpu effect m.owner m.shared = some outcome ∧
      after.shared = outcome.shared ∧ after.todo cpu = outcome.inserts ++ rest := by
  rcases go_cases goes with ⟨_, _, work', _, rfl⟩ | ⟨_, _, work', _, rfl⟩ |
    ⟨_, _, _, _, work', performed, rfl⟩ | ⟨_, _, _, _, _, work', performed, _, rfl⟩ <;>
    rw [work] at work' <;> cases work'
  all_goals exact ⟨_, performed, rfl, update_self _ _ _⟩

/-- Every step of an allocation brings it closer to its end. -/
theorem Allocating.goes (steady : Steady m) (allocating : Allocating m cpu count left)
    (guarded : Guarded Spares Step m (.goes cpu) after) :
    ∃ next < left, Allocating after cpu count next := by
  rcases guarded with ⟨spares, moves⟩
  have work := allocating.work
  match left with
  | 8 =>
    exact ⟨7, by decide, allocating.of_lock rfl (by simp) moves rfl (by decide)⟩
  | 7 =>
    rcases effect_leaves work moves with ⟨outcome, performed, shared, rest⟩
    obtain ⟨result, inserts | inserts⟩ := shared ▸ attempt_spec performed
    · exact ⟨1, by decide, by rw [rest, inserts]; rfl, fun _ => result⟩
    · exact ⟨6, by decide, by rw [rest, inserts]; rfl, fun _ => result⟩
  | 6 =>
    rcases effect_leaves work moves with ⟨outcome, performed, shared, rest⟩
    have result := allocating.result le_rfl
    cases performed
    unfold recover at shared rest
    split at shared
    · rename_i active
      rw [if_pos active] at rest
      exact ⟨1, by decide, rest, fun _ => by rw [shared]; exact result⟩
    · rename_i idle
      rw [if_neg idle] at rest
      exact ⟨5, by decide, rest, fun _ => by rw [shared]; exact result⟩
  | 5 =>
    rcases effect_leaves work moves with ⟨outcome, performed, shared, rest⟩
    have result := allocating.result (by decide)
    -- An allocation at the reclaim holds the lock of the allocator.
    have ordered := steady.inOrder cpu
    rw [work] at ordered
    have empty := spares _ work ordered.2.2.1
    cases performed
    unfold reclaim at shared rest
    split at shared
    · rename_i free
      rw [if_pos free, empty.resolve_left (not_not_intro free)] at rest
      exact ⟨4, by decide, rest, fun _ => by rw [shared]; exact result⟩
    · rename_i taken
      rw [if_neg taken] at rest
      exact ⟨3, by decide, rest, fun _ => by rw [shared]; exact result⟩
  | 4 =>
    exact ⟨3, by decide, allocating.of_lock rfl (by simp) moves rfl (by decide)⟩
  | 3 =>
    rcases effect_leaves work moves with ⟨outcome, performed, shared, rest⟩
    have result := allocating.result (by decide)
    cases performed
    exact ⟨2, by decide, rest, fun _ => by rw [shared]; exact result⟩
  | 2 =>
    rcases effect_leaves work moves with ⟨outcome, performed, shared, rest⟩
    obtain ⟨result, inserts | inserts⟩ := shared ▸ attempt_spec performed <;>
      exact ⟨1, by decide, by rw [rest, inserts]; rfl, fun _ => result⟩
  | 1 =>
    exact ⟨0, by decide, allocating.of_lock rfl (by simp) moves rfl (by decide)⟩
  | 0 | _ + 9 =>
    rw [Step, move, go, work] at moves
    cases moves

/-- An allocation takes at most eight steps of its CPU, and returns a result. -/
theorem allocation_is_short {later : List (Move Nat MemoryCall)}
    {begun last : MemoryMachine cap} (steady : Steady m)
    (begins : Step m (.begins cpu (.alloc count)) begun)
    (run : Run (Guarded Spares Step) begun later last) (once : ∀ call, .begins cpu call ∉ later) :
    later.count (.goes cpu) ≤ 8 ∧ (last.todo cpu = [] → (last.shared.result cpu).isSome) := by
  have spares : Spares m (.begins cpu (.alloc count)) := trivial
  have steady' : Steady begun := steady.moves ⟨spares, begins⟩
  have first : Allocating begun cpu count 8 := by
    obtain ⟨-, rfl⟩ := begins_eq begins
    exact ⟨update_self _ _ _, fun small => absurd small (by decide)⟩
  have allowed : ∀ label ∈ later, ∀ call, label ≠ .begins cpu call := by
    rintro label member call rfl
    exact once call member
  have preserved (seen : List (Move Nat MemoryCall)) (state : MemoryMachine cap)
      (label : Move Nat MemoryCall) (next : MemoryMachine cap)
      (holds : Steady state ∧ ∃ left, Allocating state cpu count left ∧
        seen.count (.goes cpu) + left ≤ 8)
      (moves : Guarded (fun _ label => ∀ call, label ≠ .begins cpu call) (Guarded Spares Step)
        state label next) :
      Steady next ∧ ∃ left, Allocating next cpu count left ∧
        (seen ++ [label]).count (.goes cpu) + left ≤ 8 := by
    rcases holds with ⟨steady, left, allocating, bound⟩
    rcases moves with ⟨other, guarded⟩
    refine ⟨steady.moves guarded, ?_⟩
    rw [List.count_append]
    by_cases mine : label = .goes cpu
    · subst mine
      rcases allocating.goes steady guarded with ⟨next, closer, allocating'⟩
      refine ⟨next, allocating', ?_⟩
      rw [List.count_singleton_self]
      omega
    · rcases others_leave steady guarded.2 other mine with ⟨work, result⟩
      refine ⟨left, ⟨work.trans allocating.work, fun small => ?_⟩, ?_⟩
      · rw [result]
        exact allocating.result small
      · rw [List.count_singleton, if_neg (by simpa using mine)]
        exact bound
  rcases (run.guarded allowed).history preserved ⟨steady', 8, first, le_rfl⟩ with
    ⟨_, left, allocating, bound⟩
  refine ⟨by omega, fun idle => ?_⟩
  apply allocating.result
  by_contra large
  have work := allocating.work.symm.trans idle
  match left with
  | 7 | 8 => nomatch work
  | _ + 9 => omega

/-- The second attempt succeeds when the order is in stock. -/
theorem again_succeeds (steady : Steady m)
    (work : m.todo cpu = .run (.again count) :: rest) (online : cpu < m.shared.allocator.cpuCount)
    (chosen : orderForCount count m.shared.allocator.maxOrder = .ok order)
    (stocked : Stocked m.shared.allocator cpu order) (goes : Step m (.goes cpu) after) :
    ∃ frame, after.shared.result cpu = some (.ok frame) := by
  rcases allocFrame4kOnCpu_stocked steady.sound online chosen stocked with ⟨address, later, run⟩
  rcases effect_leaves work goes with ⟨outcome, performed, shared, _⟩
  rw [Memory.perform, Memory.attempt, run] at performed
  cases performed
  rw [shared]
  exact ⟨_, update_self _ _ _⟩

/-- While no allocation reclaims a page of the cache, the allocator is never
entered twice: no CPU asks for a lock it holds and no CPUs wait in a circle;
whoever has work can go on or waits for one that can; an allocation takes at
most eight steps of its CPU and returns a result; and its second attempt
succeeds when a block of its order is in stock. -/
theorem recovery_does_not_reenter {memMap : List MemoryRegion} {cpuCount : Nat}
    {allocator : BuddyAllocator cap} {labels : List (Move Nat MemoryCall)}
    (booted : bootstrap cap memMap cpuCount = some (.ok allocator))
    (run : Run (Guarded Spares Step) (start allocator) labels m) :
    (∀ cpu, m.owner .frameAllocator = some cpu → m.wants cpu ≠ some .frameAllocator) ∧
    (∀ cpu, ¬TransGen m.WaitsFor cpu cpu) ∧
    (∀ cpu, m.todo cpu ≠ [] →
      ∃ able after, ReflTransGen m.WaitsFor cpu able ∧ Step m (.goes able) after) ∧
    (∀ cpu count begun later last, Step m (.begins cpu (.alloc count)) begun →
      Run (Guarded Spares Step) begun later last → (∀ call, .begins cpu call ∉ later) →
      later.count (.goes cpu) ≤ 8 ∧ (last.todo cpu = [] → (last.shared.result cpu).isSome)) ∧
    ∀ cpu count order rest after, m.todo cpu = .run (.again count) :: rest →
      cpu < m.shared.allocator.cpuCount →
      orderForCount count m.shared.allocator.maxOrder = .ok order →
      Stocked m.shared.allocator cpu order → Step m (.goes cpu) after →
      ∃ frame, after.shared.result cpu = some (.ok frame) := by
  rcases bootstrap_invariant booted with ⟨⟨view, invariant, _⟩, _⟩
  have steady := steady_of_run ⟨view, invariant⟩ run
  have total (u : Nat) (effect : MemoryEffect) (rest : List MemoryInstr)
      (_ : m.todo u = .run effect :: rest) :
      ∃ outcome, Memory.perform u effect m.owner m.shared = some outcome ∧
        ∀ name, outcome.takes = some name → m.owner name = none := by
    rcases perform_left steady.sound u effect with ⟨outcome, performed, left⟩
    exact ⟨outcome, performed, fun name taken => (left.takes name taken).2⟩
  refine ⟨?_, ?_, ?_, ?_, ?_⟩
  · intro cpu holds
    exact steady.inOrder.not_waits_self falls_acyclic holds
  · exact steady.inOrder.no_circle falls_acyclic
  · exact steady.inOrder.exists_able (measure _).wf total
  · intro cpu count begun later last begins more once
    exact allocation_is_short steady begins more once
  · intro cpu count order rest after work online chosen stocked goes
    exact again_succeeds steady work online chosen stocked goes

/-! ## A machine with one page -/

/-- The guard of a move as a check. -/
def spares (m : MemoryMachine cap) : Move Nat MemoryCall → Bool
  | .begins _ _ => true
  | .goes cpu =>
    match m.todo cpu with
    | .run .reclaim :: _ =>
      decide (m.owner .frameAllocator ≠ some cpu) || (m.owner .pageCache).isSome ||
        m.shared.cache.entries.isEmpty
    | _ => true

theorem spares_sound (m : MemoryMachine cap) (label : Move Nat MemoryCall)
    (checked : spares m label) : Spares m label := by
  cases label with
  | begins cpu call => trivial
  | goes cpu =>
    intro rest work holds
    rw [spares] at checked
    simp only [work, holds, ne_eq, not_true_eq_false, decide_false, Bool.false_or,
      Bool.or_eq_true, List.isEmpty_iff] at checked
    rcases checked with taken | empty
    · exact .inl (isSome_iff_ne_none.mp taken)
    · exact .inr empty

/-- A machine with one page of memory and one CPU. -/
def onePage : Option (MemoryMachine ⟨1, 1, 4⟩) :=
  match bootstrap ⟨1, 1, 4⟩ [⟨0, 0x1000, usableKind⟩] 1 with
  | some (.ok allocator) => some (start allocator)
  | _ => none

theorem exists_onePage {state : MemoryMachine ⟨1, 1, 4⟩} (started : onePage = some state) :
    ∃ allocator, bootstrap ⟨1, 1, 4⟩ [⟨0, 0x1000, usableKind⟩] 1 =
      some (.ok allocator) ∧ state = start allocator := by
  unfold onePage at started
  split at started
  · rename_i allocator booted
    cases started
    exact ⟨allocator, booted, rfl⟩
  · nomatch started

/-- Two allocations: the second finds no memory and no page to reclaim. -/
def exhausts : List (Move Nat MemoryCall) :=
  .begins 0 (.alloc 1) :: List.replicate 3 (.goes 0) ++
    .begins 0 (.alloc 1) :: List.replicate 8 (.goes 0)

theorem recovery_does_not_reenter_one_page :
    ∃ (allocator : BuddyAllocator ⟨1, 1, 4⟩) (m : MemoryMachine ⟨1, 1, 4⟩),
      bootstrap ⟨1, 1, 4⟩ [⟨0, 0x1000, usableKind⟩] 1 = some (.ok allocator) ∧
      Run (Guarded Spares Step) (start allocator) exhausts m ∧
      ∀ cpu, ¬TransGen m.WaitsFor cpu cpu := by
  have executed : (onePage.bind fun state => exhausts.foldlM (fun state label =>
      if spares state label then state.move Memory.perform MemoryCall.code label else none)
      state).isSome = true := by
    decide +kernel
  rcases isSome_iff_exists.mp executed with ⟨m, folded⟩
  rcases bind_eq_some_iff.mp folded with ⟨state, started, moved⟩
  rcases exists_onePage started with ⟨allocator, booted, rfl⟩
  have run := guarded_of_foldlM spares_sound moved
  exact ⟨allocator, m, booted, run, (recovery_does_not_reenter booted run).2.1⟩

/-- A page is loaded into the only frame, and then a frame is asked for. -/
def reclaims : List (Move Nat MemoryCall) :=
  .begins 0 (.loadPage ⟨⟨1, 2⟩, 0⟩ (.bytes 10)) :: List.replicate 9 (.goes 0) ++
    .begins 0 (.alloc 1) :: List.replicate 5 (.goes 0)

/-- The allocation takes the page out of the cache and asks, to give its frame
back, for the lock it holds.  It never gets it. -/
theorem reclaiming_allocation_waits_for_itself :
    ∃ (allocator : BuddyAllocator ⟨1, 1, 4⟩) (m : MemoryMachine ⟨1, 1, 4⟩),
      bootstrap ⟨1, 1, 4⟩ [⟨0, 0x1000, usableKind⟩] 1 = some (.ok allocator) ∧
      Run Step (start allocator) reclaims m ∧
      ∀ later last, Run Step m later last → last.WaitsForItself 0 .frameAllocator := by
  have executed : ((onePage.bind fun state => reclaims.foldlM (fun state label =>
      state.move Memory.perform MemoryCall.code label) state).map fun m =>
        (m.owner .frameAllocator, m.wants 0)) = some (some 0, some .frameAllocator) := by
    decide +kernel
  rcases map_eq_some_iff.mp executed with ⟨m, folded, waiting⟩
  rcases bind_eq_some_iff.mp folded with ⟨state, started, moved⟩
  rcases exists_onePage started with ⟨allocator, booted, rfl⟩
  refine ⟨allocator, m, booted, run_of_foldlM moved, fun later last run => ?_⟩
  have waits : m.WaitsForItself 0 .frameAllocator :=
    ⟨congrArg Prod.fst waiting, congrArg Prod.snd waiting⟩
  exact waits.run run

end MemoryMachine

end AetherKernel.Mm
