import AetherKernel.Mm.Buddy.Regions

/-!
# The allocator refines the region map

The region map is never stored: it is read off the allocation list.  Every
call of a reachable allocator is a step of the region map, a frame is on a
free list exactly when it is usable and in no live region, and so the lifetime
of a region in the abstract map is the time its frames cannot be allocated
again.
-/

namespace AetherKernel.Mm.Buddy

open Lib BuddyAllocator Function List RegionMap

variable {cap : Capacity} {a b c : BuddyAllocator cap} {v w : View} {block : Block}
  {blocks : List Block} {start count address : Nat} {events : List Event}

/-! ## Reading the state -/

/-- The region map of a list of live blocks. -/
def regionsOf (blocks : List Block) : RegionMap :=
  fun start =>
    (blocks.find? fun block => block.start = start).map fun block => (block.order, block.refcount)

namespace BuddyAllocator

/-- The nodes of a list, by following its links. -/
def nodesOf (a : BuddyAllocator cap) (k : ListId) : List Nat :=
  Linked.walk (fun i => (a.node i).next) cap.maxBlockNodes (a.head k)

def liveBlocks (a : BuddyAllocator cap) : List Block :=
  (a.nodesOf .allocated).map a.block

def regions (a : BuddyAllocator cap) : RegionMap :=
  regionsOf a.liveBlocks

/-- The frame is on a global free list or in the cache of a CPU. -/
def Allocatable (a : BuddyAllocator cap) (frame : Nat) : Prop :=
  ∃ k, (k ≠ .allocated ∧ k ≠ .unused) ∧
    ∃ i ∈ a.nodesOf k, frame ∈ frames (a.block i).start (a.block i).order

end BuddyAllocator

theorem Invariant.nodesOf_eq (invariant : Invariant a v) (k : ListId) : a.nodesOf k = v.lists k :=
  (invariant.valid.represents.linked k).walk_eq (invariant.valid.length_le k)

theorem Invariant.liveBlocks_eq (invariant : Invariant a v) : a.liveBlocks = live a v := by
  rw [liveBlocks, invariant.nodesOf_eq, live]

/-! ## Region maps of block lists -/

theorem regionsOf_cons (block : Block) (blocks : List Block) : regionsOf (block :: blocks) =
      update (regionsOf blocks) block.start (some (block.order, block.refcount)) := by
  funext start
  by_cases same : start = block.start
  · subst same
    simp [regionsOf]
  · simp [regionsOf, same, Ne.symm same]

/-- A block in the middle of the list may be moved to its front. -/
theorem regionsOf_middle {before after : List Block}
    (distinct : ∀ other ∈ before, other.start ≠ block.start) :
    regionsOf (before ++ block :: after) = update (regionsOf (before ++ after)) block.start
        (some (block.order, block.refcount)) := by
  induction before with
  | nil => exact regionsOf_cons block after
  | cons first rest ih =>
    have differ := distinct first mem_cons_self
    rw [cons_append, cons_append, regionsOf_cons, regionsOf_cons,
      ih fun other member => distinct other (mem_cons_of_mem _ member),
      update_comm differ]

theorem mem_of_regionsOf {order n : Nat}
    (found : regionsOf blocks start = some (order, n)) : ⟨start, order, n⟩ ∈ blocks := by
  simp only [regionsOf, Option.map_eq_some_iff] at found
  obtain ⟨block, there, rfl, rfl⟩ := found
  have startEq : block.start = start := by simpa using List.find?_some there
  rw [← startEq]
  exact mem_of_find?_eq_some there

namespace Invariant

theorem ne_of_disjoint_frames {x y : Block}
    (disjoint : Disjoint (frames x.start x.order) (frames y.start y.order)) :
    x.start ≠ y.start := by
  intro same
  refine Finset.disjoint_left.mp disjoint (start_mem_frames _ _) ?_
  rw [same]
  exact start_mem_frames _ _

theorem address_eq (small : start < frameLimit) :
    start <<< pageShift % Word.size = start <<< pageShift := by
  simp only [pageShift, frameLimit, Word.size] at *
  omega

variable {before after : List Block} (invariant : Invariant a v)

include invariant

/-- Live blocks are aligned, lie in one usable range and have a reference. -/
theorem live_block (member : block ∈ live a v) :
    2 ^ block.order ∣ block.start ∧ (∃ range ∈ a.usableRanges,
        range.1 ≤ block.start ∧ block.start + 2 ^ block.order ≤ range.1 + range.2) ∧
      block.start < frameLimit ∧ 0 < block.refcount := by
  obtain ⟨i, listed, rfl⟩ := mem_map.mp member
  obtain ⟨cell, _, aligned⟩ := invariant.valid.occupies listed (by simp)
  have usable := invariant.valid.tiling.subset i
  rw [cell] at usable
  refine ⟨by simpa using aligned, ?_, ?_, (invariant.valid.admits listed).1⟩
  · rw [frames, blockSize_eq] at usable
    exact invariant.configured.coalesced.one_range (Nat.two_pow_pos _) usable
  · exact invariant.configured.coalesced.lt_frameLimit (usable (start_mem_frames _ _))

/-- Live blocks do not overlap. -/
theorem live_disjoint :
    (live a v).Pairwise fun x y => Disjoint (frames x.start x.order) (frames y.start y.order) := by
  rw [live, pairwise_map]
  apply (invariant.valid.represents.nodup .allocated).imp_of_mem
  intro i j first second differ
  rw [← (invariant.valid.occupies first (by simp)).cell_eq,
    ← (invariant.valid.occupies second (by simp)).cell_eq]
  exact invariant.valid.tiling.disjoint differ

theorem regions_eq : a.regions = regionsOf (live a v) := by
  rw [regions, invariant.liveBlocks_eq]

variable (split : live a v = before ++ block :: after)
include split

/-- The starts of the other live blocks differ from that of a given one. -/
theorem live_starts :
    (∀ other ∈ before, other.start ≠ block.start) ∧ ∀ other ∈ after, other.start ≠ block.start := by
  have disjoint := invariant.live_disjoint
  rw [split, pairwise_append, pairwise_cons] at disjoint
  constructor
  · intro other member
    exact ne_of_disjoint_frames (disjoint.2.2 other member block mem_cons_self)
  · intro other member
    exact (ne_of_disjoint_frames (disjoint.2.1.1 other member)).symm

theorem regions_of_split : a.regions = update (regionsOf (before ++ after)) block.start
      (some (block.order, block.refcount)) := by
  rw [invariant.regions_eq, split, regionsOf_middle (invariant.live_starts split).1]

theorem regions_live : a.regions block.start = some (block.order, block.refcount) := by
  rw [invariant.regions_of_split split, update_self]

/-- Dropping a reference of a live block, in terms of the region map. -/
theorem regions_dropRef (invariant' : Invariant b w)
    (dropped : live b w = before ++ block.dropRef ++ after) :
    b.regions = update a.regions block.start (dropRef block.order block.refcount) := by
  have positive : 0 < block.refcount := (invariant.live_block (by simp [split])).2.2.2
  have starts := invariant.live_starts split
  rw [invariant.regions_of_split split, update_idem, invariant'.regions_eq, dropped,
    Block.dropRef, dropRef]
  by_cases last : block.refcount = 1
  · rw [if_pos last, if_pos last.le, append_nil]
    symm
    apply update_eq_self_iff.mpr
    symm
    simpa [regionsOf] using starts
  · rw [if_neg last, if_neg (by omega), append_assoc]
    exact regionsOf_middle starts.1

/-! ## Simulation -/

omit split

/-- Every call is a step of the region map. -/
theorem perform_step {operation : Operation} {outcome : Except FrameAllocError Nat}
    (run : perform operation a = some (outcome, b)) :
    Step a.usableRanges a.regions (operation, outcome) b.regions := by
  have valid := invariant.valid
  cases operation with
  | allocFrame4kOnCpu cpuId count =>
    rcases (allocFrame4kOnCpu_returns valid cpuId count).of_run run with
      ⟨error, w, rfl, reaches⟩ | ⟨start, w, rfl, valid', ⟨config, -⟩, blocks⟩
    · have invariant' := invariant.of_valid reaches.config reaches.valid
      rw [invariant'.regions_eq, reaches.live, ← invariant.regions_eq]
      exact .refuse
    have invariant' := invariant.of_valid config valid'
    have member : (⟨start, ceilLog2 count, 1⟩ : Block) ∈ live b w := by simp [blocks]
    obtain ⟨aligned, usable, small, _⟩ := invariant'.live_block member
    have disjoint := invariant'.live_disjoint
    rw [blocks, pairwise_cons] at disjoint
    rw [address_eq small, invariant'.regions_eq, blocks, regionsOf_cons, ← invariant.regions_eq]
    apply Step.alloc aligned
    · rw [show a.usableRanges = b.usableRanges from congrArg Config.usableRanges config.symm]
      exact usable
    · intro other order n found
      rw [invariant.regions_eq] at found
      exact (disjoint.1 _ (mem_of_regionsOf found)).symm
  | retainFrame block =>
    cases (retainFrame_returns valid block).of_run run with
    | refused => exact .refuse
    | @edited before after block _ w split there _ valid' steady blocks =>
      cases there
      rw [append_assoc, singleton_append] at blocks
      have retained : b.regions = update a.regions block.start
          (some (block.order, block.refcount + 1)) := by
        rw [invariant.regions_of_split split, update_idem,
          (invariant.of_valid steady.config valid').regions_of_split blocks]
      rw [retained]
      exact .retain (invariant.regions_live split)
  | freeFrameOnCpu cpuId block =>
    cases (freeFrameOnCpu_bind_returns valid cpuId block 0).of_run run with
    | refused => exact .refuse
    | edited split there _ valid' steady blocks =>
      cases there
      rw [invariant.regions_dropRef split (invariant.of_valid steady.config valid') blocks]
      exact .free (invariant.regions_live split)
  | release cpuId frame count =>
    cases (release_returns valid cpuId frame count).of_run run with
    | refused => exact .refuse
    | @edited _ _ block _ _ split there accepted valid' steady blocks =>
      obtain ⟨positive, orderEq, _⟩ := orderForCount_eq_ok accepted.2
      rw [invariant.regions_dropRef split (invariant.of_valid steady.config valid') blocks,
        show frame = ⟨block.start <<< pageShift⟩ from congrArg PhysFrame.mk there.symm]
      exact .release (invariant.regions_live split) ⟨positive, orderEq.symm⟩

/-- A frame is on a free list exactly when it is usable and in no live
block. -/
theorem allocatable_iff (frame : Nat) :
    a.Allocatable frame ↔ frame ∈ usableFrames a.usableRanges ∧
      ∀ start order n, a.regions start = some (order, n) → frame ∉ frames start order := by
  have valid := invariant.valid
  constructor
  · rintro ⟨k, ⟨notLive, active⟩, i, listed, inside⟩
    rw [invariant.nodesOf_eq] at listed
    rw [← (valid.occupies listed active).cell_eq] at inside
    refine ⟨valid.tiling.subset i inside, ?_⟩
    intro start order n found there
    rw [invariant.regions_eq] at found
    obtain ⟨j, listed', blockEq⟩ := mem_map.mp (mem_of_regionsOf found)
    have cell := (valid.occupies listed' (by simp)).cell_eq
    rw [blockEq] at cell
    have same : i = j := valid.tiling.unique inside (cell ▸ there)
    subst same
    exact notLive (valid.represents.exclusive listed listed')
  · rintro ⟨usable, free⟩
    obtain ⟨i, inside⟩ := (valid.tiling.cover frame).mp usable
    obtain ⟨k, active, listed⟩ := valid.listed_of_mem inside
    rw [(valid.occupies listed active).cell_eq] at inside
    refine ⟨k, ⟨?_, active⟩, i, invariant.nodesOf_eq k ▸ listed, inside⟩
    rintro rfl
    obtain ⟨pre, post, split⟩ := append_of_mem (mem_map_of_mem (f := a.block) listed)
    exact free _ _ _ (invariant.regions_live split) inside

theorem regions_apart : Apart a.regions := by
  intro start order n other order' n' first second differ
  rw [invariant.regions_eq] at first second
  have : Std.Symm fun x y : Block => Disjoint (frames x.start x.order) (frames y.start y.order) :=
    ⟨fun _ _ apart => apart.symm⟩
  exact invariant.live_disjoint.forall (mem_of_regionsOf first)
    (mem_of_regionsOf second) fun same => differ (Block.mk.inj same).1

end Invariant

/-! ## Runs -/

/-- Calls of an allocator with their results. -/
inductive Calls : BuddyAllocator cap → List Event → BuddyAllocator cap → Prop
  | nil {a : BuddyAllocator cap} : Calls a [] a
  | cons {a b c : BuddyAllocator cap} {operation : Operation}
      {outcome : Except FrameAllocError Nat} {events : List Event}
      (call : perform operation a = some (outcome, b)) (rest : Calls b events c) :
      Calls a ((operation, outcome) :: events) c

/-- A sequence of calls is a trace of the region map. -/
theorem Calls.trace (calls : Calls a events b) (invariant : Invariant a v) :
    ∃ w, Invariant b w ∧ b.config = a.config ∧ Trace a.usableRanges a.regions events b.regions := by
  induction calls generalizing v with
  | nil => exact ⟨v, invariant, rfl, .nil⟩
  | @cons a b c operation outcome events call rest ih =>
    obtain ⟨w, invariant', config⟩ := (perform_invariant invariant operation).of_run call
    obtain ⟨x, final, config', trace⟩ := ih invariant'
    have ranges : b.usableRanges = a.usableRanges := congrArg Config.usableRanges config
    rw [ranges] at trace
    exact ⟨x, final, config'.trans config, .cons (invariant.perform_step call) trace⟩

/-- From its allocation on, the frames of a block cannot be allocated again
until the successful frees of its address exceed the successful retains by
one, and from that call on they can. -/
theorem Invariant.lifetime {cpuId : Nat} (invariant : Invariant a v)
    (allocated : allocFrame4kOnCpu cpuId count a = some (.ok address, b))
    (calls : Calls b events c) (outlives : Outlives address 1 events) :
    ∃ start, address = start <<< pageShift ∧
      ((freeCount address events < 1 + retainCount address events ∧ c.regions start =
            some (ceilLog2 count, 1 + retainCount address events - freeCount address events) ∧
          ∀ frame ∈ frames start (ceilLog2 count), ¬c.Allocatable frame) ∨
        (freeCount address events = 1 + retainCount address events ∧
          ∀ frame ∈ frames start (ceilLog2 count), c.Allocatable frame)) := by
  have run : perform (.allocFrame4kOnCpu cpuId count) a = some (.ok address, b) := allocated
  obtain ⟨w, invariant', config⟩ := (perform_invariant invariant _).of_run run
  obtain ⟨x, final, config', trace⟩ := calls.trace invariant'
  have step := invariant.perform_step run
  generalize regionsB : b.regions = regions at step
  cases step with
  | @alloc _ _ start aligned usable free =>
    have here : b.regions start = some (ceilLog2 count, 1) := by
      rw [regionsB, update_self]
    refine ⟨start, rfl, ?_⟩
    rcases trace.count invariant'.regions_apart here Nat.one_pos outlives with
      ⟨less, live⟩ | ⟨equal, gone⟩
    · refine .inl ⟨less, live, ?_⟩
      intro frame inside allocatable
      exact ((final.allocatable_iff frame).mp allocatable).2 _ _ _ live inside
    refine .inr ⟨equal, ?_⟩
    intro frame inside
    rw [final.allocatable_iff]
    constructor
    · obtain ⟨range, member, low, high⟩ := usable
      have ranges : c.usableRanges = a.usableRanges :=
        congrArg Config.usableRanges (config'.trans config)
      rw [ranges, mem_usableFrames]
      rw [mem_frames] at inside
      exact ⟨range, member, by omega, by omega⟩
    · intro other order n found there
      exact Finset.disjoint_left.mp (gone other order n found) there inside

/-! ## Refused calls -/

/-- A retain, free or release of an address where no live block starts is
refused and changes nothing. -/
theorem Invariant.refused (invariant : Invariant a v)
    (absent : ∀ block ∈ a.liveBlocks, block.address ≠ address) :
    (∃ error, retainFrame address a = some (.error error, a)) ∧
      (∀ cpuId, ∃ error, freeFrameOnCpu cpuId address a = some (.error error, a)) ∧
      ∀ cpuId count, ∃ error,
        release cpuId ⟨address⟩ count a = some (.error error, a) := by
  have valid := invariant.valid
  rw [invariant.liveBlocks_eq] at absent
  have nowhere (accepts : Block → Prop) :
      ∀ block ∈ live a v, block.address = address → ¬accepts block :=
    fun block member there => absurd there (absent block member)
  exact ⟨refused_of_returns (retainFrame_returns valid address) (nowhere _),
    fun cpuId => refused_of_returns (freeFrameOnCpu_returns valid cpuId address) (nowhere _),
    fun cpuId count => refused_of_returns (release_returns valid cpuId ⟨address⟩ count) (nowhere _)⟩

/-- A release with a count of another order is refused and changes nothing. -/
theorem Invariant.refused_count (invariant : Invariant a v)
    (member : block ∈ a.liveBlocks) (mismatch : ceilLog2 count ≠ block.order) (cpuId : Nat) :
    ∃ error, release cpuId ⟨block.address⟩ count a = some (.error error, a) := by
  rw [invariant.liveBlocks_eq] at member
  refine refused_of_returns (release_returns invariant.valid cpuId ⟨block.address⟩ count) ?_
  intro other listed there accepted
  cases live_unique invariant.valid listed member there
  exact mismatch (orderForCount_eq_ok accepted.2).2.1.symm

/-- The allocator refines the region map.  In every state reached from
bootstrap: every call is a step of the map, in which an allocation returns an
aligned block inside one usable range and clear of all live regions and the
other calls change one count by one; calls on anything but a live block, and
releases with a count of another order, are refused without a change; and the
frames of a block become allocatable with the free that takes its last
reference, not earlier. -/
theorem refines_regionMap {memMap : List MemoryRegion} {cpuCount : Nat}
    (booted : bootstrap cap memMap cpuCount = some (.ok a))
    {operations : List Operation} (run : performAll operations a = some b) :
    (∀ operation outcome c, perform operation b = some (outcome, c) →
      Step b.usableRanges b.regions (operation, outcome) c.regions) ∧
    (∀ address, (∀ block ∈ b.liveBlocks, block.address ≠ address) →
      (∃ error, retainFrame address b = some (.error error, b)) ∧
      (∀ cpuId, ∃ error, freeFrameOnCpu cpuId address b = some (.error error, b)) ∧
      ∀ cpuId count, ∃ error,
        release cpuId ⟨address⟩ count b = some (.error error, b)) ∧
    (∀ block ∈ b.liveBlocks, ∀ cpuId count, ceilLog2 count ≠ block.order → ∃ error,
      release cpuId ⟨block.address⟩ count b = some (.error error, b)) ∧
    (∀ cpuId count address c events d,
      allocFrame4kOnCpu cpuId count b = some (.ok address, c) →
      Calls c events d → Outlives address 1 events →
      ∃ start, address = start <<< pageShift ∧
        ((freeCount address events < 1 + retainCount address events ∧ d.regions start =
              some (ceilLog2 count, 1 + retainCount address events - freeCount address events) ∧
            ∀ frame ∈ frames start (ceilLog2 count), ¬d.Allocatable frame) ∨
          (freeCount address events = 1 + retainCount address events ∧
            ∀ frame ∈ frames start (ceilLog2 count), d.Allocatable frame))) ∧
    ∀ frame ∈ usableFrames b.usableRanges, ∃ region ∈ memMap, region.kind = usableKind ∧
      (frame + 1) * pageSize ≤ region.start + region.len ∧
      (region.start + pageSize ≤ Word.size → region.start ≤ frame * pageSize) := by
  obtain ⟨⟨v, invariant, _⟩, collected⟩ := bootstrap_invariant booted
  obtain ⟨b', w, run', invariant', config⟩ := performAll_invariant invariant operations
  rw [run] at run'
  cases run'
  refine ⟨fun operation outcome c call => invariant'.perform_step call,
    fun address absent => invariant'.refused absent,
    fun block member cpuId count mismatch => invariant'.refused_count member mismatch cpuId,
    fun cpuId count address c events d allocated calls outlives =>
      invariant'.lifetime allocated calls outlives, ?_⟩
  intro frame usable
  have ranges : b.usableRanges = a.usableRanges := congrArg Config.usableRanges config
  rw [ranges] at usable
  exact ((collected frame).mp usable).in_region

/-- A machine with four usable pages and one CPU: after a page has been
allocated, the contract holds of the next calls. -/
theorem refines_regionMap_four_pages : ∃ a b : BuddyAllocator ⟨1, 1, 4⟩,
      bootstrap ⟨1, 1, 4⟩ [⟨0, 0x4000, usableKind⟩] 1 = some (.ok a) ∧
      performAll [.allocFrame4kOnCpu 0 1] a = some b ∧
      ∀ operation outcome c, perform operation b = some (outcome, c) →
        Step b.usableRanges b.regions (operation, outcome) c.regions := by
  obtain ⟨a, booted⟩ : ∃ a : BuddyAllocator ⟨1, 1, 4⟩,
      bootstrap ⟨1, 1, 4⟩ [⟨0, 0x4000, usableKind⟩] 1 = some (.ok a) := ⟨_, rfl⟩
  obtain ⟨⟨v, invariant, _⟩, _⟩ := bootstrap_invariant booted
  obtain ⟨b, _, run, _⟩ := performAll_invariant invariant [.allocFrame4kOnCpu 0 1]
  exact ⟨a, b, booted, run, (refines_regionMap booted run).1⟩

end AetherKernel.Mm.Buddy
