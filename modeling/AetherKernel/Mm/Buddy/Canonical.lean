import AetherKernel.Mm.Buddy.Refinement

/-!
# Canonical free lists

Seeding cuts a usable range greedily from its start, and merging undoes splits
from below; both leave sorted lists in which no two buddies stand.  Such lists
are determined by their frames: the listed blocks are the maximal aligned
blocks of free frames.  So the free lists of a run do not depend on the order
of its operations.
-/

namespace AetherKernel.Mm.Buddy

open Lib BuddyAllocator Nat

variable {cap : Capacity} {a b : BuddyAllocator cap} {v w : View} {order start start' : Nat}

/-! ## Lists of aligned blocks -/

/-- The frame is in a listed block. -/
def Covers (lists : Nat → List Nat) (frame : Nat) : Prop :=
  ∃ order, ∃ start ∈ lists order, frame ∈ frames start order

/-- Aligned blocks of the managed orders that share no frame, in canonical lists. -/
structure FreeBlocks (maxOrder : Nat) (lists : Nat → List Nat) : Prop where
  canonical : Canonical maxOrder lists
  aligned : ∀ {order start}, start ∈ lists order → order ≤ maxOrder ∧ 2 ^ order ∣ start
  unique : ∀ {order start order' start' frame}, start ∈ lists order → start' ∈ lists order' →
    frame ∈ frames start order → frame ∈ frames start' order' → order = order' ∧ start = start'

/-- Two aligned blocks that share a frame are nested. -/
theorem frames_subset_of_mem {order' frame : Nat} (aligned : 2 ^ order ∣ start)
    (aligned' : 2 ^ order' ∣ start') (smaller : order ≤ order')
    (inside : frame ∈ frames start order)
    (inside' : frame ∈ frames start' order') : frames start order ⊆ frames start' order' := by
  obtain ⟨q, rfl⟩ := aligned
  obtain ⟨q', rfl⟩ := (pow_dvd_pow 2 smaller).trans aligned'
  obtain ⟨size, sizeEq⟩ := pow_dvd_pow 2 smaller
  intro point member
  rw [mem_frames] at inside inside' member ⊢
  rw [sizeEq, ← mul_add] at inside' ⊢
  have least : q' ≤ q :=
    Nat.lt_succ_iff.mp (Nat.lt_of_mul_lt_mul_left (inside'.1.trans_lt inside.2))
  have most : q.succ ≤ q' + size := Nat.lt_of_mul_lt_mul_left (inside.1.trans_lt inside'.2)
  exact ⟨(mul_le_mul_left _ least).trans member.1, member.2.trans_le (mul_le_mul_left _ most)⟩

/-- A block whose frames are those of a block of the same order is that block. -/
theorem start_eq_of_subset
    (subset : frames start order ⊆ frames start' order) : start = start' := by
  have first := mem_frames.mp (subset (start_mem_frames start order))
  have last := mem_frames.mp (subset (mem_frames.mpr
    ⟨(by omega : start ≤ start + 2 ^ order - 1), by omega⟩))
  omega

namespace FreeBlocks

variable {maxOrder : Nat} {lists lists' : Nat → List Nat} (blocks : FreeBlocks maxOrder lists)

include blocks

/-- An aligned block of free frames lies in a listed block. -/
theorem maximal (managed : order ≤ maxOrder) (aligned : 2 ^ order ∣ start)
    (free : ∀ frame ∈ frames start order, Covers lists frame) :
    ∃ order' ≥ order, ∃ start' ∈ lists order', frames start order ⊆ frames start' order' := by
  induction order generalizing start with
  | zero =>
    obtain ⟨order', start', listed, inside⟩ := free start (start_mem_frames start 0)
    exact ⟨order', zero_le _, start', listed, frames_subset_of_mem aligned
      (blocks.aligned listed).2 (zero_le _) (start_mem_frames start 0) inside⟩
  | succ order ih =>
    have halves := aligned_half aligned
    obtain ⟨order₁, more₁, start₁, listed₁, lower⟩ := ih (le_of_succ_le managed) halves.1
      fun frame inside => free frame (mem_frames_succ.mpr (.inl inside))
    obtain ⟨order₂, more₂, start₂, listed₂, upper⟩ := ih (le_of_succ_le managed) halves.2
      fun frame inside => free frame (mem_frames_succ.mpr (.inr inside))
    -- A larger block around one half is a block around both.
    have around {order' start' frame : Nat} (larger : order < order')
      (listed : start' ∈ lists order')
        (inside : frame ∈ frames start (order + 1)) (inside' : frame ∈ frames start' order') :
        ∃ order' ≥ order + 1, ∃ start' ∈ lists order',
          frames start (order + 1) ⊆ frames start' order' :=
      ⟨order', larger, start', listed,
        frames_subset_of_mem aligned (blocks.aligned listed).2 larger inside inside'⟩
    rcases more₁.lt_or_eq with larger | rfl
    · have first := start_mem_frames start order
      exact around larger listed₁ (mem_frames_succ.mpr (.inl first)) (lower first)
    rcases more₂.lt_or_eq with larger | same
    · have first := start_mem_frames (start + 2 ^ order) order
      exact around larger listed₂ (mem_frames_succ.mpr (.inr first)) (upper first)
    -- Otherwise both halves are listed, although they are buddies.
    subst same
    obtain rfl := start_eq_of_subset lower
    obtain rfl := start_eq_of_subset upper
    have buddy : start ^^^ blockSize order = start + 2 ^ order := by
      rcases xor_blockSize halves.1 with ⟨-, same⟩ | ⟨room, lower, -⟩
      · exact same
      · have other := (dvd_sub aligned lower)
        rw [Nat.sub_sub_self room] at other
        exact absurd (le_of_dvd (Nat.two_pow_pos order) other)
          (not_le.mpr (Nat.pow_lt_pow_succ one_lt_two))
    exact absurd (buddy ▸ listed₂) (blocks.canonical.apart order managed start listed₁)

theorem mem_of_covers (blocks' : FreeBlocks maxOrder lists')
    (same : ∀ frame, Covers lists frame ↔ Covers lists' frame) (listed : start ∈ lists order) :
    start ∈ lists' order := by
  obtain ⟨managed, aligned⟩ := blocks.aligned listed
  obtain ⟨order₁, more₁, start₁, listed₁, inner⟩ := blocks'.maximal managed aligned
    fun frame inside => (same frame).mp ⟨order, start, listed, inside⟩
  obtain ⟨managed₁, aligned₁⟩ := blocks'.aligned listed₁
  obtain ⟨order₂, more₂, start₂, listed₂, outer⟩ := blocks.maximal managed₁ aligned₁
    fun frame inside => (same frame).mpr ⟨order₁, start₁, listed₁, inside⟩
  -- The block that is found around the block is the block itself.
  have first := start_mem_frames start order
  obtain ⟨rfl, rfl⟩ := blocks.unique listed listed₂ first (outer (inner first))
  obtain rfl : order = order₁ := le_antisymm more₁ more₂
  exact start_eq_of_subset inner ▸ listed₁

/-- The lists are determined by the free frames. -/
theorem eq_of_covers (blocks' : FreeBlocks maxOrder lists')
    (same : ∀ frame, Covers lists frame ↔ Covers lists' frame) : lists = lists' := by
  funext order
  apply List.Pairwise.eq_of_mem_iff (blocks.canonical.sorted order) (blocks'.canonical.sorted order)
  intro start
  exact ⟨blocks.mem_of_covers blocks' same,
    blocks'.mem_of_covers blocks fun frame => (same frame).symm⟩

end FreeBlocks

/-! ## The free lists of the allocator -/

namespace BuddyAllocator

/-- Where the blocks of the global free list of an order start, in list order. -/
def freeList (a : BuddyAllocator cap) (order : Nat) : List Nat :=
  (a.nodesOf (.global order)).map fun i => (a.block i).start

/-- The frame is in a block of a global free list. -/
def GloballyFree (a : BuddyAllocator cap) (frame : Nat) : Prop :=
  ∃ order, ∃ start ∈ a.freeList order, frame ∈ frames start order

end BuddyAllocator

namespace Invariant

variable (invariant : Invariant a v)
include invariant

theorem freeList_eq : a.freeList = starts a v := by
  funext order
  rw [freeList, invariant.nodesOf_eq, starts]

theorem cell_eq {i : Nat} (listed : i ∈ v.lists (.global order)) :
    v.cells i = frames (a.block i).start order := by
  rw [(invariant.valid.occupies listed (by simp)).cell_eq, (invariant.valid.admits listed).1]

theorem freeBlocks (canonical : Canonical a.config.maxOrder (starts a v)) :
    FreeBlocks a.config.maxOrder a.freeList := by
  rw [invariant.freeList_eq]
  constructor
  · exact canonical
  · intro order start listed
    obtain ⟨i, member, rfl⟩ := List.mem_map.mp listed
    have occupies := invariant.valid.occupies member (by simp)
    rw [← (invariant.valid.admits member).1]
    exact ⟨occupies.order_le, blockSize_eq _ ▸ occupies.aligned⟩
  · intro order start order' start' frame listed listed' inside inside'
    obtain ⟨i, member, rfl⟩ := List.mem_map.mp listed
    obtain ⟨j, member', rfl⟩ := List.mem_map.mp listed'
    rw [← invariant.cell_eq member] at inside
    rw [← invariant.cell_eq member'] at inside'
    obtain rfl := invariant.valid.tiling.unique inside inside'
    exact ⟨ListId.global.inj (invariant.valid.represents.exclusive member member'), rfl⟩

/-- With no live block and nothing in the caches, the usable frames are globally
free. -/
theorem globallyFree_iff (dead : live a v = [])
    (drained : ∀ cpuId order, v.lists (.cpu cpuId order) = []) (frame : Nat) :
    a.GloballyFree frame ↔ frame ∈ usableFrames a.config.usableRanges := by
  have valid := invariant.valid
  rw [BuddyAllocator.GloballyFree, invariant.freeList_eq]
  constructor
  · rintro ⟨order, start, listed, inside⟩
    exact valid.mem_space listed inside
  intro usable
  obtain ⟨i, inside⟩ := (valid.tiling.cover frame).mp usable
  obtain ⟨k, active, listed⟩ := valid.listed_of_mem inside
  cases k with
  | unused => exact absurd rfl active
  | allocated =>
    rw [List.map_eq_nil_iff.mp dead] at listed
    cases listed
  | cpu cpuId order =>
    rw [drained] at listed
    cases listed
  | global order =>
    rw [invariant.cell_eq listed] at inside
    exact ⟨order, _, List.mem_map_of_mem listed, inside⟩

end Invariant

/-- The free lists are canonical.  In every state that a run reaches from
bootstrap, no two buddies below the largest order are both listed and every
list is sorted by address.  Runs that end with the same globally free frames
end with equal lists; in particular, a run that ends with no live block and
with all caches drained ends with the lists of the bootstrapped allocator. -/
theorem freeLists_canonical {memMap : List MemoryRegion} {cpuCount : Nat}
    (booted : bootstrap cap memMap cpuCount = some (.ok a))
    {operations : List Operation} (run : performAll operations a = some b) :
    (∀ order < b.maxOrder, ∀ start ∈ b.freeList order,
      start ^^^ blockSize order ∉ b.freeList order) ∧
    (∀ order, (b.freeList order).Pairwise (· < ·)) ∧
    (∀ others c, performAll others a = some c →
      (∀ frame, b.GloballyFree frame ↔ c.GloballyFree frame) → b.freeList = c.freeList) ∧
    (b.liveBlocks = [] → (∀ cpuId order, b.nodesOf (.cpu cpuId order) = []) →
      b.freeList = a.freeList) := by
  obtain ⟨⟨v, invariant, dead, drained, canonical⟩, -⟩ := bootstrap_invariant booted
  have reached {others : List Operation} {c : BuddyAllocator cap}
      (runs : performAll others a = some c) : ∃ x, Invariant c x ∧ c.config = a.config ∧
        FreeBlocks a.config.maxOrder c.freeList := by
    obtain ⟨c', x, runs', invariant', config, steady⟩ := performAll_steady invariant others
    rw [runs] at runs'
    cases runs'
    exact ⟨x, invariant', config, config ▸ invariant'.freeBlocks (config ▸ steady canonical)⟩
  obtain ⟨w, invariant', config, blocks⟩ := reached run
  have largest : b.maxOrder = a.config.maxOrder := congrArg Config.maxOrder config
  refine ⟨?_, blocks.canonical.sorted, fun others c runs same => ?_, fun dead' drained' => ?_⟩
  · rw [largest]
    exact blocks.canonical.apart
  · obtain ⟨-, -, -, blocks'⟩ := reached runs
    exact blocks.eq_of_covers blocks' same
  · rw [invariant'.liveBlocks_eq] at dead'
    simp only [invariant'.nodesOf_eq] at drained'
    refine blocks.eq_of_covers (invariant.freeBlocks canonical) fun frame => ?_
    exact (invariant'.globallyFree_iff dead' drained' frame).trans
      (config ▸ (invariant.globallyFree_iff dead drained frame).symm)

/-- A machine with 32 usable pages and one CPU: the block of all pages is too large
for the cache of the CPU, and when it has been freed the lists are as they were. -/
theorem freeLists_canonical_large_block : ∃ a middle b : BuddyAllocator ⟨1, 1, 4⟩,
      bootstrap ⟨1, 1, 4⟩ [⟨0, 0x20000, usableKind⟩] 1 = some (.ok a) ∧
      performAll [.allocFrame4kOnCpu 0 32] a = some middle ∧ middle.freeList 5 = [] ∧
      performAll [.freeFrameOnCpu 0 0] middle = some b ∧ b.freeList = a.freeList := by
  obtain ⟨a, booted⟩ : ∃ a : BuddyAllocator ⟨1, 1, 4⟩,
      bootstrap ⟨1, 1, 4⟩ [⟨0, 0x20000, usableKind⟩] 1 = some (.ok a) := ⟨_, rfl⟩
  obtain ⟨middle, taken⟩ : ∃ middle, performAll [.allocFrame4kOnCpu 0 32] a = some middle := by
    cases booted
    exact ⟨_, rfl⟩
  have seen : middle.freeList 5 = [] ∧ ∃ b, performAll [.freeFrameOnCpu 0 0] middle = some b ∧
      b.allocationsHead = none ∧ ∀ cpuId order, b.head (.cpu cpuId order) = none := by
    cases booted
    cases taken
    exact ⟨rfl, _, rfl, rfl, fun _ _ => rfl⟩
  obtain ⟨empty, b, freed, dead, drained⟩ := seen
  have run : performAll [.allocFrame4kOnCpu 0 32, .freeFrameOnCpu 0 0] a = some b := by
    cases booted
    cases taken
    exact freed
  refine ⟨a, middle, b, booted, taken, empty, freed, (freeLists_canonical booted run).2.2.2 ?_ ?_⟩
  · rw [liveBlocks, nodesOf, head, dead]
    rfl
  · intro cpuId order
    rw [nodesOf, drained]
    rfl

end AetherKernel.Mm.Buddy
