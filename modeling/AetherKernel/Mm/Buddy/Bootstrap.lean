import AetherKernel.Mm.Buddy.Operations
import AetherKernel.Mm.Buddy.Ranges

/-!
# Bootstrap

Seeding hands every usable frame to a free block, one aligned block at a time.
The managed space grows with each block, and when bootstrap succeeds it is the
set of all usable frames and nothing is allocated.
-/

namespace AetherKernel.Mm.Buddy

open Lib BuddyAllocator Function Exec List

variable {cap : Capacity} {space : Finset Nat} {a : BuddyAllocator cap} {v : View}

/-! ## The empty allocator -/

/-- The view of an allocator whose nodes are all unused. -/
def freshView (cap : Capacity) : View :=
  { lists := fun k =>
      match k with
      | .unused => List.range cap.maxBlockNodes
      | _ => []
    cells := fun _ => ∅ }

/-- The initial links of the pool run through all later nodes. -/
theorem linked_initPool (cap : Capacity) (count first : Nat)
    (total : first + count = cap.maxBlockNodes) :
    Linked (fun i => ((initPool cap).nodes i).next)
      (if count = 0 then none else some first) (List.range' first count) := by
  induction count generalizing first with
  | zero => simp
  | succ count ih =>
    refine ⟨by simp, ?_⟩
    have rest := ih (first + 1) (by omega)
    have next : ((initPool cap).nodes first).next =
        if count = 0 then none else some (first + 1) := by
      by_cases last : count = 0
      · simp [initPool, last, show ¬first + 1 < cap.maxBlockNodes by omega]
      · simp [initPool, last, show first + 1 < cap.maxBlockNodes by omega]
    dsimp only
    rw [next]
    exact rest

theorem fresh_valid (cap : Capacity) (usableRanges : RangeList) (totalFrames cpuCount : Nat) :
    Valid ∅ (fresh cap usableRanges totalFrames cpuCount) (freshView cap) [] := by
  have unused : ∀ {k i}, i ∈ (freshView cap).lists k → k = .unused ∧ i < cap.maxBlockNodes := by
    intro k i member
    cases k with
    | unused => exact ⟨rfl, mem_range.mp member⟩
    | allocated | global | cpu => cases member
  constructor
  · constructor
    · intro k
      cases k with
      | unused =>
        have chain := linked_initPool cap cap.maxBlockNodes 0 (Nat.zero_add _)
        rw [← range_eq_range'] at chain
        exact chain
      | allocated | global | cpu => rfl
    · intro k
      cases k with
      | unused => exact length_range
      | allocated | global | cpu => rfl
    · intro k
      cases k with
      | unused => exact nodup_range
      | allocated | global | cpu => exact nodup_nil
    · intro k k' i first second
      rw [(unused first).1, (unused second).1]
  · intro i
    constructor
    · intro small
      exact .inr ⟨.unused, mem_range.mpr small⟩
    · rintro (inside | ⟨k, member⟩)
      · cases inside
      · exact (unused member).2
  · intro i inside
    cases inside
  · exact nodup_nil
  · intro k i member
    rw [(unused member).1]
    trivial
  · intro k i member active
    exact absurd (unused member).1 active
  · intro i _
    rfl
  · intro i _
    rfl
  · constructor
    · simp [freshView]
    · intro i j x member
      cases member

/-! ## Seeding -/

/-- The nodes in the caches of the CPUs. -/
def View.caches (v : View) (cpuId order : Nat) : List Nat :=
  v.lists (.cpu cpuId order)

/-- What seeding leaves: nothing to say about a failure, and otherwise a
layout of the extended space with the same live blocks and caches. -/
def Seeds (space : Finset Nat) (a : BuddyAllocator cap) (v : View)
    (outcome : Except FrameAllocError Unit) (b : BuddyAllocator cap) : Prop :=
  outcome = .ok () → ∃ w, Valid space b w [] ∧ Steady a v b w ∧ live b w = live a v ∧
    w.caches = v.caches

/-- One round of seeding: a fresh node takes a block outside the space. -/
theorem seedBlock_valid {i start order : Nat} {rest : List Nat} (valid : Valid space a v [])
    (unused : v.lists .unused = i :: rest) (managed : order ≤ a.config.maxOrder)
    (aligned : 2 ^ order ∣ start) (outside : Disjoint space (frames start order)) :
    ∃ b w, globalInsertSorted order i ((a.unlink .unused none i).setNode i
        { start := start, order := order, refcount := 0, next := none }) = some (.ok (), b) ∧
      Valid (space ∪ frames start order) b w [] ∧ live b w = live a v ∧ w.caches = v.caches ∧
      (∀ other x, x ∈ starts b w other → x ∈ starts a v other ∨ other = order ∧ x = start) ∧
      ((order < a.config.maxOrder → start ^^^ blockSize order ∉ starts a v order) →
        Steady a v b w) := by
  let value : BlockNode := { start := start, order := order, refcount := 0, next := none }
  let b := (a.unlink .unused none i).setNode i value
  have spare : v.cells i = ∅ := valid.spare (by simp [unused])
  have taken : Reaches space a v b (v.setList .unused rest) [i] :=
    ((Reaches.refl valid).pop unused (by simp)).setNode mem_cons_self value
  let cells := update v.cells i (frames start order)
  have grown : Valid (space ∪ frames start order) b
      ((v.setList .unused rest).setCells cells) [i] := by
    apply taken.valid.setCells
    · intro j other
      simp only [mem_singleton] at other
      simp [cells, other]
    · exact valid.tiling.extend spare outside
  have blockEq : b.block i = value.toBlock := block_setNode_self _ _ _
  have whole : Occupies b.config (b.block i) (cells i) := by
    rw [blockEq, taken.config]
    exact ⟨by simp [cells, value], managed, by simpa [value] using aligned⟩
  obtain ⟨pre, post, split, inserted, steady⟩ := grown.globalInsertSorted_eq whole order
  have linked := grown.link split (by rw [blockEq]; exact ⟨rfl, rfl⟩) (fun _ => whole) (by simp)
  have same : starts b ((v.setList .unused rest).setCells cells) = starts a v := by
    have free (order : Nat) : i ∉ ((v.setList .unused rest).setCells cells).lists (.global order) :=
      grown.inHand i mem_cons_self _
    rw [starts_setNode free]
    funext order
    simp [starts]
  refine ⟨_, _, inserted, linked, ?_, ?_, fun other x listed => ?_, fun alone => ?_⟩
  · rw [← taken.live]
    simp [live]
  · funext cpuId other
    simp [View.caches]
  · rw [← same]
    simp only [starts, block_link, View.setList_lists] at listed ⊢
    by_cases here : other = order
    · subst here
      rw [split]
      simp only [update_self, map_append, map_cons, mem_append, mem_cons, blockEq] at listed ⊢
      tauto
    · rw [update_of_ne (by simpa using here)] at listed
      exact .inl listed
  · have before : Steady a v b ((v.setList .unused rest).setCells cells) :=
      ⟨taken.config, fun canonical => same ▸ canonical⟩
    refine before.trans (steady fun _ small => ?_)
    rw [same, blockEq]
    exact alone (by rwa [taken.config] at small)

/-- The frames of a listed block are in the space. -/
theorem Valid.mem_space {held : List Nat} {start order frame : Nat} (valid : Valid space a v held)
    (listed : start ∈ starts a v order) (inside : frame ∈ frames start order) : frame ∈ space := by
  obtain ⟨i, member, rfl⟩ := mem_map.mp listed
  have cell := (valid.occupies member (by simp)).cell_eq
  rw [(valid.admits member).1] at cell
  exact valid.tiling.subset i (cell ▸ inside)

theorem seedLoop_returns (fuel start remaining : Nat) (enough : remaining ≤ fuel)
    (valid : Valid space a v []) (below : ∀ frame ∈ space, frame < start)
    (first : ∀ order < a.config.maxOrder, 2 ^ order ≤ remaining → 2 ^ order ≤ start →
      2 ^ (order + 1) ∣ start - 2 ^ order → start - 2 ^ order ∉ starts a v order) :
    (seedLoop fuel start remaining).Returns a
      (Seeds (space ∪ Finset.Ico start (start + remaining)) a v) := by
  induction fuel generalizing space a v start remaining with
  | zero =>
    obtain rfl : remaining = 0 := by omega
    exact Returns.pure fun _ => ⟨v, by simpa using valid, .refl _ _, rfl, rfl⟩
  | succ fuel ih =>
    cases remaining with
    | zero => exact Returns.pure fun _ => ⟨v, by simpa using valid, .refl _ _, rfl, rfl⟩
    | succ remaining =>
      obtain ⟨managed, aligned, fits, most⟩ := maxFitOrder_spec start a.maxOrder
        (Nat.succ_pos remaining)
      apply Returns.get
      generalize maxFitOrder start (remaining + 1) a.maxOrder = order at *
      cases unused : v.lists .unused with
      | nil =>
        refine ⟨_, _, bind_error (valid.allocUnused_nil unused), ?_⟩
        intro impossible
        cases impossible
      | cons i rest =>
        -- The region is the block that is seeded now and the rest of it.
        have regions : Finset.Ico start (start + (remaining + 1)) = frames start order ∪
            Finset.Ico (start + 2 ^ order) (start + 2 ^ order + (remaining + 1 - 2 ^ order)) := by
          ext frame
          rw [Finset.mem_union, mem_frames, Finset.mem_Ico, Finset.mem_Ico]
          omega
        have outside : Disjoint space (frames start order) := by
          rw [Finset.disjoint_left]
          intro frame old new
          rw [mem_frames] at new
          exact absurd (below frame old) (Nat.not_lt.mpr new.1)
        obtain ⟨b, w, inserted, valid', blocks, caches, listed, steady⟩ :=
          seedBlock_valid valid unused managed aligned outside
        have positive := Nat.two_pow_pos order
        have alone (small : order < a.config.maxOrder) :
            start ^^^ blockSize order ∉ starts a v order := by
          rcases xor_blockSize aligned with ⟨-, upper⟩ | ⟨room, lower, same⟩
          · intro member
            have old := below _ (valid.mem_space member (start_mem_frames _ _))
            omega
          · rw [same]
            exact first order small fits room lower
        have kept := steady alone
        apply Returns.step (valid.allocUnused_cons unused)
        apply Returns.step inserted
        rw [blockSize_eq, regions, ← Finset.union_assoc]
        apply (ih _ _ (by omega) valid' (fun frame member => ?_) ?_).mono
        · intro outcome c seeds success
          obtain ⟨x, final, later, blocks', caches'⟩ := seeds success
          exact ⟨x, final, kept.trans later, blocks'.trans blocks, caches'.trans caches⟩
        · -- The block before the rest of the region is the one seeded now, which was
          -- not doubled because the region is too short for that.
          intro other small rest room lower member
          rw [kept.config] at small
          rcases listed other _ member with old | ⟨rfl, same⟩
          · have inside := below _ (valid.mem_space old
              (mem_frames.mpr ⟨(by omega : _ ≤ start + 2 ^ order - 1), by omega⟩))
            omega
          · rw [same] at lower
            have larger := most (other + 1) small lower (by rw [pow_succ]; omega)
            omega
        · rcases Finset.mem_union.mp member with old | new
          · exact (below frame old).trans (Nat.lt_add_of_pos_right positive)
          · exact (mem_frames.mp new).2

theorem seedRanges_returns (ranges : RangeList) (valid : Valid space a v [])
    (coalesced : Coalesced ranges)
    (below : ∀ frame ∈ space, ∀ range ∈ ranges, frame + 1 < range.1) :
    (seedRanges ranges).Returns a (Seeds (space ∪ usableFrames ranges) a v) := by
  induction ranges generalizing space a v with
  | nil => exact Returns.pure fun _ => ⟨v, by simpa [usableFrames] using valid, .refl _ _, rfl, rfl⟩
  | cons range rest ih =>
    rw [usableFrames, ← Finset.union_assoc]
    have here (frame : Nat) (old : frame ∈ space) := below frame old range mem_cons_self
    apply Returns.bind (seedLoop_returns range.2 range.1 range.2 le_rfl valid
      (fun frame old => Nat.lt_of_succ_lt (here frame old)) ?_)
    · intro error b _ impossible
      cases impossible
    · intro _ b seeds
      obtain ⟨w, valid', steady, blocks, caches⟩ := seeds rfl
      apply (ih valid' coalesced.tail fun frame member later among => ?_).mono
      · intro outcome c seeds' success
        obtain ⟨x, final, steady', blocks', caches'⟩ := seeds' success
        exact ⟨x, final, steady.trans steady', blocks'.trans blocks, caches'.trans caches⟩
      · rcases Finset.mem_union.mp member with old | new
        · exact below frame old later (mem_cons_of_mem _ among)
        · have gap := rel_of_pairwise_cons coalesced.ordered among
          have := (Finset.mem_Ico.mp new).2
          omega
    · -- The frame before the range is not usable.
      intro order _ _ room _ member
      have old := here _ (valid.mem_space member
        (mem_frames.mpr ⟨(by omega : _ ≤ range.1 - 1), by omega⟩))
      omega

/-! ## The allocator invariant -/

/-- What bootstrap establishes about the configuration, once and for all. -/
structure WellConfigured (cap : Capacity) (config : Config) : Prop where
  coalesced : Coalesced config.usableRanges
  total : config.totalFrames = (usableFrames config.usableRanges).card
  total_lt : config.totalFrames < Word.size
  maxOrder_lt : config.maxOrder < maxOrderSlots
  cpuCount_le : config.cpuCount ≤ cap.maxCpus

/-- The invariant of the allocator between operations: a valid layout of the
usable frames with nothing in hand. -/
structure Invariant (a : BuddyAllocator cap) (v : View) : Prop where
  configured : WellConfigured cap a.config
  valid : Valid (usableFrames a.config.usableRanges) a v []

theorem totalFrames_eq {ranges : RangeList} {total : Nat}
    (counted : RangeList.totalFrames ranges = .ok total) :
    total = (ranges.map Prod.snd).sum ∧ total < Word.size := by
  unfold RangeList.totalFrames at counted
  have bound : 0 < Word.size := by decide
  rw [← Nat.zero_add (ranges.map Prod.snd).sum]
  -- The loop, from any sum that fits.
  generalize 0 = start at counted bound ⊢
  induction ranges generalizing start with
  | nil =>
    cases counted
    exact ⟨by simp, bound⟩
  | cons entry rest ih =>
    rw [foldlM_cons] at counted
    cases added : Word.checkedAdd start entry.2 with
    | none =>
      simp only [added] at counted
      cases counted
    | some sum =>
      simp only [added] at counted
      obtain ⟨fits, rfl⟩ := Word.checkedAdd_eq_some_iff.mp added
      obtain ⟨equal, small⟩ := ih _ counted fits
      exact ⟨by simp [equal, Nat.add_assoc], small⟩

/-- A successful bootstrap establishes the invariant, with no live block and
nothing in the caches, over the frames collected from the memory map. -/
theorem bootstrap_invariant {memMap : List MemoryRegion} {cpuCount : Nat}
    (booted : bootstrap cap memMap cpuCount = some (.ok a)) :
    (∃ v, Invariant a v ∧ live a v = [] ∧ (∀ cpuId order, v.lists (.cpu cpuId order) = []) ∧
        Canonical a.config.maxOrder (starts a v)) ∧
      (∀ frame, frame ∈ usableFrames a.usableRanges ↔ Collected memMap frame) := by
  unfold bootstrap at booted
  split at booted
  · cases booted
  rename_i cpus
  cases collected : collectUsableRanges cap.maxUsableRanges memMap [] with
  | error error =>
    simp only [collected] at booted
    cases booted
  | ok ranges =>
    obtain ⟨coalesced, points, -⟩ := collectUsableRanges_spec Coalesced.nil collected
    simp only [collected] at booted
    unfold initFromUsableRanges at booted
    rw [if_neg cpus] at booted
    cases counted : RangeList.totalFrames ranges with
    | error error =>
      simp only [counted] at booted
      cases booted
    | ok total =>
      obtain ⟨totalEq, small⟩ := totalFrames_eq counted
      simp only [counted] at booted
      split at booted
      · cases booted
      split at booted
      · cases booted
      rename_i orders
      obtain ⟨outcome, b, run, seeds⟩ :=
        seedRanges_returns ranges (fresh_valid cap ranges total cpuCount) coalesced (by simp)
      rw [run] at booted
      cases outcome with
      | error error => cases booted
      | ok value =>
        cases booted
        obtain ⟨v, valid, ⟨config, canonical⟩, blocks, caches⟩ := seeds rfl
        rw [Finset.empty_union] at valid
        have rangesEq : a.config.usableRanges = ranges := by rw [config]; rfl
        refine ⟨⟨v, ⟨?_, ?_⟩, blocks, fun cpuId order => congrFun₂ caches cpuId order, ?_⟩, ?_⟩
        · rw [config]
          refine ⟨coalesced, ?_, small, Nat.not_le.mp orders, ?_⟩
          · exact totalEq.trans coalesced.card_usableFrames.symm
          · rw [not_or] at cpus
            exact Nat.not_lt.mp cpus.2
        · rw [rangesEq]
          exact valid
        · rw [config]
          exact canonical ⟨fun _ => .nil, nofun⟩
        · intro frame
          rw [show a.usableRanges = ranges from rangesEq, points frame]
          simp [usableFrames]

end AetherKernel.Mm.Buddy
