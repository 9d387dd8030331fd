import AetherKernel.Mm.Buddy.Runs

/-!
# The allocator's own consistency check

`validate_invariants` walks every list, marks the nodes it meets, checks every
block against the list it is on and against the usable ranges, and then
compares the blocks with each other, their sum with the number of frames and
the marked nodes with the pool.  The three families of block lists are walked
by one loop; what they check and report differs and is given by `inspect`,
`overflowMessage` and `lengthMessage`.
-/

namespace AetherKernel.Mm.Buddy

open Lib BuddyAllocator Function Exec Word List Nat

variable {cap : Capacity} {a : BuddyAllocator cap} {v : View} {ranges blocks : RangeList}
  {start : Nat}

/-- The local variables of the check. -/
structure Audit where
  visited : Nat → Bool
  blocks : RangeList
  accountedPages : Nat

def Audit.new : Audit :=
  { visited := fun _ => false, blocks := [], accountedPages := 0 }

/-- Parts of the check. -/
abbrev Check (α : Type) :=
  Exec Audit String α

def blockFitsUsableRanges (start len : Nat) (usableRanges : RangeList) : Bool :=
  match checkedAdd start len with
  | none => false
  | some last => fits start last usableRanges
where
  fits (start last : Nat) : RangeList → Bool
    | [] => false
    | (regionStart, regionLen) :: rest =>
      match checkedAdd regionStart regionLen with
      | none => false
      | some regionEnd =>
        if start ≥ regionStart ∧ last ≤ regionEnd then true else fits start last rest

def validateBlockShape (start len : Nat) (usableRanges : RangeList) : Except String Unit :=
  if len = 0 then .error "block length cannot be zero"
  else if start % len ≠ 0 then .error "block is not aligned to its order"
  else if blockFitsUsableRanges start len usableRanges then .ok ()
  else .error "block falls outside usable ranges"

namespace BuddyAllocator

def validateNodeIndex (a : BuddyAllocator cap) (nodeIndex : Nat) : Check BlockNode := do
  let audit ← Exec.get
  if nodeIndex ≥ cap.maxBlockNodes then throw "node index out of bounds"
  else if audit.visited nodeIndex then throw "metadata node appears in multiple lists"
  else pure (a.node nodeIndex)

/-- What a list demands of the node at hand, and the length of its block. -/
def inspect (a : BuddyAllocator cap) : ListId → BlockNode → Except String Nat
  | .allocated, node =>
    if node.refcount = 0 then .error "allocated block has zero refcount"
    else if node.order > a.maxOrder then .error "allocated block order exceeds max_order"
    else .ok (blockSize node.order)
  | .global order, node =>
    if order > a.maxOrder then .error "free block stored beyond max_order"
    else if node.refcount ≠ 0 then .error "global free block has non-zero refcount"
    else if node.order ≠ order then .error "global free block stored in wrong order list"
    else .ok (blockSize order)
  | .cpu cpuId order, node =>
    if cpuId ≥ a.cpuCount then .error "inactive cpu cache contains free blocks"
    else if node.refcount ≠ 0 then .error "per-cpu free block has non-zero refcount"
    else if node.order ≠ order then .error "per-cpu free block stored in wrong order list"
    else .ok (blockSize order)
  | .unused, _ => .ok 0

def overflowMessage : ListId → String
  | .allocated => "allocated page accounting overflow"
  | .global _ => "global free page accounting overflow"
  | .cpu _ _ => "per-cpu free page accounting overflow"
  | .unused => ""

def lengthMessage : ListId → String
  | .allocated => "allocation list length mismatch"
  | .global _ => "global free list length mismatch"
  | .cpu _ _ => "per-cpu free list length mismatch"
  | .unused => "unused node count mismatch"

/-- Mark a node and account for its block. -/
def recordBlock (nodeIndex start len : Nat) (overflow : String) : Check Unit := do
  let audit ← Exec.get
  match checkedAdd audit.accountedPages len with
  | none => throw overflow
  | some accountedPages =>
    Exec.set
      { visited := update audit.visited nodeIndex true
        blocks := audit.blocks ++ [(start, len)]
        accountedPages := accountedPages }

/-- The loop over one list of blocks; it returns the number of nodes met.  A
node met twice ends it, so it makes at most one round more than there are
nodes. -/
def validateChain (a : BuddyAllocator cap) (k : ListId) : Nat → Option Nat → Check Nat
  | _, none => pure 0
  | 0, some _ => stuck
  | fuel + 1, some nodeIndex => do
      let node ← a.validateNodeIndex nodeIndex
      let len ← ofExcept (a.inspect k node)
      ofExcept (validateBlockShape node.start len a.usableRanges)
      recordBlock nodeIndex node.start len (overflowMessage k)
      let rest ← validateChain a k fuel node.next
      pure (rest + 1)

def validateList (a : BuddyAllocator cap) (k : ListId) : Check Unit := do
  let count ← a.validateChain k (cap.maxBlockNodes + 1) (a.head k)
  if count ≠ a.len k then throw (lengthMessage k) else pure ()

/-- The lists of blocks, in the order of the check: allocations, global lists
by order, caches by CPU and order. -/
def blockLists (cap : Capacity) : List ListId :=
  .allocated :: ((List.range maxOrderSlots).map .global ++
    (List.range cap.maxCpus).flatMap fun cpuId =>
      (List.range (perCpuCacheMaxOrder + 1)).map (.cpu cpuId))

/-- The inner loop of the overlap check. -/
def checkAgainst (leftStart leftEnd : Nat) : RangeList → Except String Unit
  | [] => .ok ()
  | (rightStart, rightLen) :: rest =>
    match checkedAdd rightStart rightLen with
    | none => .error "block end overflow"
    | some rightEnd =>
      if leftStart < rightEnd ∧ rightStart < leftEnd then .error "allocator blocks overlap"
      else checkAgainst leftStart leftEnd rest

def checkOverlaps : RangeList → Except String Unit
  | [] => .ok ()
  | (leftStart, leftLen) :: rest =>
    match checkedAdd leftStart leftLen with
    | none => .error "block end overflow"
    | some leftEnd =>
      match checkAgainst leftStart leftEnd rest with
      | .error error => .error error
      | .ok () => checkOverlaps rest

/-- The loop over the unused nodes. -/
def validateUnused (a : BuddyAllocator cap) : Nat → Option Nat → Check Nat
  | _, none => pure 0
  | 0, some _ => stuck
  | fuel + 1, some nodeIndex => do
      let audit ← Exec.get
      if nodeIndex ≥ cap.maxBlockNodes then throw "node index out of bounds"
      else if audit.visited nodeIndex then
        throw "metadata node appears in both active and unused lists"
      else do
        Exec.set { audit with visited := update audit.visited nodeIndex true }
        let rest ← validateUnused a fuel (a.node nodeIndex).next
        pure (rest + 1)

/-- The part of the check behind the list walks. -/
def validateTotals (a : BuddyAllocator cap) : Check Unit := do
  let audit ← Exec.get
  ofExcept (checkOverlaps audit.blocks)
  if audit.accountedPages ≠ a.totalFrames then
    throw "allocator page accounting mismatch"
  else do
    let count ← a.validateUnused (cap.maxBlockNodes + 1) (a.head .unused)
    if count ≠ a.len .unused then throw (lengthMessage .unused)
    else do
      let audit ← Exec.get
      if (List.range cap.maxBlockNodes).any fun nodeIndex => !audit.visited nodeIndex then
        throw "metadata node leaked from all lists"
      else pure ()

/-- `validate_invariants`; nothing stands for a check that does not end. -/
def validateInvariants (a : BuddyAllocator cap) : Option (Except String Unit) :=
  if a.maxOrder ≥ maxOrderSlots then some (.error "max_order exceeds supported order slots")
  else
    let check : Check Unit := do
      (blockLists cap).forM a.validateList
      a.validateTotals
    (check Audit.new).map Prod.fst

end BuddyAllocator

/-! ## Walking the lists -/

/-- The audit after a node of a valid layout has been recorded. -/
def record (a : BuddyAllocator cap) (audit : Audit) (i : Nat) : Audit :=
  { visited := update audit.visited i true
    blocks := audit.blocks ++ [((a.block i).start, 2 ^ (a.block i).order)]
    accountedPages := audit.accountedPages + 2 ^ (a.block i).order }

theorem update_true_iff {visited : Nat → Bool} {i j : Nat} :
    update visited i true j = true ↔ visited j = true ∨ j = i := by
  rw [update_apply]
  split <;> simp_all

/-- Marking the first node of a list marks no other node of it. -/
theorem unvisited_rest {visited : Nat → Bool} {i : Nat} {rest : List Nat} (alone : i ∉ rest)
    (unvisited : ∀ j ∈ rest, visited j = false) : ∀ j ∈ rest, update visited i true j = false := by
  intro j member
  rw [update_of_ne (ne_of_mem_of_not_mem member alone), unvisited j member]

theorem foldl_record_visited (a : BuddyAllocator cap) (nodes : List Nat) (audit : Audit) (i : Nat) :
    (nodes.foldl (record a) audit).visited i = true ↔ audit.visited i = true ∨ i ∈ nodes := by
  induction nodes generalizing audit with
  | nil => simp
  | cons j rest ih =>
    rw [foldl_cons, ih, record, update_true_iff, mem_cons, or_assoc]

theorem foldl_record_blocks (a : BuddyAllocator cap) (nodes : List Nat) (audit : Audit) :
    (nodes.foldl (record a) audit).blocks =
      audit.blocks ++ nodes.map fun i => ((a.block i).start, 2 ^ (a.block i).order) := by
  induction nodes generalizing audit with
  | nil => simp
  | cons j rest ih => simp [ih, record]

theorem foldl_record_accountedPages (a : BuddyAllocator cap) (nodes : List Nat) (audit : Audit) :
    (nodes.foldl (record a) audit).accountedPages =
      audit.accountedPages + (nodes.map fun i => 2 ^ (a.block i).order).sum := by
  induction nodes generalizing audit with
  | nil => simp
  | cons j rest ih => simp [ih, record, add_assoc]

theorem fits_of_mem {range : Nat × Nat} {last : Nat}
    (bounded : ∀ range ∈ ranges, range.1 + range.2 ≤ frameLimit) (member : range ∈ ranges)
    (low : range.1 ≤ start) (high : last ≤ range.1 + range.2) :
    blockFitsUsableRanges.fits start last ranges = true := by
  induction ranges with
  | nil => cases member
  | cons first rest ih =>
    obtain ⟨regionStart, regionLen⟩ := first
    obtain ⟨here, bounded⟩ := forall_mem_cons.mp bounded
    have small : regionStart + regionLen < Word.size := lt_of_le_of_lt here (by decide)
    rw [blockFitsUsableRanges.fits, checkedAdd, if_pos small]
    dsimp only
    split
    · rfl
    · rename_i miss
      rcases mem_cons.mp member with rfl | behind
      · exact absurd ⟨low, high⟩ miss
      · exact ih bounded behind

namespace Invariant

variable {k : ListId} {i : Nat} (invariant : Invariant a v) {audit : Audit}

include invariant

/-- Every listed block passes the check of its list. -/
theorem inspect_eq (listed : i ∈ v.lists k) (active : k ≠ .unused) :
    a.inspect k (a.node i) = .ok (2 ^ (a.block i).order) := by
  have admits := invariant.valid.admits listed
  have bound : (a.node i).order ≤ a.maxOrder := (invariant.valid.occupies listed active).order_le
  cases k with
  | allocated =>
    have positive : (a.node i).refcount ≠ 0 := (show 0 < (a.block i).refcount from admits.1).ne'
    simp [inspect, positive, not_lt.mpr bound, block]
  | global order =>
    obtain ⟨rfl, idle⟩ := admits
    have idle : (a.node i).refcount = 0 := idle
    simp [inspect, block, idle, not_lt.mpr bound]
  | cpu cpuId order =>
    obtain ⟨online, _, rfl, idle⟩ := admits
    have online : cpuId < a.cpuCount := online
    have idle : (a.node i).refcount = 0 := idle
    simp [inspect, block, idle, not_le.mpr online]
  | unused => exact absurd rfl active

/-- A listed block passes the shape check: its frames are usable. -/
theorem shape_eq (listed : i ∈ v.lists k) (active : k ≠ .unused) :
    validateBlockShape (a.block i).start (2 ^ (a.block i).order) a.usableRanges = .ok () := by
  obtain ⟨cell, _, aligned⟩ := invariant.valid.occupies listed active
  have coalesced : Coalesced a.usableRanges := invariant.configured.coalesced
  have positive := Nat.two_pow_pos (a.block i).order
  have usable := invariant.valid.tiling.subset i
  rw [cell, frames] at usable
  rw [blockSize_eq] at usable aligned
  obtain ⟨range, member, low, high⟩ := coalesced.one_range positive usable
  have small : (a.block i).start + 2 ^ (a.block i).order < Word.size :=
    lt_of_le_of_lt (high.trans (coalesced.bounded range member)) (by decide)
  rw [validateBlockShape, if_neg positive.ne', if_neg (by simp [mod_eq_zero_of_dvd aligned]),
    blockFitsUsableRanges, checkedAdd, if_pos small]
  simp [fits_of_mem coalesced.bounded member low high]

/-- Walking the rest of a list marks and accounts for its nodes. -/
theorem validateChain_eq {cursor : Option Nat} {nodes : List Nat} {fuel : Nat}
    (active : k ≠ .unused) (linked : Linked (fun i => (a.node i).next) cursor nodes)
    (listed : ∀ i ∈ nodes, i ∈ v.lists k) (nodup : nodes.Nodup)
    (unvisited : ∀ i ∈ nodes, audit.visited i = false)
    (room : audit.accountedPages + (nodes.map fun i => 2 ^ (a.block i).order).sum < Word.size)
    (enough : nodes.length ≤ fuel) :
    a.validateChain k fuel cursor audit =
      some (.ok nodes.length, nodes.foldl (record a) audit) := by
  induction nodes generalizing cursor fuel audit with
  | nil =>
    rw [linked.head_eq]
    cases fuel <;> rfl
  | cons i rest ih =>
    obtain ⟨fuel, rfl⟩ : ∃ n, fuel = n + 1 := exists_eq_succ_of_ne_zero (by simp at enough; omega)
    obtain ⟨alone, distinct⟩ := nodup_cons.mp nodup
    obtain ⟨here, listed⟩ := forall_mem_cons.mp listed
    obtain ⟨fresh, unvisited⟩ := forall_mem_cons.mp unvisited
    have small : ¬i ≥ cap.maxBlockNodes :=
      not_le.mpr ((invariant.valid.complete i).mpr (.inr ⟨k, here⟩))
    rw [map_cons, sum_cons, ← add_assoc] at room
    have fits : audit.accountedPages + 2 ^ (a.block i).order < Word.size := by omega
    have node : a.validateNodeIndex i audit = some (.ok (a.node i), audit) := by
      simp [validateNodeIndex, small, fresh]
    have recorded : recordBlock i (a.node i).start (2 ^ (a.block i).order)
        (overflowMessage k) audit = some (.ok (), record a audit i) := by
      rw [recordBlock, get_bind_apply, checkedAdd, if_pos fits]
      rfl
    have walked : a.validateChain k fuel (a.node i).next (record a audit i) =
        some (.ok rest.length, rest.foldl (record a) (record a audit i)) :=
      ih linked.2 listed distinct (unvisited_rest alone unvisited) (by simpa [record] using room)
        (by simpa using enough)
    rw [linked.1, validateChain, bind_ok node,
      invariant.inspect_eq here active, Exec.ofExcept_ok, pure_bind,
      show validateBlockShape (a.node i).start _ _ = _ from invariant.shape_eq here active,
      Exec.ofExcept_ok, pure_bind, bind_ok recorded, bind_ok walked]
    rfl

/-- The walk over several lists marks and accounts for all their nodes. -/
theorem forM_validateList_eq (ks : List ListId) (active : ∀ k ∈ ks, k ≠ .unused)
    (distinct : ks.Nodup) (unvisited : ∀ i ∈ ks.flatMap v.lists, audit.visited i = false)
    (room : audit.accountedPages +
      ((ks.flatMap v.lists).map fun i => 2 ^ (a.block i).order).sum < Word.size) :
    (ks.forM a.validateList) audit =
      some (.ok (), (ks.flatMap v.lists).foldl (record a) audit) := by
  have valid := invariant.valid
  induction ks generalizing audit with
  | nil => rfl
  | cons k rest ih =>
    obtain ⟨alone, distinct'⟩ := nodup_cons.mp distinct
    rw [flatMap_cons, map_append, List.sum_append_nat] at room
    have walked : a.validateChain k (cap.maxBlockNodes + 1) (a.head k) audit =
        some (.ok (v.lists k).length, (v.lists k).foldl (record a) audit) :=
      invariant.validateChain_eq (active k mem_cons_self) (valid.represents.linked k)
        (fun _ member => member) (valid.represents.nodup k)
        (fun i member => unvisited i (mem_append_left _ member)) (by omega)
        ((valid.length_le k).trans (le_succ _))
    have first : a.validateList k audit = some (.ok (), (v.lists k).foldl (record a) audit) := by
      rw [validateList, bind_ok walked, valid.len_eq k]
      simp
    have others : (rest.forM a.validateList) ((v.lists k).foldl (record a) audit) =
        some (.ok (), (rest.flatMap v.lists).foldl (record a)
          ((v.lists k).foldl (record a) audit)) :=
      ih (fun k' member => active k' (mem_cons_of_mem k member)) distinct'
      (by
        intro i member
        rw [Bool.eq_false_iff, Ne, foldl_record_visited, not_or]
        refine ⟨by simp [unvisited i (mem_append_right _ member)], ?_⟩
        intro here
        obtain ⟨k', other, there⟩ := mem_flatMap.mp member
        exact alone (valid.represents.exclusive here there ▸ other))
      (by rw [foldl_record_accountedPages]; omega)
    rw [flatMap_cons, foldl_append]
    exact (bind_ok first).trans others

/-! ## The nodes of blocks -/

omit invariant

theorem nodup_blockLists (cap : Capacity) : (blockLists cap).Nodup := by
  rw [blockLists, nodup_cons, nodup_append]
  refine ⟨by simp, ?_, ?_, ?_⟩
  · exact nodup_range.map fun x y equal => ListId.global.inj equal
  · rw [nodup_flatMap]
    refine ⟨fun cpuId _ => ?_, ?_⟩
    · exact nodup_range.map fun x y equal => (ListId.cpu.inj equal).2
    · apply nodup_range.imp
      intro x y differ k first second
      obtain ⟨_, _, rfl⟩ := mem_map.mp first
      obtain ⟨_, _, equal⟩ := mem_map.mp second
      exact differ (ListId.cpu.inj equal).1.symm
  · rintro k first l second rfl
    obtain ⟨_, _, rfl⟩ := mem_map.mp first
    obtain ⟨_, _, inside⟩ := mem_flatMap.mp second
    obtain ⟨_, _, impossible⟩ := mem_map.mp inside
    cases impossible

theorem ne_unused_of_mem_blockLists (member : k ∈ blockLists cap) : k ≠ .unused := by
  rintro rfl
  simp [blockLists] at member

include invariant

/-- A list that holds a block is among those the check walks. -/
theorem mem_blockLists (listed : i ∈ v.lists k) (active : k ≠ .unused) : k ∈ blockLists cap := by
  have admits := invariant.valid.admits listed
  have bound := (invariant.valid.occupies listed active).order_le
  have orders := invariant.configured.maxOrder_lt
  have cpus := invariant.configured.cpuCount_le
  cases k with
  | allocated => simp [blockLists]
  | global order =>
    obtain ⟨rfl, _⟩ := admits
    simp only [blockLists, mem_cons, mem_append, mem_map, mem_range]
    exact .inr (.inl ⟨_, lt_of_le_of_lt bound orders, rfl⟩)
  | cpu cpuId order =>
    obtain ⟨online, small, _⟩ := admits
    simp only [blockLists, mem_cons, mem_append, mem_flatMap, mem_map, mem_range]
    exact .inr (.inr ⟨cpuId, lt_of_lt_of_le online cpus, order, lt_succ_of_le small, rfl⟩)
  | unused => exact absurd rfl active

/-- The nodes that stand for blocks, in the order of the check. -/
def blockNodes (cap : Capacity) (v : View) : List Nat :=
  (blockLists cap).flatMap v.lists

theorem mem_blockNodes : i ∈ blockNodes cap v ↔ ∃ k, k ≠ .unused ∧ i ∈ v.lists k := by
  rw [blockNodes, mem_flatMap]
  constructor
  · rintro ⟨k, member, listed⟩
    exact ⟨k, ne_unused_of_mem_blockLists member, listed⟩
  · rintro ⟨k, active, listed⟩
    exact ⟨k, invariant.mem_blockLists listed active, listed⟩

theorem nodup_blockNodes : (blockNodes cap v).Nodup := by
  rw [blockNodes, nodup_flatMap]
  refine ⟨fun k _ => invariant.valid.represents.nodup k, ?_⟩
  apply (nodup_blockLists cap).imp
  intro k k' differ i first second
  exact differ (invariant.valid.represents.exclusive first second)

theorem occupies_of_mem (member : i ∈ blockNodes cap v) :
    Occupies a.config (a.block i) (v.cells i) := by
  obtain ⟨k, active, listed⟩ := invariant.mem_blockNodes.mp member
  exact invariant.valid.occupies listed active

/-- The blocks add up to the managed frames. -/
theorem sum_blockNodes :
    ((blockNodes cap v).map fun i => 2 ^ (a.block i).order).sum = a.totalFrames := by
  have complete : ∀ i x, x ∈ v.cells i → i ∈ blockNodes cap v := fun i x member =>
    invariant.mem_blockNodes.mpr (invariant.valid.listed_of_mem member)
  calc
    ((blockNodes cap v).map fun i => 2 ^ (a.block i).order).sum =
        ((blockNodes cap v).map fun i => (v.cells i).card).sum := by
      congr 1
      apply map_congr_left
      intro i member
      rw [(invariant.occupies_of_mem member).cell_eq, card_frames]
    _ = (usableFrames a.config.usableRanges).card :=
      invariant.valid.tiling.sum_card invariant.nodup_blockNodes complete
    _ = a.totalFrames := invariant.configured.total.symm

/-! ## The remaining checks -/

theorem block_end_le (member : i ∈ blockNodes cap v) :
    (a.block i).start + 2 ^ (a.block i).order ≤ frameLimit := by
  have positive := Nat.two_pow_pos (a.block i).order
  have last : (a.block i).start + 2 ^ (a.block i).order - 1 ∈ v.cells i := by
    rw [(invariant.occupies_of_mem member).cell_eq, mem_frames]
    omega
  have small := invariant.configured.coalesced.lt_frameLimit (invariant.valid.tiling.subset i last)
  omega

/-- Blocks of different nodes do not overlap. -/
theorem blocks_apart {j : Nat} (first : i ∈ blockNodes cap v) (second : j ∈ blockNodes cap v)
    (differ : i ≠ j) :
    ¬((a.block i).start < (a.block j).start + 2 ^ (a.block j).order ∧
      (a.block j).start < (a.block i).start + 2 ^ (a.block i).order) := by
  rintro ⟨left, right⟩
  have shared : ∃ x, x ∈ v.cells i ∧ x ∈ v.cells j := by
    refine ⟨max (a.block i).start (a.block j).start, ?_⟩
    rw [(invariant.occupies_of_mem first).cell_eq, (invariant.occupies_of_mem second).cell_eq,
      mem_frames, mem_frames]
    have := Nat.two_pow_pos (a.block i).order
    have := Nat.two_pow_pos (a.block j).order
    omega
  obtain ⟨x, inFirst, inSecond⟩ := shared
  exact differ (invariant.valid.tiling.unique inFirst inSecond)

end Invariant

theorem checkAgainst_ok {leftStart leftEnd : Nat}
    (bounded : ∀ block ∈ blocks, block.1 + block.2 < Word.size)
    (apart : ∀ block ∈ blocks, ¬(leftStart < block.1 + block.2 ∧ block.1 < leftEnd)) :
    checkAgainst leftStart leftEnd blocks = .ok () := by
  induction blocks with
  | nil => rfl
  | cons block rest ih =>
    obtain ⟨small, bounded⟩ := forall_mem_cons.mp bounded
    obtain ⟨clear, apart⟩ := forall_mem_cons.mp apart
    rw [checkAgainst, checkedAdd, if_pos small]
    dsimp only
    rw [if_neg clear]
    exact ih bounded apart

theorem checkOverlaps_ok (bounded : ∀ block ∈ blocks, block.1 + block.2 < Word.size)
    (apart : blocks.Pairwise fun x y => ¬(x.1 < y.1 + y.2 ∧ y.1 < x.1 + x.2)) :
    checkOverlaps blocks = .ok () := by
  induction blocks with
  | nil => rfl
  | cons block rest ih =>
    obtain ⟨first, others⟩ := pairwise_cons.mp apart
    obtain ⟨small, bounded⟩ := forall_mem_cons.mp bounded
    rw [checkOverlaps, checkedAdd, if_pos small]
    dsimp only
    rw [checkAgainst_ok bounded first]
    exact ih bounded others

namespace Invariant

theorem checkOverlaps_blockNodes (invariant : Invariant a v) :
    checkOverlaps ((blockNodes cap v).map fun i =>
      ((a.block i).start, 2 ^ (a.block i).order)) = .ok () := by
  apply checkOverlaps_ok
  · exact forall_mem_map.mpr fun i listed =>
      lt_of_le_of_lt (invariant.block_end_le listed) (by decide)
  · rw [pairwise_map]
    apply invariant.nodup_blockNodes.imp_of_mem
    intro i j first second differ
    exact invariant.blocks_apart first second differ

/-- Walking the unused nodes marks them. -/
theorem validateUnused_eq {cursor : Option Nat} {nodes : List Nat} {fuel : Nat} {audit : Audit}
    (linked : Linked (fun i => (a.node i).next) cursor nodes)
    (small : ∀ i ∈ nodes, i < cap.maxBlockNodes) (nodup : nodes.Nodup)
    (unvisited : ∀ i ∈ nodes, audit.visited i = false) (enough : nodes.length ≤ fuel) :
    ∃ after, a.validateUnused fuel cursor audit = some (.ok nodes.length, after) ∧
      ∀ i, after.visited i = true ↔ audit.visited i = true ∨ i ∈ nodes := by
  induction nodes generalizing cursor fuel audit with
  | nil =>
    refine ⟨audit, ?_, by simp⟩
    rw [linked.head_eq]
    cases fuel <;> rfl
  | cons i rest ih =>
    obtain ⟨fuel, rfl⟩ : ∃ n, fuel = n + 1 := exists_eq_succ_of_ne_zero (by simp at enough; omega)
    obtain ⟨alone, distinct⟩ := nodup_cons.mp nodup
    obtain ⟨inside, small⟩ := forall_mem_cons.mp small
    obtain ⟨fresh, unvisited⟩ := forall_mem_cons.mp unvisited
    obtain ⟨after, walked, visited⟩ :=
      @ih _ _ { audit with visited := update audit.visited i true } linked.2 small distinct
        (unvisited_rest alone unvisited) (show rest.length ≤ fuel by simpa using enough)
    refine ⟨after, ?_, fun j => ?_⟩
    · rw [linked.1, validateUnused, get_bind_apply, if_neg (not_le.mpr inside),
        if_neg (by simp [fresh])]
      exact bind_ok walked
    · rw [visited j, update_true_iff, mem_cons, or_assoc]

/-- The check accepts every allocator with the invariant. -/
theorem validateInvariants_eq (invariant : Invariant a v) :
    a.validateInvariants = some (.ok ()) := by
  have valid := invariant.valid
  have orders : ¬a.maxOrder ≥ maxOrderSlots := not_le.mpr invariant.configured.maxOrder_lt
  have total := invariant.sum_blockNodes
  let audit := (blockNodes cap v).foldl (record a) Audit.new
  have walked : ((blockLists cap).forM a.validateList) Audit.new = some (.ok (), audit) := by
    apply invariant.forM_validateList_eq
    · exact fun _ => ne_unused_of_mem_blockLists
    · exact nodup_blockLists cap
    · intro i _
      rfl
    · have bound : a.totalFrames < Word.size := invariant.configured.total_lt
      rw [← total] at bound
      simpa [Audit.new, blockNodes] using bound
  have blocks : audit.blocks = (blockNodes cap v).map fun i =>
      ((a.block i).start, 2 ^ (a.block i).order) := by
    rw [foldl_record_blocks]
    rfl
  have accounted : audit.accountedPages = a.totalFrames := by
    rw [foldl_record_accountedPages, total]
    exact zero_add _
  have visited : ∀ i, audit.visited i = true ↔ i ∈ blockNodes cap v := by
    intro i
    rw [foldl_record_visited]
    simp [Audit.new]
  obtain ⟨final, unused, marked⟩ : ∃ final,
      a.validateUnused (cap.maxBlockNodes + 1) (a.head .unused) audit =
        some (.ok (v.lists .unused).length, final) ∧
      ∀ i, final.visited i = true ↔ audit.visited i = true ∨ i ∈ v.lists .unused := by
    apply validateUnused_eq (valid.represents.linked .unused)
    · intro i member
      exact (valid.complete i).mpr (.inr ⟨_, member⟩)
    · exact valid.represents.nodup _
    · intro i member
      rw [Bool.eq_false_iff, Ne, visited, invariant.mem_blockNodes]
      rintro ⟨k, active, listed⟩
      exact active (valid.represents.exclusive listed member)
    · exact (valid.length_le _).trans (le_succ _)
  have everyNode : ((List.range cap.maxBlockNodes).any fun i => !final.visited i) = false := by
    rw [any_eq_false]
    intro i member
    rcases (valid.complete i).mp (mem_range.mp member) with inside | ⟨k, listed⟩
    · cases inside
    have reached : final.visited i = true := by
      rw [marked, visited, invariant.mem_blockNodes]
      by_cases active : k = .unused
      · exact .inr (active ▸ listed)
      · exact .inl ⟨k, active, listed⟩
    simp [reached]
  have totals : a.validateTotals audit = some (.ok (), final) := by
    rw [validateTotals, get_bind_apply, blocks,
      invariant.checkOverlaps_blockNodes, Exec.ofExcept_ok, pure_bind,
      if_neg (not_not.mpr accounted), bind_ok unused, if_neg (not_not.mpr (valid.len_eq _).symm),
      get_bind_apply, everyNode]
    rfl
  rw [validateInvariants, if_neg orders]
  dsimp only
  rw [bind_ok walked, totals]
  rfl

end Invariant

/-! ## Every run -/

/-- After every sequence of calls on a bootstrapped allocator, whatever their
arguments and results, the allocator passes its own check and has its
invariant. -/
theorem performAll_validateInvariants {memMap : List MemoryRegion} {cpuCount : Nat}
    (booted : bootstrap cap memMap cpuCount = some (.ok a)) (operations : List Operation) :
    ∃ b, performAll operations a = some b ∧ b.validateInvariants = some (.ok ()) ∧
      ∃ v, Invariant b v := by
  obtain ⟨⟨v, invariant, _⟩, _⟩ := bootstrap_invariant booted
  obtain ⟨b, w, run, final, _⟩ := performAll_invariant invariant operations
  exact ⟨b, run, final.validateInvariants_eq, w, final⟩

/-- A machine with four usable pages, one CPU and three metadata nodes: the
first allocation runs out of nodes in the middle of a refill. -/
theorem performAll_validateInvariants_three_nodes : ∃ a : BuddyAllocator ⟨1, 1, 3⟩,
      bootstrap ⟨1, 1, 3⟩ [⟨0, 0x4000, usableKind⟩] 1 = some (.ok a) ∧
      ∃ b, performAll [.allocFrame4kOnCpu 0 1, .retainFrame 0, .freeFrameOnCpu 0 0,
          .release 0 ⟨0⟩ 1, .allocFrame4kOnCpu 0 4] a = some b ∧
        b.validateInvariants = some (.ok ()) ∧ ∃ v, Invariant b v := by
  obtain ⟨a, booted⟩ : ∃ a : BuddyAllocator ⟨1, 1, 3⟩,
      bootstrap ⟨1, 1, 3⟩ [⟨0, 0x4000, usableKind⟩] 1 = some (.ok a) := ⟨_, rfl⟩
  exact ⟨a, booted, performAll_validateInvariants booted _⟩

end AetherKernel.Mm.Buddy
