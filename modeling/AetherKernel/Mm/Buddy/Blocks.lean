import AetherKernel.Mm.Buddy.Layout

/-!
# Splitting and merging blocks

The routines that move nodes between the global free lists, the unused list
and the hand.  None of them touches the allocation list: `Reaches` records
that the layout stays valid, that the configuration stays as it is and that
the live blocks, with their reference counts, are the same.
-/

namespace AetherKernel.Mm.Buddy

open Lib Function Exec Option List BuddyAllocator Nat

variable {cap : Capacity} (a : BuddyAllocator cap) {v : View}

/-- The live blocks, in the order of the allocation list. -/
def live (v : View) : List Block :=
  (v.lists .allocated).map a.block

/-- Where the blocks of a global list start. -/
def starts (v : View) (order : Nat) : List Nat :=
  (v.lists (.global order)).map fun i => (a.block i).start

theorem starts_setNode {a : BuddyAllocator cap} {i : Nat} {value : BlockNode}
    (free : ∀ order, i ∉ v.lists (.global order)) : starts (a.setNode i value) v = starts a v := by
  funext order
  refine map_congr_left fun j listed => ?_
  rw [a.block_setNode_of_ne]
  rintro rfl
  exact free order listed

/-- The lists are sorted, and no two buddies are listed. -/
structure Canonical (maxOrder : Nat) (starts : Nat → List Nat) : Prop where
  sorted : ∀ order, (starts order).Pairwise (· < ·)
  apart : ∀ order < maxOrder, ∀ start ∈ starts order, start ^^^ blockSize order ∉ starts order

namespace Canonical

variable {maxOrder order start : Nat} {lists lists' : Nat → List Nat}

theorem sublist (canonical : Canonical maxOrder lists)
    (shorter : ∀ order, (lists' order).Sublist (lists order)) : Canonical maxOrder lists' :=
  ⟨fun order => (canonical.sorted order).sublist (shorter order),
    fun order below start listed buddy =>
    canonical.apart order below start ((shorter order).subset listed)
      ((shorter order).subset buddy)⟩

/-- A block may be listed whose buddy is not. -/
theorem insert {pre post : List Nat} (canonical : Canonical maxOrder lists)
    (split : lists order = pre ++ post) (below : ∀ x ∈ pre, x < start)
    (above : ∀ x, post.head? = some x → start < x)
    (alone : order < maxOrder → start ^^^ blockSize order ∉ lists order) :
    Canonical maxOrder (update lists order (pre ++ start :: post)) := by
  have sorted := canonical.sorted order
  rw [split, pairwise_append] at sorted
  have behind : ∀ x ∈ post, start < x := by
    cases post with
    | nil => exact nofun
    | cons first rest =>
      have least := above first rfl
      rintro x (_ | ⟨_, later⟩)
      · exact least
      · exact least.trans (rel_of_pairwise_cons sorted.2.1 later)
  have member {x : Nat} : x ∈ pre ++ start :: post ↔ x = start ∨ x ∈ lists order := by
    rw [split]
    simp only [mem_append, mem_cons]
    tauto
  constructor
  · intro other
    by_cases here : other = order
    · subst here
      rw [update_self, pairwise_append]
      refine ⟨sorted.1, pairwise_cons.mpr ⟨behind, sorted.2.1⟩, fun x first y second => ?_⟩
      rcases mem_cons.mp second with rfl | later
      · exact below x first
      · exact sorted.2.2 x first y later
    · rw [update_of_ne here]
      exact canonical.sorted other
  intro other small x listed buddy
  by_cases here : other = order
  · subst here
    rw [update_self, member] at listed buddy
    have flip : (x ^^^ blockSize other) ^^^ blockSize other = x := by
      rw [Nat.xor_assoc, Nat.xor_self, xor_zero]
    rcases listed with rfl | old
    · rcases buddy with same | known
      · have none : blockSize other = 0 := by
          rw [← Nat.zero_xor (blockSize other), ← Nat.xor_self x, Nat.xor_assoc, same]
        rw [blockSize_eq] at none
        exact absurd none (Nat.two_pow_pos other).ne'
      · exact alone small known
    · rcases buddy with same | known
      · rw [same] at flip
        exact alone small (flip ▸ old)
      · exact canonical.apart other small x old known
  · rw [update_of_ne here] at listed buddy
    exact canonical.apart other small x listed buddy

end Canonical

/-- The configuration is the same, and lists that are canonical stay so. -/
structure Steady (a : BuddyAllocator cap) (v : View) (b : BuddyAllocator cap) (w : View) :
    Prop where
  config : b.config = a.config
  canonical : Canonical a.config.maxOrder (starts a v) → Canonical a.config.maxOrder (starts b w)

namespace Steady

variable {a b c : BuddyAllocator cap} {w x : View} {k : ListId} {i : Nat}

theorem of_sublist (config : b.config = a.config)
    (shorter : ∀ order, (starts b w order).Sublist (starts a v order)) : Steady a v b w :=
  ⟨config, fun canonical => canonical.sublist shorter⟩

theorem refl (a : BuddyAllocator cap) (v : View) : Steady a v a v :=
  ⟨rfl, id⟩

theorem trans (first : Steady a v b w) (second : Steady b w c x) : Steady a v c x :=
  ⟨second.config.trans first.config, fun canonical => by
    have later := second.canonical
    rw [first.config] at later
    exact later (first.canonical canonical)⟩

theorem unlink {pre post : List Nat} (split : v.lists k = pre ++ i :: post) :
    Steady a v (a.unlink k pre.getLast? i) (v.setList k (pre ++ post)) := by
  refine .of_sublist (a.config_unlink _ _ _) fun order => ?_
  simp only [starts, block_unlink, View.setList_lists]
  apply List.Sublist.map
  by_cases here : ListId.global order = k
  · subst here
    rw [update_self, split]
    exact List.Sublist.append_left (sublist_cons_self _ _) _
  · rw [update_of_ne here]

theorem link (previous next : Option Nat) (i : Nat) (nodes : List Nat)
    (other : ∀ order, k ≠ .global order) :
    Steady a v (a.link k previous next i) (v.setList k nodes) := by
  refine .of_sublist (a.config_link _ _ _ _) fun order => ?_
  simp only [starts, block_link, View.setList_lists, update_of_ne (other order).symm]
  exact .refl _

theorem setNode {value : BlockNode} (free : ∀ order, i ∉ v.lists (.global order)) :
    Steady a v (a.setNode i value) v :=
  .of_sublist rfl fun order => by rw [starts_setNode free]

end Steady

/-- From `a` with view `v` the allocator has come to the valid layout `b`, `w`
without touching the live blocks. -/
structure Reaches (space : Finset Nat) (a : BuddyAllocator cap) (v : View)
    (b : BuddyAllocator cap) (w : View) (held : List Nat) : Prop where
  valid : Valid space b w held
  steady : Steady a v b w
  live : live b w = live a v

namespace Reaches

variable {space : Finset Nat} {a b c : BuddyAllocator cap} {w x : View}
  {held held' pre post : List Nat} {k : ListId} {i : Nat}

theorem refl (valid : Valid space a v held) : Reaches space a v a v held :=
  ⟨valid, .refl a v, rfl⟩

variable (reaches : Reaches space a v b w held)
include reaches

theorem config : b.config = a.config :=
  reaches.steady.config

omit reaches in
theorem trans (first : Reaches space a v b w held) (second : Reaches space b w c x held') :
    Reaches space a v c x held' :=
  ⟨second.valid, first.steady.trans second.steady, second.live.trans first.live⟩

theorem cpuCount_eq : b.cpuCount = a.cpuCount :=
  congrArg Config.cpuCount reaches.config

theorem unlink (split : w.lists k = pre ++ i :: post) (free : k ≠ .allocated) :
    Reaches space a v (b.unlink k pre.getLast? i) (w.setList k (pre ++ post)) (i :: held) := by
  refine ⟨reaches.valid.unlink split, reaches.steady.trans (.unlink split), ?_⟩
  rw [← reaches.live]
  simp [Buddy.live, free.symm]

omit reaches in
theorem link (reaches : Reaches space a v b w (i :: held)) (split : w.lists k = pre ++ post)
    (free : k ≠ .allocated) (admits : Admits b.config k (b.block i))
    (occupies : k ≠ .unused → Occupies b.config (b.block i) (w.cells i))
    (spare : k = .unused → w.cells i = ∅)
    (steady : Steady a v (b.link k pre.getLast? post.head? i) (w.setList k (pre ++ i :: post))) :
    Reaches space a v (b.link k pre.getLast? post.head? i)
      (w.setList k (pre ++ i :: post)) held := by
  refine ⟨reaches.valid.link split admits occupies spare, steady, ?_⟩
  rw [← reaches.live]
  simp [Buddy.live, free.symm]

theorem pop (cons : w.lists k = i :: post) (free : k ≠ .allocated) :
    Reaches space a v (b.unlink k none i) (w.setList k post) (i :: held) :=
  reaches.unlink (show w.lists k = [] ++ i :: post from cons) free

omit reaches in
theorem push (reaches : Reaches space a v b w (i :: held))
    (free : k ≠ .allocated) (admits : Admits b.config k (b.block i))
    (occupies : k ≠ .unused → Occupies b.config (b.block i) (w.cells i))
    (spare : k = .unused → w.cells i = ∅) (other : ∀ order, k ≠ .global order) :
    Reaches space a v (b.link k none (b.head k) i) (w.setList k (i :: w.lists k)) held := by
  rw [reaches.valid.head_eq k]
  exact reaches.link (show w.lists k = [] ++ w.lists k from rfl) free admits occupies spare
    (reaches.steady.trans (.link _ _ _ _ other))

theorem setNode (inside : i ∈ held)
    (value : BlockNode) : Reaches space a v (b.setNode i value) w held := by
  refine ⟨reaches.valid.setNode inside value, reaches.steady.trans (.setNode fun order =>
    reaches.valid.inHand i inside (.global order)), ?_⟩
  rw [← reaches.live]
  apply map_congr_left
  intro j listed
  apply b.block_setNode_of_ne
  rintro rfl
  exact reaches.valid.inHand j inside _ listed

theorem setCells (cells : Nat → Finset Nat)
    (agree : ∀ i ∉ held, cells i = w.cells i) (tiling : Tiling space cells) :
    Reaches space a v b (w.setCells cells) held :=
  ⟨reaches.valid.setCells agree tiling, ⟨reaches.config, reaches.steady.canonical⟩, reaches.live⟩

end Reaches

/-- The per-CPU lists are the same. -/
def SameCaches (v w : View) : Prop :=
  ∀ cpuId order, w.lists (.cpu cpuId order) = v.lists (.cpu cpuId order)

theorem SameCaches.refl (v : View) : SameCaches v v :=
  fun _ _ => rfl

theorem SameCaches.trans {w x : View} (first : SameCaches v w) (second : SameCaches w x) :
    SameCaches v x :=
  fun cpuId order => (second cpuId order).trans (first cpuId order)

namespace Valid

variable {space : Finset Nat} {a : BuddyAllocator cap} {held post : List Nat}
  (valid : Valid space a v held) {k : ListId} {i : Nat}

include valid

/-- A list walk ends, and stops behind the longest prefix that fails the
test.  Only the links of the walked state matter. -/
theorem scan_of_agree {a' : BuddyAllocator cap} (heap : a'.heap = a.heap) (k : ListId)
    (stop : Nat → BlockNode → Bool) :
    ∃ pre post, v.lists k = pre ++ post ∧ (∀ i ∈ pre, stop i (a'.node i) = false) ∧
      (∀ i, post.head? = some i → stop i (a'.node i) = true) ∧
      scan k stop a' = some (.ok (pre.getLast?, post.head?), a') := by
  have represents := valid.represents
  rw [← heap] at represents
  obtain ⟨pre, post, split, passed, stopped, result⟩ :=
    (represents.linked k).scan_eq (fun i => stop i (a'.node i)) none (valid.length_le k)
  refine ⟨pre, post, split, passed, stopped, ?_⟩
  have loop : Linked.scan (fun i => (a'.node i).next) (fun i => stop i (a'.node i))
      cap.maxBlockNodes none (a'.head k) = some (pre.getLast?, post.head?) := by
    simpa [BuddyAllocator.heap] using result
  simp [scan, loop]

theorem scan_eq (k : ListId) (stop : Nat → BlockNode → Bool) :
    ∃ pre post, v.lists k = pre ++ post ∧ (∀ i ∈ pre, stop i (a.node i) = false) ∧
      (∀ i, post.head? = some i → stop i (a.node i) = true) ∧
      scan k stop a = some (.ok (pre.getLast?, post.head?), a) :=
  valid.scan_of_agree rfl k stop

theorem popFront_nil (empty : v.lists k = []) : popFront k a = some (.ok none, a) := by
  simp [popFront, valid.head_eq, empty]

theorem popFront_cons (cons : v.lists k = i :: post) :
    popFront k a = some (.ok (some i), a.unlink k none i) := by
  simp [popFront, valid.head_eq, cons]

theorem allocUnused_nil (empty : v.lists .unused = []) :
    allocUnused a = some (.error .metadataExhausted, a) := by
  rw [allocUnused, bind_ok (valid.popFront_nil empty)]
  rfl

theorem allocUnused_cons (cons : v.lists .unused = i :: post) :
    allocUnused a = some (.ok i, a.unlink .unused none i) := by
  rw [allocUnused, bind_ok (valid.popFront_cons cons)]
  rfl

/-- Two nodes that stand for blocks with the same start are the same node. -/
theorem eq_of_start_eq {j : Nat} (first : Occupies a.config (a.block i) (v.cells i))
    (second : Occupies a.config (a.block j) (v.cells j))
    (same : (a.block i).start = (a.block j).start) : i = j := by
  apply valid.tiling.unique (x := (a.block i).start)
  · rw [first.cell_eq]
    exact start_mem_frames _ _
  · rw [second.cell_eq, same]
    exact start_mem_frames _ _

omit valid

/-- Inserting a block into a free list does not fail: no listed block starts at
the same frame. -/
theorem globalInsertSorted_eq (valid : Valid space a v (i :: held))
    (occupies : Occupies a.config (a.block i) (v.cells i)) (order : Nat) :
    ∃ pre post, v.lists (.global order) = pre ++ post ∧ globalInsertSorted order i a =
        some (.ok (), a.link (.global order) pre.getLast? post.head? i) ∧
      ((Canonical a.config.maxOrder (starts a v) → order < a.config.maxOrder →
          (a.block i).start ^^^ blockSize order ∉ starts a v order) →
        Steady a v (a.link (.global order) pre.getLast? post.head? i)
          (v.setList (.global order) (pre ++ i :: post))) := by
  obtain ⟨pre, post, split, passed, stopped, walk⟩ := valid.scan_eq (.global order)
    fun _ current => decide ((a.node i).start ≤ current.start)
  have distinct : (post.head?.any fun current => (a.node current).start = (a.node i).start) =
      false := by
    cases post with
    | nil => rfl
    | cons j rest =>
      have listed : j ∈ v.lists (.global order) := by simp [split]
      simp only [List.head?_cons, any_some, decide_eq_false_iff_not]
      intro same
      have equal := valid.eq_of_start_eq (valid.occupies listed (by simp)) occupies same
      exact valid.inHand i mem_cons_self _ (equal ▸ listed)
  refine ⟨pre, post, split, ?_, fun alone => ⟨a.config_link _ _ _ _, fun canonical => ?_⟩⟩
  · rw [globalInsertSorted, get_bind_apply, bind_ok walk]
    simp [distinct]
  have grown : starts (a.link (.global order) pre.getLast? post.head? i)
      (v.setList (.global order) (pre ++ i :: post)) =
        update (starts a v) order (pre.map (fun j => (a.block j).start) ++
          (a.block i).start :: post.map fun j => (a.block j).start) := by
    funext other
    simp only [starts, block_link, View.setList_lists]
    by_cases here : other = order
    · subst here
      simp
    · rw [update_of_ne here, update_of_ne (by simpa using here)]
      rfl
  rw [grown]
  refine canonical.insert (by simp [starts, split]) ?_ ?_ (alone canonical)
  · rintro x member
    obtain ⟨j, before, rfl⟩ := mem_map.mp member
    exact not_le.mp (of_decide_eq_false (passed j before))
  intro x first
  cases post with
  | nil => nomatch first
  | cons j rest =>
    cases first
    simp only [List.head?_cons, any_some, decide_eq_false_iff_not] at distinct
    exact lt_of_le_of_ne (of_decide_eq_true (stopped j rfl)) (Ne.symm distinct)

/-- Looking for a block by its start takes it off the free list or changes
nothing. -/
theorem globalRemoveByStart_eq (valid : Valid space a v held) (order start : Nat) :
    globalRemoveByStart order start a = some (.ok none, a) ∧
        (Canonical a.config.maxOrder (starts a v) → start ∉ starts a v order) ∨
      ∃ pre j post, v.lists (.global order) = pre ++ j :: post ∧ (a.block j).start = start ∧
        globalRemoveByStart order start a =
          some (.ok (some j), a.unlink (.global order) pre.getLast? j) := by
  obtain ⟨pre, post, split, passed, stopped, walk⟩ := valid.scan_eq (.global order)
    fun _ current => decide (start ≤ current.start)
  have before : start ∉ pre.map fun i => (a.block i).start := by
    intro member
    obtain ⟨i, first, rfl⟩ := mem_map.mp member
    exact absurd le_rfl (of_decide_eq_false (passed i first))
  rw [globalRemoveByStart, get_bind_apply, bind_ok walk]
  cases post with
  | nil =>
    refine .inl ⟨rfl, fun _ => ?_⟩
    rwa [starts, split, append_nil]
  | cons j rest =>
    by_cases same : (a.node j).start = start
    · exact .inr ⟨pre, j, rest, split, same, by simp [same]⟩
    refine .inl ⟨by simp [same], fun canonical listed => ?_⟩
    have sorted := canonical.sorted order
    rw [starts, split, map_append] at sorted listed
    rcases mem_append.mp listed with first | later
    · exact before first
    have least : start < (a.block j).start :=
      lt_of_le_of_ne (of_decide_eq_true (stopped j rfl)) (Ne.symm same)
    rcases mem_cons.mp later with here | behind
    · exact same here.symm
    · exact (least.trans (rel_of_pairwise_cons (pairwise_append.mp sorted).2.1 behind)).false

end Valid

/-! ## Splitting -/

section Routines

variable {space : Finset Nat} {a : BuddyAllocator cap} {held : List Nat} {i order : Nat}

/-- Splitting hands the upper half of the block in hand to a free list. -/
theorem splitBlock_reaches {j : Nat} {rest : List Nat}
    (valid : Valid space a v (i :: held)) (occupies : Occupies a.config (a.block i) (v.cells i))
    (orderEq : (a.block i).order = order + 1) (unused : v.lists .unused = j :: rest)
    (empty : v.lists (.global order) = []) :
    ∃ b w, splitBlock i order a = some (.ok (), b) ∧
      Reaches space a v b w (i :: held) ∧ SameCaches v w ∧
      (∀ other, other ≠ order → w.lists (.global other) = v.lists (.global other)) ∧
      b.block i = ⟨(a.block i).start, order, (a.block i).refcount⟩ ∧
      Occupies b.config (b.block i) (w.cells i) ∧ w.lists .unused = rest := by
  have spare : j ∈ v.lists .unused := by simp [unused]
  have differ : i ≠ j := by
    rintro rfl
    exact valid.inHand i mem_cons_self _ spare
  have aligned : 2 ^ (order + 1) ∣ (a.block i).start := by
    simpa [orderEq] using occupies.aligned
  have bound : order ≤ a.config.maxOrder := by
    have := occupies.order_le
    omega
  let upper : BlockNode :=
    { start := (a.node i).start + blockSize order, order := order, refcount := 0, next := none }
  let cells := update (update v.cells i (frames (a.block i).start order)) j
    (frames ((a.block i).start + 2 ^ order) order)
  have cellI : cells i = frames (a.block i).start order := by simp [cells, differ]
  have cellJ : cells j = frames ((a.block i).start + 2 ^ order) order := by simp [cells]
  have taken : Reaches space a v (a.unlink .unused none j) (v.setList .unused rest)
      (j :: i :: held) :=
    (Reaches.refl valid).pop unused (by simp)
  have tiling : Tiling space cells := by
    apply valid.tiling.exchange (i := i) (j := j)
    · intro k notI notJ
      simp [cells, notI, notJ]
    · intro frame
      rw [cellI, cellJ, occupies.cell_eq, valid.spare spare, orderEq, mem_frames_succ]
      simp
    · intro _
      rw [cellI, cellJ, Finset.disjoint_left]
      intro frame lower upper
      rw [mem_frames] at lower upper
      omega
  let b := (a.unlink .unused none j).setNode j upper
  have retiled : Reaches space a v b ((v.setList .unused rest).setCells cells)
      (j :: i :: held) := by
    apply (taken.setNode mem_cons_self upper).setCells cells ?_ tiling
    intro k outside
    simp only [mem_cons, not_or] at outside
    simp [cells, outside]
  have upperBlock : b.block j = upper.toBlock := block_setNode_self _ _ _
  have upperOccupies : Occupies b.config (b.block j) (cells j) := by
    rw [upperBlock, retiled.config, cellJ]
    constructor
    · simp [upper, block]
    · exact bound
    · simpa [upper, block] using (aligned_half aligned).2
  obtain ⟨pre, post, split, inserted, steady⟩ :=
    retiled.valid.globalInsertSorted_eq upperOccupies order
  let c := b.link (.global order) pre.getLast? post.head? j
  have linked := retiled.link split (by simp) (by rw [upperBlock]; exact ⟨rfl, rfl⟩)
    (fun _ => upperOccupies) (by simp)
    (retiled.steady.trans (steady fun _ _ => by simp [starts, empty]))
  have blockEq : (c.node i).toBlock = a.block i := by
    change c.block i = _
    rw [block_link, block_setNode_of_ne _ _ _ differ, block_unlink]
  have final := linked.setNode mem_cons_self { c.node i with order := order }
  refine ⟨_, _, ?_, final, fun _ _ => by simp, fun other apart => by simp [apart], ?_, ?_, ?_⟩
  · rw [splitBlock, get_bind_apply,
      bind_ok (valid.allocUnused_cons unused), modify_bind_apply, bind_ok inserted]
    rfl
  · rw [block_setNode_self, ← blockEq]
  · rw [final.config, block_setNode_self]
    constructor
    · simp [cellI, blockEq]
    · exact bound
    · simpa [blockEq] using (aligned_half aligned).1
  · simp

/-- Repeated splitting brings the block in hand down to the wanted order. -/
theorem splitDown_reaches {extra : Nat} (valid : Valid space a v (i :: held))
    (occupies : Occupies a.config (a.block i) (v.cells i))
    (orderEq : (a.block i).order = order + extra) (enough : extra ≤ (v.lists .unused).length)
    (empty : ∀ other, order ≤ other → other < order + extra → v.lists (.global other) = []) :
    ∃ b w, splitDown i order extra a = some (.ok (), b) ∧
      Reaches space a v b w (i :: held) ∧ SameCaches v w ∧
      b.block i = ⟨(a.block i).start, order, (a.block i).refcount⟩ ∧
      Occupies b.config (b.block i) (w.cells i) := by
  induction extra generalizing a v with
  | zero =>
    refine ⟨a, v, rfl, Reaches.refl valid, SameCaches.refl v, ?_, occupies⟩
    rw [← show (a.block i).order = order from orderEq]
  | succ extra ih =>
    cases unused : v.lists .unused with
    | nil => simp [unused] at enough
    | cons j rest =>
      obtain ⟨b, w, split, reaches, caches, others, block, half, left⟩ :=
        splitBlock_reaches valid occupies
          (show (a.block i).order = order + extra + 1 from orderEq) unused
          (empty _ (le_add_right _ _) (lt_succ_self _))
      obtain ⟨c, x, splits, reaches', caches', block', final⟩ :=
        ih reaches.valid half (by rw [block]) (by simpa [unused, left] using enough)
          fun other above below =>
            (others other below.ne).trans (empty other above (lt_succ_of_lt below))
      refine ⟨c, x, ?_, reaches.trans reaches', caches.trans caches', ?_, final⟩
      · rw [splitDown, bind_ok split, splits]
      · rw [block', block]

/-- The search ends at an order with a free block, or past the maximum. -/
theorem searchOrder_spec (a : BuddyAllocator cap) (fuel order : Nat)
    (enough : a.maxOrder + 1 ≤ order + fuel) :
    order ≤ a.searchOrder fuel order ∧ (∀ other, order ≤ other → other < a.searchOrder fuel order →
        a.globalFreeHeads other = none) ∧
      (a.searchOrder fuel order ≤ a.maxOrder →
        (a.globalFreeHeads (a.searchOrder fuel order)).isSome) := by
  induction fuel generalizing order with
  | zero =>
    refine ⟨le_rfl, fun other above below => absurd below (not_lt.mpr above), fun within => ?_⟩
    simp only [searchOrder] at within
    omega
  | succ fuel ih =>
    rw [searchOrder]
    split
    · rename_i goes
      obtain ⟨later, passed, found⟩ := ih (order + 1) (by omega)
      refine ⟨by omega, fun other above below => ?_, found⟩
      rcases eq_or_lt_of_le above with rfl | more
      · exact isNone_iff_eq_none.mp goes.2
      · exact passed other more below
    · rename_i stop
      refine ⟨le_rfl, fun other above below => absurd below (not_lt.mpr above), fun within => ?_⟩
      rw [isSome_iff_ne_none]
      intro empty
      exact stop ⟨within, by simp [empty]⟩

/-- A block taken from the global lists is of the wanted order; a refusal
changes nothing. -/
theorem allocFromGlobal_returns (valid : Valid space a v held) (order : Nat) :
    (allocFromGlobal order).Returns a fun outcome b =>
      (outcome = .error .outOfMemory ∨ outcome = .error .metadataExhausted) ∧ b = a ∨
      ∃ i w, outcome = .ok i ∧ Reaches space a v b w (i :: held) ∧ SameCaches v w ∧
        (b.block i).order = order ∧ (b.block i).refcount = 0 ∧
        Occupies b.config (b.block i) (w.cells i) := by
  obtain ⟨later, passed, found⟩ := searchOrder_spec a (a.maxOrder + 1 - order) order (by omega)
  apply Returns.get
  dsimp only
  set current := a.searchOrder (a.maxOrder + 1 - order) order
  split
  · exact Returns.throw (.inl ⟨.inl rfl, rfl⟩)
  split
  · exact Returns.throw (.inl ⟨.inr rfl, rfl⟩)
  rename_i unused
  have heads : a.globalFreeHeads current = (v.lists (.global current)).head? :=
    valid.head_eq (.global current)
  cases listed : v.lists (.global current) with
  | nil =>
    have some := found (by omega)
    simp [heads, listed] at some
  | cons i rest =>
    have member : i ∈ v.lists (.global current) := by simp [listed]
    obtain ⟨tagged, idle⟩ := valid.admits member
    have taken := (Reaches.refl valid).pop listed (by simp)
    apply Returns.step (valid.popFront_cons listed)
    let c := a.unlink (.global current) none i
    have ready := taken.setNode mem_cons_self { c.node i with order := current }
    have blockEq : (c.setNode i { c.node i with order := current }).block i = a.block i := by
      rw [block_setNode_self]
      change (⟨(c.block i).start, current, (c.block i).refcount⟩ : Block) = a.block i
      rw [block_unlink, ← tagged]
    have enough : current - order ≤ (v.lists .unused).length := by
      have room : current - order ≤ a.len .unused := by
        simpa [hasUnused, len] using unused
      rwa [valid.len_eq .unused] at room
    have whole : Occupies (c.setNode i { c.node i with order := current }).config
        ((c.setNode i { c.node i with order := current }).block i) (v.cells i) := by
      rw [blockEq]
      exact valid.occupies member (by simp)
    have orderEq : ((c.setNode i { c.node i with order := current }).block i).order =
        order + (current - order) := by
      rw [blockEq]
      omega
    obtain ⟨b, w, splits, reaches, caches, block, final⟩ :=
      splitDown_reaches ready.valid whole orderEq (by simpa using enough)
        fun other above below => by
          have empty := passed other above (by omega)
          rw [show a.globalFreeHeads other = _ from valid.head_eq (.global other)] at empty
          simpa [show other ≠ current by omega] using empty
    apply Returns.step splits
    apply Returns.pure
    refine .inr ⟨i, w, rfl, ready.trans reaches, fun cpuId order => ?_, ?_, ?_, final⟩
    · rw [caches cpuId order]
      simp
    · rw [block]
    · rw [block, blockEq]
      exact idle

/-! ## Merging -/

/-- Merging grows the frames of the node in hand and returns the nodes of the
absorbed buddies to the pool. -/
theorem mergeUp_reaches {fuel start : Nat} (valid : Valid space a v (i :: held))
    (cell : v.cells i = frames start order) (aligned : 2 ^ order ∣ start)
    (bound : order + fuel ≤ a.config.maxOrder) :
    ∃ start' order' b w, mergeUp fuel start order a = some (.ok (start', order'), b) ∧
      Reaches space a v b w (i :: held) ∧ SameCaches v w ∧ w.cells i = frames start' order' ∧
      2 ^ order' ∣ start' ∧ order' ≤ a.config.maxOrder ∧
      (Canonical a.config.maxOrder (starts a v) → order' < order + fuel →
        start' ^^^ blockSize order' ∉ starts b w order') := by
  induction fuel generalizing a v start order with
  | zero =>
    exact ⟨start, order, a, v, rfl, Reaches.refl valid, SameCaches.refl v, cell, aligned, bound,
      fun _ less => absurd less (lt_irrefl _)⟩
  | succ fuel ih =>
    rcases valid.globalRemoveByStart_eq order (start ^^^ blockSize order) with
      ⟨missing, absent⟩ | ⟨pre, j, post, split, startEq, removed⟩
    · refine ⟨start, order, a, v, ?_, Reaches.refl valid, SameCaches.refl v, cell, aligned,
        by omega, fun canonical _ => absent canonical⟩
      rw [mergeUp, bind_ok missing]
      rfl
    have member : j ∈ v.lists (.global order) := by simp [split]
    have differ : i ≠ j := by
      rintro rfl
      exact valid.inHand i mem_cons_self _ member
    obtain ⟨orderEq, _⟩ := valid.admits member
    have buddyCell : v.cells j = frames (start ^^^ blockSize order) order := by
      rw [(valid.occupies member (by simp)).cell_eq, startEq, orderEq]
    let merged := frames (min start (start ^^^ blockSize order)) (order + 1)
    let cells := update (update v.cells i merged) j ∅
    have tiling : Tiling space cells := by
      apply valid.tiling.exchange (i := i) (j := j)
      · intro k notI notJ
        simp [cells, notI, notJ]
      · intro frame
        simp only [cells, update_self, update_of_ne differ,
          Finset.notMem_empty, or_false, merged, cell, buddyCell]
        exact mem_frames_merge aligned
      · simp [cells]
    let b := a.unlink (.global order) pre.getLast? j
    have taken : Reaches space a v b (v.setList (.global order) (pre ++ post))
        (j :: i :: held) := (Reaches.refl valid).unlink split (by simp)
    have retiled : Reaches space a v (b.setNode j BlockNode.empty)
        ((v.setList (.global order) (pre ++ post)).setCells cells) (j :: i :: held) := by
      apply (taken.setNode mem_cons_self _).setCells cells ?_ tiling
      intro k outside
      simp only [mem_cons, not_or] at outside
      simp [cells, outside]
    have released := retiled.push (k := .unused) (by simp) trivial (by simp)
      (fun _ => by simp [cells]) (by simp)
    have mergedCell : cells i = merged := by simp [cells, differ]
    obtain ⟨start', order', c, w, merges, reaches, caches, cell', aligned', bound', absent⟩ :=
      ih released.valid mergedCell (aligned_merge aligned) (by rw [released.config]; omega)
    refine ⟨start', order', c, w, ?_, released.trans reaches, fun cpuId order => ?_, cell',
      aligned', ?_, fun canonical less => ?_⟩
    · rw [mergeUp, bind_ok removed]
      exact (bind_ok rfl).trans merges
    · rw [caches cpuId order]
      simp
    · rwa [released.config] at bound'
    · rw [released.config] at absent
      exact absent (released.steady.canonical canonical) (by omega)

/-- Freeing the block in hand puts it, merged with its free buddies, on a
global list. -/
theorem freeGlobalBlock_reaches (valid : Valid space a v (i :: held))
    (occupies : Occupies a.config (a.block i) (v.cells i)) :
    ∃ b w, freeGlobalBlock i a = some (.ok (), b) ∧
      Reaches space a v b w held ∧ SameCaches v w := by
  have room : (a.block i).order + (a.maxOrder - (a.block i).order) ≤ a.config.maxOrder :=
    (Nat.add_sub_cancel' occupies.order_le).le
  obtain ⟨start, order, b, w, merges, reaches, caches, cell, aligned, bound, absent⟩ :=
    mergeUp_reaches valid occupies.cell_eq (by simpa using occupies.aligned) room
  let merged : BlockNode := { start := start, order := order, refcount := 0, next := none }
  have recorded := reaches.setNode mem_cons_self merged
  have blockEq : (b.setNode i merged).block i = merged.toBlock := block_setNode_self _ _ _
  have whole : Occupies (b.setNode i merged).config ((b.setNode i merged).block i) (w.cells i) := by
    rw [blockEq, recorded.config]
    exact ⟨cell, bound, by simpa [merged] using aligned⟩
  obtain ⟨pre, post, split, inserted, steady⟩ := recorded.valid.globalInsertSorted_eq whole order
  have alone (canonical : Canonical a.config.maxOrder (starts a v))
      (below : order < (b.setNode i merged).config.maxOrder) :
      ((b.setNode i merged).block i).start ^^^ blockSize order ∉
        starts (b.setNode i merged) w order := by
    rw [blockEq, starts_setNode fun order => reaches.valid.inHand i mem_cons_self _]
    refine absent canonical ?_
    rw [recorded.config] at below
    exact below.trans_eq (Nat.add_sub_cancel' occupies.order_le).symm
  have linked := recorded.link split (by simp) (by rw [blockEq]; exact ⟨rfl, rfl⟩)
    (fun _ => whole) (by simp)
    ⟨(config_link _ _ _ _ _).trans recorded.config, fun canonical =>
      (recorded.steady.trans (steady fun _ => alone canonical)).canonical canonical⟩
  refine ⟨_, _, ?_, linked, fun cpuId order => ?_⟩
  · exact (bind_ok merges).trans inserted
  · rw [← caches cpuId order]
    simp

end Routines

end AetherKernel.Mm.Buddy
