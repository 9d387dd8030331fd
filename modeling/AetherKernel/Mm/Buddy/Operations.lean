import AetherKernel.Mm.Buddy.Blocks

/-!
# The operations of the allocator

Each operation, run on a valid layout with an empty hand, returns and leaves a
valid layout with an empty hand.  The statements also say what happens to the
live blocks: an allocation adds one with reference count one, retaining and
freeing change one reference count, and a failed operation changes no live
block at all.
-/

namespace AetherKernel.Mm.Buddy

open Lib BuddyAllocator Exec List Reaches

variable {cap : Capacity} {space : Finset Nat} {a b : BuddyAllocator cap} {v : View}
  {held : List Nat} {i cpuId order : Nat}

/-! ## Per-CPU caches -/

theorem cpuPush_reaches (valid : Valid space a v (i :: held))
    (occupies : Occupies a.config (a.block i) (v.cells i)) (orderEq : (a.block i).order = order)
    (online : cpuId < a.cpuCount) (small : order ≤ perCpuCacheMaxOrder) :
    ∃ b w, cpuPush cpuId order i a = some (.ok (), b) ∧ Reaches space a v b w held := by
  let value : BlockNode := { a.node i with order := order, refcount := 0 }
  have written := (refl valid).setNode mem_cons_self value
  have blockEq : (a.setNode i value).block i = ⟨(a.block i).start, order, 0⟩ :=
    block_setNode_self _ _ _
  have whole : Occupies (a.setNode i value).config ((a.setNode i value).block i) (v.cells i) := by
    rw [blockEq]
    subst orderEq
    exact ⟨occupies.cell_eq, occupies.order_le, occupies.aligned⟩
  have pushed := written.push (k := .cpu cpuId order) (by simp)
    (by rw [blockEq]; exact ⟨online, small, rfl, rfl⟩) (fun _ => whole) (by simp) (by simp)
  exact ⟨_, _, rfl, pushed⟩

theorem checkedCpu_online (online : cpuId < a.cpuCount) :
    checkedCpu cpuId a = some (.ok cpuId, a) := by
  simp [checkedCpu, online]

theorem checkedCpu_offline (offline : ¬cpuId < a.cpuCount) :
    checkedCpu cpuId a = some (.error .invalidCpu, a) := by
  simp [checkedCpu, offline]

/-- What `alloc_block` leaves: a free block of the order in hand, or an
error. -/
def Provides (space : Finset Nat) (a : BuddyAllocator cap) (v : View) (order : Nat)
    (outcome : Except FrameAllocError Nat) (b : BuddyAllocator cap) : Prop :=
  (∃ error w, outcome = .error error ∧ Reaches space a v b w []) ∨
    ∃ i w, outcome = .ok i ∧ Reaches space a v b w [i] ∧ (b.block i).order = order ∧
      (b.block i).refcount = 0 ∧ Occupies b.config (b.block i) (w.cells i)

theorem Provides.trans {c : BuddyAllocator cap} {w : View}
    {outcome : Except FrameAllocError Nat} (reaches : Reaches space a v b w [])
    (provides : Provides space b w order outcome c) : Provides space a v order outcome c := by
  rcases provides with ⟨error, x, rfl, rest⟩ | ⟨i, x, rfl, rest, block⟩
  · exact .inl ⟨error, x, rfl, reaches.trans rest⟩
  · exact .inr ⟨i, x, rfl, reaches.trans rest, block⟩

theorem orderForCount_eq_ok {count maxOrder : Nat}
    (chosen : orderForCount count maxOrder = .ok order) :
    count ≠ 0 ∧ order = ceilLog2 count ∧ order ≤ maxOrder := by
  unfold orderForCount at chosen
  split at chosen
  · cases chosen
  rename_i positive
  split at chosen
  · cases chosen
  · rename_i within
    cases chosen
    exact ⟨positive, rfl, Nat.not_lt.mp within⟩

theorem markAllocated_eq (valid : Valid space a v [i])
    (occupies : Occupies a.config (a.block i) (v.cells i)) (orderEq : (a.block i).order = order)
    (idle : (a.block i).refcount = 0) :
    ∃ b w, markAllocated i order a = some (.ok (a.block i).start, b) ∧
      Valid space b w [] ∧ Steady a v b w ∧
      live b w = ⟨(a.block i).start, order, 1⟩ :: live a v := by
  let value : BlockNode := { a.node i with order := order, refcount := 1 }
  have written := valid.setNode mem_cons_self value
  have blockEq : (a.setNode i value).block i = ⟨(a.block i).start, order, 1⟩ :=
    block_setNode_self _ _ _
  have pushed := written.push (k := .allocated)
    (by rw [blockEq]; exact ⟨Nat.one_pos, show 1 ≤ refcountMax by decide⟩)
    (fun _ => by
      rw [blockEq]
      subst orderEq
      exact ⟨occupies.cell_eq, occupies.order_le, occupies.aligned⟩)
    (by simp)
  refine ⟨_, _, ?_, pushed, Steady.trans (.setNode fun order => ?_) (.link _ _ _ _ (by simp)), ?_⟩
  · have count : (a.node i).refcount = 0 := idle
    rw [markAllocated, get_bind_apply]
    simp only [count]
    rfl
  · exact valid.inHand i mem_cons_self _
  simp only [live, View.setList_lists, Function.update_self, map_cons,
    block_link, blockEq, List.cons.injEq, true_and]
  apply map_congr_left
  intro j listed
  rw [block_link]
  apply a.block_setNode_of_ne
  rintro rfl
  exact valid.inHand j mem_cons_self _ listed

variable (valid : Valid space a v [])
include valid

/-- Refilling moves free blocks into the cache of one CPU, whether or not it
runs out of memory or metadata on the way. -/
theorem refillLoop_returns (wanted : Nat)
    (online : cpuId < a.cpuCount) (small : order ≤ perCpuCacheMaxOrder) :
    (refillLoop cpuId order wanted).Returns a fun _ b =>
      ∃ w, Reaches space a v b w [] := by
  induction wanted generalizing a v with
  | zero => exact Returns.pure ⟨v, refl valid⟩
  | succ wanted ih =>
    apply Returns.attempt (allocFromGlobal_returns valid order)
    rintro outcome b (⟨rfl | rfl, rfl⟩ | ⟨i, w, rfl, reaches, _, orderEq, _, occupies⟩)
    · exact Returns.pure ⟨v, refl valid⟩
    · exact Returns.throw ⟨v, refl valid⟩
    obtain ⟨c, x, pushed, reaches'⟩ :=
      cpuPush_reaches reaches.valid occupies orderEq (reaches.cpuCount_eq ▸ online) small
    have total := reaches.trans reaches'
    apply Returns.step pushed
    apply (ih total.valid (total.cpuCount_eq ▸ online)).mono
    rintro _ d ⟨y, rest⟩
    exact ⟨y, total.trans rest⟩

theorem refillPerCpuCache_returns
    (online : cpuId < a.cpuCount) (small : order ≤ perCpuCacheMaxOrder) :
    (refillPerCpuCache cpuId order).Returns a fun _ b =>
      ∃ w, Reaches space a v b w [] := by
  apply Returns.bind (refillLoop_returns valid (refillBatch order) online small)
  · intro error b reaches
    exact reaches
  · intro _ b reaches
    apply Returns.get
    split
    · exact Returns.throw reaches
    · exact Returns.pure reaches

/-- Draining returns cached blocks to the global lists. -/
theorem drainLoop_reaches (excess : Nat) (enough : excess ≤ (v.lists (.cpu cpuId order)).length) :
    ∃ b w, drainLoop cpuId order excess a = some (.ok (), b) ∧ Reaches space a v b w [] := by
  induction excess generalizing a v with
  | zero => exact ⟨a, v, rfl, refl valid⟩
  | succ excess ih =>
    cases cached : v.lists (.cpu cpuId order) with
    | nil => simp [cached] at enough
    | cons i rest =>
      have member : i ∈ v.lists (.cpu cpuId order) := by simp [cached]
      have popped := (refl valid).pop cached (by simp)
      have whole : Occupies (a.unlink (.cpu cpuId order) none i).config
          ((a.unlink (.cpu cpuId order) none i).block i) (v.cells i) := by
        simpa using valid.occupies member (by simp)
      obtain ⟨b, w, freed, reaches, caches⟩ := freeGlobalBlock_reaches popped.valid whole
      have left : excess ≤ (w.lists (.cpu cpuId order)).length := by
        rw [caches cpuId order]
        simpa [cached] using enough
      obtain ⟨c, x, drained, reaches'⟩ := ih reaches.valid left
      refine ⟨c, x, ?_, (popped.trans reaches).trans reaches'⟩
      rw [drainLoop, cpuPop, bind_ok (valid.popFront_cons cached)]
      exact (bind_ok freed).trans drained

theorem drainPerCpuCache_reaches :
    ∃ b w, drainPerCpuCache cpuId order a = some (.ok (), b) ∧ Reaches space a v b w [] := by
  have length : (a.perCpu cpuId).lens order = (v.lists (.cpu cpuId order)).length :=
    valid.len_eq (.cpu cpuId order)
  rw [drainPerCpuCache, get_bind_apply]
  split
  · exact ⟨a, v, rfl, refl valid⟩
  · exact drainLoop_reaches valid _ (by omega)

/-! ## Allocation -/

theorem allocFromGlobal_provides (order : Nat) :
    (allocFromGlobal order).Returns a (Provides space a v order) := by
  apply (allocFromGlobal_returns valid order).mono
  rintro outcome b (⟨rfl | rfl, rfl⟩ | ⟨i, w, rfl, reaches, _, orderEq, idle, occupies⟩)
  · exact .inl ⟨_, v, rfl, refl valid⟩
  · exact .inl ⟨_, v, rfl, refl valid⟩
  · exact .inr ⟨i, w, rfl, reaches, orderEq, idle, occupies⟩

/-- Popping a cache provides its first block; from an empty cache the search
goes on. -/
theorem cpuPop_provides {next : Option Nat → Routine cap Nat} (found : ∀ i, next (some i) = pure i)
    (missing : (next none).Returns a (Provides space a v order)) :
    (cpuPop cpuId order >>= next).Returns a (Provides space a v order) := by
  cases cached : v.lists (.cpu cpuId order) with
  | nil => exact Returns.step (valid.popFront_nil cached) missing
  | cons i rest =>
    have member : i ∈ v.lists (.cpu cpuId order) := by simp [cached]
    obtain ⟨_, _, orderEq, idle⟩ := valid.admits member
    apply Returns.step (valid.popFront_cons cached)
    rw [found]
    apply Returns.pure
    refine .inr ⟨i, _, rfl, (refl valid).pop cached (by simp), ?_, ?_, ?_⟩
    · simpa using orderEq
    · simpa using idle
    · simpa using valid.occupies member (by simp)

theorem allocBlock_provides (cpuId order : Nat) :
    (allocBlock cpuId order).Returns a (Provides space a v order) := by
  by_cases online : cpuId < a.cpuCount
  · apply Returns.step (checkedCpu_online online)
    split
    · rename_i small
      apply cpuPop_provides valid (fun _ => rfl)
      apply Returns.bind (refillPerCpuCache_returns valid online small)
      · rintro error b ⟨w, reaches⟩
        exact .inl ⟨error, w, rfl, reaches⟩
      · rintro _ b ⟨w, reaches⟩
        apply (cpuPop_provides reaches.valid (fun _ => rfl)
          (allocFromGlobal_provides reaches.valid order)).mono
        intro outcome c provides
        exact provides.trans reaches
    · exact allocFromGlobal_provides valid order
  · exact ⟨_, _, bind_error (checkedCpu_offline online), .inl ⟨_, v, rfl, refl valid⟩⟩

/-- An allocation adds one live block with reference count one; a refused one
changes no live block. -/
theorem allocFrame4kOnCpu_returns (cpuId count : Nat) :
    (allocFrame4kOnCpu cpuId count).Returns a fun outcome b =>
      (∃ error w, outcome = .error error ∧ Reaches space a v b w []) ∨
      ∃ start w, outcome = .ok (start <<< pageShift % Word.size) ∧ Valid space b w [] ∧
        Steady a v b w ∧ live b w = ⟨start, ceilLog2 count, 1⟩ :: live a v := by
  apply Returns.get
  cases chosen : orderForCount count a.maxOrder with
  | error error => exact Returns.throw (.inl ⟨error, v, rfl, refl valid⟩)
  | ok order =>
    obtain ⟨_, rfl, _⟩ := orderForCount_eq_ok chosen
    apply Returns.bind (allocBlock_provides valid cpuId _)
    · rintro error b (⟨_, w, same, reaches⟩ | ⟨i, w, impossible, _⟩)
      · exact .inl ⟨error, w, rfl, reaches⟩
      · cases impossible
    rintro i b (⟨_, w, impossible, _⟩ | ⟨j, w, same, reaches, orderEq, idle, occupies⟩)
    · cases impossible
    cases same
    obtain ⟨c, x, marked, valid', steady, blocks⟩ :=
      markAllocated_eq reaches.valid occupies orderEq idle
    apply Returns.step marked
    apply Returns.pure
    refine .inr ⟨_, x, rfl, valid', reaches.steady.trans steady, ?_⟩
    rw [blocks, reaches.live]

omit valid

/-! ## Reference counts -/

section Counts

variable (block : Block)

/-- The address of a block. -/
def Block.address : Nat :=
  block.start <<< pageShift

/-- What is left of a live block when a reference is dropped: nothing after
the last one. -/
def Block.dropRef : List Block :=
  if block.refcount = 1 then [] else [{ block with refcount := block.refcount - 1 }]

theorem frameNumberFromAddr_eq_ok_iff {address frame : Nat} :
    frameNumberFromAddr address = .ok frame ↔ address = frame <<< pageShift := by
  have mask : address &&& (pageSize - 1) = address % 2 ^ 12 :=
    Nat.and_two_pow_sub_one_eq_mod address 12
  rw [frameNumberFromAddr]
  simp only [pageShift]
  split
  · simp only [reduceCtorEq, false_iff]
    omega
  · simp only [Except.ok.injEq]
    omega

theorem frameNumberFromAddr_address : frameNumberFromAddr block.address = .ok block.start :=
  frameNumberFromAddr_eq_ok_iff.mpr rfl

/-- What a call on the live block at an address does: it replaces a block that it
accepts, and where there is none it fails without a trace. -/
inductive Edits {α : Type} (space : Finset Nat) (a : BuddyAllocator cap) (v : View)
    (address : Nat) (accepts : Block → Prop) (result : Block → α) (change : Block → List Block) :
    Except FrameAllocError α → BuddyAllocator cap → Prop
  | refused {error : FrameAllocError}
      (why : ∀ block ∈ live a v, block.address = address → ¬accepts block) :
      Edits space a v address accepts result change (.error error) a
  | edited {before after : List Block} {block : Block} {b : BuddyAllocator cap} {w : View}
      (split : live a v = before ++ block :: after) (there : block.address = address)
      (accepted : accepts block) (valid : Valid space b w []) (steady : Steady a v b w)
      (blocks : live b w = before ++ change block ++ after) :
      Edits space a v address accepts result change (.ok (result block)) b

theorem live_split {pre post : List Nat} (split : v.lists .allocated = pre ++ i :: post) :
    live a v = pre.map a.block ++ a.block i :: post.map a.block := by
  rw [live, split, map_append, map_cons]

variable {α : Type} {address : Nat} {accepts : Block → Prop} {result : Block → α}
  {change : Block → List Block}

theorem refused_of_returns {routine : Routine cap α}
    (returns : routine.Returns a (Edits space a v address accepts result change))
    (none : ∀ block ∈ live a v, block.address = address → ¬accepts block) :
    ∃ error, routine a = some (.error error, a) := by
  obtain ⟨outcome, b, run, why | ⟨split, there, accepted⟩⟩ := returns
  · exact ⟨_, run⟩
  · exact absurd accepted (none _ (split ▸ mem_append_cons_self) there)

variable (valid : Valid space a v held)
include valid

/-- The search for an allocation by its start finds the live block there, if
there is one. -/
theorem findAllocationIndex_eq (start : Nat) :
    (∃ pre i post, v.lists .allocated = pre ++ i :: post ∧ (a.block i).start = start ∧
      findAllocationIndex start a = some (.ok (some i), a)) ∨
    (∀ block ∈ live a v, block.start ≠ start) ∧
      findAllocationIndex start a = some (.ok none, a) := by
  obtain ⟨pre, post, split, passed, stopped, walk⟩ := valid.scan_eq .allocated
    fun _ current => decide (current.start = start)
  rw [findAllocationIndex, bind_ok walk]
  cases post with
  | nil =>
    right
    refine ⟨?_, rfl⟩
    rintro block member
    obtain ⟨i, listed, rfl⟩ := mem_map.mp member
    rw [split, append_nil] at listed
    exact of_decide_eq_false (passed i listed)
  | cons i rest => exact .inl ⟨pre, i, rest, split, of_decide_eq_true (stopped i rfl), rfl⟩

/-- The two lookups every operation on an address starts with: where one of them
fails no live block starts at the address. -/
theorem lookup_returns {next : Option Nat → Routine cap α}
    (missing : ∃ error, next none = throw error)
    (found : ∀ pre i post, v.lists .allocated = pre ++ i :: post → (a.block i).address = address →
      (next (some i)).Returns a (Edits space a v address accepts result change)) :
    (ofExcept (frameNumberFromAddr address) >>= fun frame =>
      findAllocationIndex frame >>= next).Returns a
      (Edits space a v address accepts result change) := by
  cases number : frameNumberFromAddr address with
  | error error =>
    refine Returns.throw (.refused ?_)
    rintro block _ rfl
    rw [frameNumberFromAddr_address] at number
    cases number
  | ok frame =>
    rcases findAllocationIndex_eq valid frame with
      ⟨pre, i, post, split, startEq, listed⟩ | ⟨absent, failed⟩
    · apply Returns.step listed
      apply found pre i post split
      rw [frameNumberFromAddr_eq_ok_iff.mp number, Block.address, startEq]
    · obtain ⟨error, fails⟩ := missing
      apply Returns.step failed
      rw [fails]
      refine Returns.throw (.refused ?_)
      rintro block member rfl
      rw [frameNumberFromAddr_address] at number
      exact absurd (Except.ok.inj number) (absent block member)

/-- Changing the reference count of one live block. -/
theorem live_setRefcount {pre post : List Nat} {count : Nat}
    (split : v.lists .allocated = pre ++ i :: post) :
    live (a.setNode i { a.node i with refcount := count }) v =
      pre.map a.block ++ { a.block i with refcount := count } :: post.map a.block := by
  have nodup := valid.represents.nodup .allocated
  rw [split] at nodup
  have alone : i ∉ pre ++ post := (nodup_cons.mp (nodup_middle.mp nodup)).1
  have others : ∀ j ∈ pre ++ post,
      (a.setNode i { a.node i with refcount := count }).block j = a.block j := by
    intro j member
    apply a.block_setNode_of_ne
    rintro rfl
    exact alone member
  rw [live, split, map_append, map_cons, block_setNode_self]
  congr 1
  · exact map_congr_left fun j member => others j (mem_append_left _ member)
  · congr 1
    exact map_congr_left fun j member => others j (mem_append_right _ member)

/-- The global lists do not depend on live blocks. -/
theorem Valid.steady_setNode {value : BlockNode} (listed : i ∈ v.lists .allocated) :
    Steady a v (a.setNode i value) v :=
  .setNode fun _ member => nomatch valid.represents.exclusive member listed

/-- Removing a live block takes its node off the allocation list. -/
theorem removeAllocationNode_eq (heap : b.heap = a.heap) (listed : i ∈ v.lists .allocated) :
    ∃ pre post, v.lists .allocated = pre ++ i :: post ∧
      removeAllocationNode i b = some (.ok (), b.unlink .allocated pre.getLast? i) := by
  obtain ⟨pre, post, split, passed, stopped, walk⟩ :=
    valid.scan_of_agree heap .allocated fun j _ => decide (j = i)
  have behind : i ∈ post := by
    rw [split, mem_append] at listed
    rcases listed with before | behind
    · exact absurd rfl (of_decide_eq_false (passed i before))
    · exact behind
  cases post with
  | nil => cases behind
  | cons j rest =>
    have same : j = i := of_decide_eq_true (stopped j rfl)
    subst same
    refine ⟨pre, rest, split, ?_⟩
    rw [removeAllocationNode, bind_ok walk]
    rfl

/-- Live blocks are known by their address. -/
theorem live_unique {x y : Block} (first : x ∈ live a v)
    (second : y ∈ live a v) (same : x.address = y.address) : x = y := by
  obtain ⟨i, listedI, rfl⟩ := mem_map.mp first
  obtain ⟨j, listedJ, rfl⟩ := mem_map.mp second
  have starts : (a.block i).start = (a.block j).start := by
    have number := frameNumberFromAddr_address (a.block i)
    rw [same, frameNumberFromAddr_address] at number
    exact (Except.ok.inj number).symm
  rw [valid.eq_of_start_eq (valid.occupies listedI (by simp)) (valid.occupies listedJ (by simp))
    starts]

omit valid

/-- A frame as `release` names it: its address must be page aligned. -/
theorem checkedAddrFromFrame_cases (frame : PhysFrame) :
    (∃ error, checkedAddrFromFrame frame = .error error) ∧ ¬pageSize ∣ frame.startAddress ∨
      checkedAddrFromFrame frame = .ok frame.startAddress ∧
        frame.startAddress = frame.index <<< pageShift := by
  rw [checkedAddrFromFrame]
  by_cases aligned : isAligned frame.startAddress pageSize = true
  · right
    rw [if_pos aligned]
    refine ⟨rfl, ?_⟩
    obtain ⟨q, multiple⟩ := isAligned_pageSize_iff.mp aligned
    have start : frame.start = 4096 * q := multiple
    simp only [PhysFrame.startAddress, PhysFrame.index, pageShift]
    omega
  · left
    rw [if_neg aligned]
    exact ⟨⟨_, rfl⟩, fun multiple => aligned (isAligned_pageSize_iff.mpr multiple)⟩

end Counts

include valid

/-- Retaining adds one to the count of the live block at the address. -/
theorem retainFrame_returns (address : Nat) :
    (retainFrame address).Returns a (Edits space a v address (·.refcount ≠ refcountMax)
      (·.refcount + 1) fun block => [{ block with refcount := block.refcount + 1 }]) := by
  apply lookup_returns valid ⟨_, rfl⟩
  intro pre i post split addressEq
  have listed : i ∈ v.lists .allocated := by simp [split]
  have bound : (a.block i).refcount ≤ refcountMax := (valid.admits listed).2
  apply Returns.get
  split
  · rename_i saturated
    refine Returns.throw (.refused fun block member there => ?_)
    rw [live_unique valid member (mem_map_of_mem listed) (there.trans addressEq.symm)]
    exact not_not_intro saturated
  rename_i room
  have below : (a.block i).refcount + 1 ≤ refcountMax := Nat.lt_of_le_of_ne bound room
  refine Returns.pure (.edited (live_split split) addressEq room
    (valid.setRefcount listed (Nat.succ_pos _) below) (valid.steady_setNode listed) ?_)
  rw [live_setRefcount valid split, append_assoc]
  rfl

/-- A block whose last reference is gone leaves the allocation list and joins
the free blocks. -/
theorem freeLast_eq (listed : i ∈ v.lists .allocated) (online : cpuId < a.cpuCount)
    (value : BlockNode) (next : value.next = (a.node i).next)
    (start : value.start = (a.block i).start) (order : value.order = (a.block i).order) :
    ∃ pre post b w, v.lists .allocated = pre ++ i :: post ∧
      freeLast cpuId value.order i (a.setNode i value) = some (.ok (), b) ∧
      Valid space b w [] ∧ Steady a v b w ∧ live b w = (pre ++ post).map a.block := by
  have heap := a.heap_setNode_of_next_eq i value next
  obtain ⟨pre, post, split, removed⟩ := removeAllocationNode_eq valid heap listed
  let b := (a.setNode i value).unlink .allocated pre.getLast? i
  let w := v.setList .allocated (pre ++ post)
  have taken : Valid space b w [i] :=
    valid.unlink_of_agree split heap rfl fun j differ => a.block_setNode_of_ne i value differ
  have blockEq : b.block i = value.toBlock := by
    rw [block_unlink, block_setNode_self]
  have steady : Steady a v b w := (valid.steady_setNode listed).trans (.unlink split)
  have configEq : b.config = a.config := steady.config
  have occupies : Occupies b.config (b.block i) (w.cells i) := by
    obtain ⟨cell, bound, aligned⟩ := valid.occupies listed (by simp)
    rw [blockEq, configEq]
    exact ⟨by rw [start, order]; exact cell, by rw [order]; exact bound,
      by rw [start, order]; exact aligned⟩
  have others : live b w = (pre ++ post).map a.block := by
    apply map_congr_left
    intro j member
    rw [block_unlink]
    apply a.block_setNode_of_ne
    rintro rfl
    exact taken.inHand j mem_cons_self .allocated (by simpa [w] using member)
  have online' : cpuId < b.cpuCount := by
    rw [show b.cpuCount = a.cpuCount from congrArg Config.cpuCount configEq]
    exact online
  have orderEq : (b.block i).order = value.order := by rw [blockEq]
  by_cases small : value.order ≤ perCpuCacheMaxOrder
  · obtain ⟨c, x, pushed, reaches⟩ := cpuPush_reaches taken occupies orderEq online' small
    obtain ⟨d, y, drained, reaches'⟩ := drainPerCpuCache_reaches reaches.valid
    refine ⟨pre, post, d, y, split, ?_, reaches'.valid,
      steady.trans (reaches.trans reaches').steady, (reaches.trans reaches').live.trans others⟩
    rw [freeLast, bind_ok removed, if_pos small]
    exact (bind_ok pushed).trans drained
  · obtain ⟨c, x, freed, reaches, _⟩ := freeGlobalBlock_reaches taken occupies
    refine ⟨pre, post, c, x, split, ?_, reaches.valid, steady.trans reaches.steady,
      reaches.live.trans others⟩
    rw [freeLast, bind_ok removed, if_neg small]
    exact freed

/-- Freeing drops one reference of the live block at the address. -/
theorem freeFrameOnCpu_returns (cpuId address : Nat) :
    (freeFrameOnCpu cpuId address).Returns a
      (Edits space a v address (fun _ => cpuId < a.cpuCount) (fun _ => ()) Block.dropRef) := by
  by_cases online : cpuId < a.cpuCount
  · apply Returns.step (checkedCpu_online online)
    apply lookup_returns valid ⟨_, rfl⟩
    intro pre i post split addressEq
    have listed : i ∈ v.lists .allocated := by simp [split]
    obtain ⟨positive, bound⟩ := valid.admits listed
    apply Returns.get
    rw [if_neg (show (a.node i).refcount ≠ 0 from positive.ne')]
    split
    · -- References remain: the block stays on the allocation list.
      rename_i more
      have shared : (a.block i).refcount ≠ 1 := by
        intro one
        exact more (by rw [show (a.node i).refcount = 1 from one])
      refine Returns.pure (.edited (live_split split) addressEq online (valid.setRefcount
        listed (Nat.pos_of_ne_zero more) ((Nat.sub_le _ _).trans bound))
        (valid.steady_setNode listed) ?_)
      rw [live_setRefcount valid split, Block.dropRef, if_neg shared]
      simp [block]
    · rename_i last
      have single : (a.block i).refcount = 1 := by
        have : 0 < (a.node i).refcount := positive
        change (a.node i).refcount = 1
        omega
      obtain ⟨pre, post, b, w, split, run, valid', config, blocks⟩ :=
        freeLast_eq valid listed online
          { a.node i with refcount := (a.node i).refcount - 1 } rfl rfl rfl
      refine ⟨_, b, run, .edited (live_split split) addressEq online valid' config ?_⟩
      rw [blocks, Block.dropRef, if_pos single]
      simp
  · exact ⟨_, _, bind_error (checkedCpu_offline online), .refused fun _ _ _ => online⟩

/-- A free that is followed by a result. -/
theorem freeFrameOnCpu_bind_returns (cpuId address value : Nat) :
    (freeFrameOnCpu cpuId address >>= fun _ => Pure.pure value).Returns a
      (Edits space a v address (fun _ => cpuId < a.cpuCount) (fun _ => value) Block.dropRef) := by
  apply Returns.bind (freeFrameOnCpu_returns valid cpuId address)
  · rintro error b ⟨why⟩
    exact .refused why
  · rintro _ b ⟨_⟩
    exact Returns.pure (.edited ‹_› ‹_› ‹_› ‹_› ‹_› ‹_›)

theorem ensureReleaseMatchesCount_eq {frame : PhysFrame}
    (aligned : frame.startAddress = frame.index <<< pageShift) (count : Nat) :
    (∃ error, ensureReleaseMatchesCount frame count a = some (.error error, a)) ∧
        (∀ block ∈ live a v, block.address = frame.startAddress →
          orderForCount count a.maxOrder ≠ .ok block.order) ∨
      ∃ block ∈ live a v, block.address = frame.startAddress ∧
        orderForCount count a.maxOrder = .ok block.order ∧
        ensureReleaseMatchesCount frame count a = some (.ok block.refcount, a) := by
  rw [ensureReleaseMatchesCount, get_bind_apply]
  cases chosen : orderForCount count a.maxOrder with
  | error error => exact .inl ⟨⟨error, rfl⟩, by simp⟩
  | ok order =>
    rw [Exec.ofExcept_ok, pure_bind]
    rcases findAllocationIndex_eq valid frame.index with
      ⟨pre, i, post, split, startEq, found⟩ | ⟨absent, missing⟩
    · have member : a.block i ∈ live a v := mem_map_of_mem (by simp [split])
      have addressEq : (a.block i).address = frame.startAddress := by
        rw [aligned, Block.address, startEq]
      rw [bind_ok found]
      by_cases matching : (a.block i).order = order
      · refine .inr ⟨a.block i, member, addressEq, by rw [matching], ?_⟩
        have same : (a.node i).order = order := matching
        simp [same, block]
      left
      constructor
      · have other : (a.node i).order ≠ order := matching
        exact ⟨.invalidCount, by simp [other]⟩
      · intro block listed there equal
        rw [live_unique valid listed member (there.trans addressEq.symm)] at equal
        exact matching (Except.ok.inj equal).symm
    · left
      rw [bind_ok missing]
      refine ⟨⟨_, rfl⟩, ?_⟩
      intro block listed there
      rw [aligned] at there
      have number := frameNumberFromAddr_address block
      rw [there, frameNumberFromAddr_eq_ok_iff.mpr rfl] at number
      exact absurd (Except.ok.inj number).symm (absent block listed)

/-- Releasing drops one reference of the live block at the frame when the count
asks for its order. -/
theorem release_returns (cpuId : Nat) (frame : PhysFrame) (count : Nat) :
    (release cpuId frame count).Returns a (Edits space a v frame.startAddress
      (fun block => cpuId < a.cpuCount ∧ orderForCount count a.maxOrder = .ok block.order)
      (·.refcount - 1) Block.dropRef) := by
  rw [release]
  rcases checkedAddrFromFrame_cases frame with ⟨⟨error, failed⟩, misaligned⟩ | ⟨checked, aligned⟩
  · rw [failed]
    refine Returns.throw (.refused fun block _ there => absurd ?_ misaligned)
    rw [← there, Block.address, Nat.shiftLeft_eq]
    exact Nat.dvd_mul_left _ _
  rw [checked, Exec.ofExcept_ok, pure_bind]
  rcases ensureReleaseMatchesCount_eq valid aligned count with
    ⟨⟨error, refused⟩, mismatch⟩ | ⟨block, member, addressEq, chosen, accepted⟩
  · exact ⟨_, _, bind_error refused, .refused fun block member there both =>
      mismatch block member there both.2⟩
  apply Returns.step accepted
  apply (freeFrameOnCpu_bind_returns valid cpuId frame.startAddress _).mono
  rintro outcome b (⟨why⟩ | ⟨split, there, online, valid', steady, blocks⟩)
  · exact .refused fun block member there both => why block member there both.1
  · cases live_unique valid (split ▸ mem_append_cons_self) member (there.trans addressEq.symm)
    exact .edited split there ⟨online, chosen⟩ valid' steady blocks

end AetherKernel.Mm.Buddy
