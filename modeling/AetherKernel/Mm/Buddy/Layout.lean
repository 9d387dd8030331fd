import AetherKernel.Lib.Tiling
import AetherKernel.Mm.Buddy.Geometry

/-!
# The layout of the allocator's metadata

A `View` reads the pointer structure of an allocator as the node sequences of
its lists and the set of frames each node stands for.  `Valid` ties the two
together: the lists are well linked and share no node, every node is on a list
or in hand, and the frame sets tile the managed space.  Nodes in hand are the
ones a routine has taken off their list and not yet put back; their frame set
is not read off their metadata, so a merge may grow it before it is recorded.

Four edits change a layout, and every routine is composed of them: unlinking a
node, linking one, rewriting the metadata of a node in hand, and exchanging
frames between nodes in hand.
-/

namespace AetherKernel.Mm.Buddy

open Lib BuddyAllocator Function List

/-- The part of the state that no operation changes after bootstrap. -/
structure Config where
  totalFrames : Nat
  maxOrder : Nat
  cpuCount : Nat
  usableRanges : RangeList

namespace BuddyAllocator

variable {cap : Capacity} (a : BuddyAllocator cap)

def config : Config :=
  { totalFrames := a.totalFrames
    maxOrder := a.maxOrder
    cpuCount := a.cpuCount
    usableRanges := a.usableRanges }

/-- The block described by a metadata node. -/
def block (i : Nat) : Block :=
  (a.node i).toBlock

/-- The lists as a heap of linked lists over the node pool. -/
def heap : ListHeap Nat ListId :=
  { next := fun i => (a.node i).next, head := a.head, len := a.len }

/-! ## Field updates -/

section Updates

variable (k : ListId) (i : Nat) (target : Option Nat) (count : Nat) (value : BlockNode)

@[simp]
theorem node_setHead : (a.setHead k target).node = a.node := by
  cases k <;> rfl

@[simp]
theorem node_setLen : (a.setLen k count).node = a.node := by
  cases k <;> rfl

@[simp]
theorem node_setNode : (a.setNode i value).node = update a.node i value :=
  rfl

@[simp]
theorem head_setHead : (a.setHead k target).head = update a.head k target := by
  funext k'
  cases k <;> cases k' <;> simp [head, setHead, setCpu, update_apply]
  split <;> simp_all [update_apply]

@[simp]
theorem len_setHead : (a.setHead k target).len = a.len := by
  funext k'
  cases k <;> cases k' <;> simp [len, setHead, setCpu, update_apply]
  split <;> simp_all

@[simp]
theorem head_setLen : (a.setLen k count).head = a.head := by
  funext k'
  cases k <;> cases k' <;> simp [head, setLen, setCpu, update_apply]
  split <;> simp_all

@[simp]
theorem len_setLen : (a.setLen k count).len = update a.len k count := by
  funext k'
  cases k <;> cases k' <;> simp [len, setLen, setCpu, update_apply]
  split <;> simp_all [update_apply]

@[simp]
theorem head_setNode : (a.setNode i value).head = a.head := by
  funext k'
  cases k' <;> rfl

@[simp]
theorem len_setNode : (a.setNode i value).len = a.len := by
  funext k'
  cases k' <;> rfl

@[simp]
theorem config_setHead : (a.setHead k target).config = a.config := by
  cases k <;> rfl

@[simp]
theorem config_setLen : (a.setLen k count).config = a.config := by
  cases k <;> rfl

@[simp]
theorem config_setNode : (a.setNode i value).config = a.config :=
  rfl

@[simp]
theorem heap_setNext :
    (a.setNext i target).heap = { a.heap with next := update a.heap.next i target } := by
  simp only [heap, setNext, head_setNode, len_setNode, ListHeap.mk.injEq, and_true]
  funext j
  by_cases same : j = i
  · subst same
    simp
  · simp [same]

@[simp]
theorem block_setNext (j : Nat) : (a.setNext i target).block j = a.block j := by
  by_cases same : j = i
  · subst same
    simp [block, setNext]
  · simp [block, setNext, same]

theorem block_setNode_self : (a.setNode i value).block i = value.toBlock := by
  simp [block]

theorem block_setNode_of_ne {j : Nat} (differ : j ≠ i) :
    (a.setNode i value).block j = a.block j := by
  simp [block, differ]

/-- Rewriting the block of a node leaves the lists alone. -/
theorem heap_setNode_of_next_eq (same : value.next = (a.node i).next) :
    (a.setNode i value).heap = a.heap := by
  simp only [heap, head_setNode, len_setNode, ListHeap.mk.injEq, and_true]
  funext j
  by_cases here : j = i
  · subst here
    simp [same]
  · simp [here]

@[simp]
theorem config_setNext : (a.setNext i target).config = a.config :=
  rfl

end Updates

/-! ## List edits -/

section Edits

variable (k : ListId) (previous successor target : Option Nat) (i : Nat)

theorem heap_redirect :
    (a.redirect k previous target).heap = a.heap.redirect k previous target := by
  cases previous with
  | none => simp [redirect, ListHeap.redirect, heap]
  | some last => simp [redirect, ListHeap.redirect]

theorem heap_setLen (count : Nat) :
    (a.setLen k count).heap = { a.heap with len := update a.heap.len k count } := by
  simp [heap]

theorem heap_link : (a.link k previous successor i).heap = a.heap.link k previous successor i := by
  have inner : ((a.setNext i successor).redirect k previous (some i)).heap =
      ListHeap.redirect { a.heap with next := update a.heap.next i successor } k
        previous (some i) := by
    rw [heap_redirect, heap_setNext]
  have length : ((a.setNext i successor).redirect k previous (some i)).len =
      (((a.setNext i successor).redirect k previous (some i)).heap).len := rfl
  rw [link, heap_setLen, length, inner]
  rfl

theorem heap_unlink : (a.unlink k previous i).heap = a.heap.unlink k previous i := by
  have inner : ((a.redirect k previous (a.node i).next).setNext i none).heap =
      { a.heap.redirect k previous (a.heap.next i) with
        next := update (a.heap.redirect k previous (a.heap.next i)).next i none } := by
    rw [heap_setNext, heap_redirect]
    rfl
  have length : ((a.redirect k previous (a.node i).next).setNext i none).len =
      (((a.redirect k previous (a.node i).next).setNext i none).heap).len := rfl
  rw [unlink, heap_setLen, length, inner]
  rfl

@[simp]
theorem block_redirect (j : Nat) : (a.redirect k previous target).block j = a.block j := by
  cases previous with
  | none => simp [redirect, block]
  | some last => simp [redirect]

@[simp]
theorem block_setLen (count j : Nat) : (a.setLen k count).block j = a.block j := by
  simp [block]

@[simp]
theorem block_link (j : Nat) : (a.link k previous successor i).block j = a.block j := by
  simp [link]

@[simp]
theorem block_unlink (j : Nat) : (a.unlink k previous i).block j = a.block j := by
  simp [unlink]

@[simp]
theorem config_redirect : (a.redirect k previous target).config = a.config := by
  cases previous with
  | none => simp [redirect]
  | some last => rfl

@[simp]
theorem config_link : (a.link k previous successor i).config = a.config := by
  simp [link]

@[simp]
theorem config_unlink : (a.unlink k previous i).config = a.config := by
  simp [unlink]

end Edits

end BuddyAllocator

/-! ## Valid layouts -/

/-- The ghost reading of the metadata: the nodes of each list and the frames
of each node. -/
structure View where
  lists : ListId → List Nat
  cells : Nat → Finset Nat

namespace View

variable (v : View)

/-- Replace the nodes of one list. -/
def setList (k : ListId) (nodes : List Nat) : View :=
  { v with lists := update v.lists k nodes }

/-- Replace the frames of the nodes. -/
def setCells (cells : Nat → Finset Nat) : View :=
  { v with cells := cells }

@[simp]
theorem setList_lists (k : ListId) (nodes : List Nat) :
    (v.setList k nodes).lists = update v.lists k nodes :=
  rfl

@[simp]
theorem setList_cells (k : ListId) (nodes : List Nat) : (v.setList k nodes).cells = v.cells :=
  rfl

@[simp]
theorem setCells_lists (cells : Nat → Finset Nat) : (v.setCells cells).lists = v.lists :=
  rfl

@[simp]
theorem setCells_cells (cells : Nat → Finset Nat) : (v.setCells cells).cells = cells :=
  rfl

end View

/-- What a list demands of the blocks on it. -/
def Admits (config : Config) : ListId → Block → Prop
  | .allocated, block => 0 < block.refcount ∧ block.refcount ≤ refcountMax
  | .global order, block => block.order = order ∧ block.refcount = 0
  | .cpu cpuId order, block =>
    cpuId < config.cpuCount ∧ order ≤ perCpuCacheMaxOrder ∧ block.order = order ∧ block.refcount = 0
  | .unused, _ => True

/-- The block is aligned, of a managed order, and stands for exactly the frames
of `cell`. -/
structure Occupies (config : Config) (block : Block) (cell : Finset Nat) : Prop where
  cell_eq : cell = frames block.start block.order
  order_le : block.order ≤ config.maxOrder
  aligned : blockSize block.order ∣ block.start

/-- The lists, the metadata and the frame sets agree.  `held` are the nodes in
hand. -/
structure Valid {cap : Capacity} (space : Finset Nat) (a : BuddyAllocator cap) (v : View)
    (held : List Nat) : Prop where
  represents : a.heap.Represents v.lists
  complete : ∀ i, i < cap.maxBlockNodes ↔ i ∈ held ∨ ∃ k, i ∈ v.lists k
  inHand : ∀ i ∈ held, ∀ k, i ∉ v.lists k
  distinct : held.Nodup
  admits : ∀ {k i}, i ∈ v.lists k → Admits a.config k (a.block i)
  occupies : ∀ {k i}, i ∈ v.lists k → k ≠ .unused → Occupies a.config (a.block i) (v.cells i)
  spare : ∀ {i}, i ∈ v.lists .unused → v.cells i = ∅
  outside : ∀ {i}, cap.maxBlockNodes ≤ i → v.cells i = ∅
  tiling : Tiling space v.cells

namespace Valid

variable {cap : Capacity} {space : Finset Nat} {a : BuddyAllocator cap} {v : View}
  {held pre post : List Nat} (valid : Valid space a v held) {k : ListId} {i : Nat}

include valid

/-- No list is longer than the node pool. -/
theorem length_le (k : ListId) : (v.lists k).length ≤ cap.maxBlockNodes := by
  have subset : v.lists k ⊆ List.range cap.maxBlockNodes := by
    intro i member
    exact mem_range.mpr ((valid.complete i).mpr (.inr ⟨k, member⟩))
  simpa using ((valid.represents.nodup k).subperm subset).length_le

theorem head_eq (k : ListId) : a.head k = (v.lists k).head? :=
  (valid.represents.linked k).head_eq

theorem len_eq (k : ListId) : a.len k = (v.lists k).length :=
  (valid.represents.length k).symm

/-- Take a node off its list and into the hand.  The metadata of the node may
have been rewritten before, as long as its links are untouched. -/
theorem unlink_of_agree {a' : BuddyAllocator cap} (split : v.lists k = pre ++ i :: post)
    (heap : a'.heap = a.heap) (config : a'.config = a.config)
    (blocks : ∀ j, j ≠ i → a'.block j = a.block j) :
    Valid space (a'.unlink k pre.getLast? i) (v.setList k (pre ++ post)) (i :: held) := by
  have listed : i ∈ v.lists k := by simp [split]
  have nodup := valid.represents.nodup k
  rw [split] at nodup
  have removed : i ∉ pre ++ post := (nodup_cons.mp (nodup_middle.mp nodup)).1
  -- A node is still listed unless it is the one in hand.
  have member : ∀ {k' j}, j ∈ (v.setList k (pre ++ post)).lists k' ↔ j ∈ v.lists k' ∧ j ≠ i := by
    intro k' j
    rw [View.setList_lists]
    by_cases same : k' = k
    · subst same
      rw [update_self, split]
      constructor
      · intro old
        exact ⟨by simp at old ⊢; tauto, fun equal => removed (equal ▸ old)⟩
      · rintro ⟨old, differ⟩
        simpa [differ] using old
    · rw [update_of_ne same]
      constructor
      · intro old
        refine ⟨old, ?_⟩
        rintro rfl
        exact same (valid.represents.exclusive old listed)
      · exact And.left
  constructor
  · rw [heap_unlink, heap]
    exact valid.represents.unlink split
  · intro j
    rw [valid.complete j, mem_cons]
    by_cases same : j = i
    · subst same
      simp only [true_or, iff_true]
      exact .inr ⟨k, listed⟩
    · simp only [member, same, false_or, ne_eq, not_false_eq_true, and_true]
  · intro j inside k' old
    rcases mem_cons.mp inside with rfl | inside
    · exact (member.mp old).2 rfl
    · exact valid.inHand j inside k' (member.mp old).1
  · exact nodup_cons.mpr ⟨fun inside => valid.inHand i inside k listed, valid.distinct⟩
  · intro k' j old
    rw [config_unlink, block_unlink, config, blocks j (member.mp old).2]
    exact valid.admits (member.mp old).1
  · intro k' j old active
    rw [config_unlink, block_unlink, config, blocks j (member.mp old).2]
    exact valid.occupies (member.mp old).1 active
  · intro j old
    exact valid.spare (member.mp old).1
  · exact valid.outside
  · exact valid.tiling

theorem unlink (split : v.lists k = pre ++ i :: post) :
    Valid space (a.unlink k pre.getLast? i) (v.setList k (pre ++ post)) (i :: held) :=
  valid.unlink_of_agree split rfl rfl fun _ _ => rfl

omit valid

/-- With empty hands, a node that stands for frames is on a list of blocks. -/
theorem listed_of_mem {frame : Nat} (valid : Valid space a v []) (inside : frame ∈ v.cells i) :
    ∃ k, k ≠ .unused ∧ i ∈ v.lists k := by
  have small : i < cap.maxBlockNodes := by
    by_contra large
    simp [valid.outside (Nat.not_lt.mp large)] at inside
  rcases (valid.complete i).mp small with held | ⟨k, listed⟩
  · cases held
  refine ⟨k, ?_, listed⟩
  rintro rfl
  simp [valid.spare listed] at inside

/-- Put the node in hand between a prefix and the rest of a list. -/
theorem link (valid : Valid space a v (i :: held))
    (split : v.lists k = pre ++ post) (admits : Admits a.config k (a.block i))
    (occupies : k ≠ .unused → Occupies a.config (a.block i) (v.cells i))
    (spare : k = .unused → v.cells i = ∅) :
    Valid space (a.link k pre.getLast? post.head? i) (v.setList k (pre ++ i :: post)) held := by
  have fresh : ∀ k', i ∉ v.lists k' := valid.inHand i mem_cons_self
  have member : ∀ {k' j}, j ∈ (v.setList k (pre ++ i :: post)).lists k' ↔
      j ∈ v.lists k' ∨ k' = k ∧ j = i := by
    intro k' j
    rw [View.setList_lists]
    by_cases same : k' = k
    · subst same
      simp only [update_self, split, mem_append, mem_cons]
      tauto
    · simp [same]
  constructor
  · rw [heap_link]
    exact valid.represents.link split fresh
  · intro j
    rw [valid.complete j, mem_cons]
    simp only [member]
    constructor
    · rintro ((rfl | inside) | ⟨k', old⟩)
      · exact .inr ⟨k, .inr ⟨rfl, rfl⟩⟩
      · exact .inl inside
      · exact .inr ⟨k', .inl old⟩
    · rintro (inside | ⟨k', old | ⟨-, rfl⟩⟩)
      · exact .inl (.inr inside)
      · exact .inr ⟨k', old⟩
      · exact .inl (.inl rfl)
  · intro j inside k' new
    rcases member.mp new with old | ⟨-, rfl⟩
    · exact valid.inHand j (mem_cons_of_mem i inside) k' old
    · exact (nodup_cons.mp valid.distinct).1 inside
  · exact (nodup_cons.mp valid.distinct).2
  · intro k' j new
    rw [config_link, block_link]
    rcases member.mp new with old | ⟨rfl, rfl⟩
    · exact valid.admits old
    · exact admits
  · intro k' j new active
    rw [config_link, block_link]
    rcases member.mp new with old | ⟨rfl, rfl⟩
    · exact valid.occupies old active
    · exact occupies active
  · intro j new
    rcases member.mp new with old | ⟨same, rfl⟩
    · exact valid.spare old
    · exact spare same.symm
  · exact valid.outside
  · exact valid.tiling

/-- Put the node in hand at the front of a list. -/
theorem push (valid : Valid space a v (i :: held)) (admits : Admits a.config k (a.block i))
    (occupies : k ≠ .unused → Occupies a.config (a.block i) (v.cells i))
    (spare : k = .unused → v.cells i = ∅) :
    Valid space (a.link k none (a.head k) i) (v.setList k (i :: v.lists k)) held := by
  rw [valid.head_eq k]
  exact valid.link (show v.lists k = [] ++ v.lists k from rfl) admits occupies spare

/-- The metadata of a node in hand is free to change. -/
theorem setNode (valid : Valid space a v held) (inside : i ∈ held)
    (value : BlockNode) : Valid space (a.setNode i value) v held := by
  have differ : ∀ {k j}, j ∈ v.lists k → j ≠ i := by
    rintro k j listed rfl
    exact valid.inHand j inside k listed
  refine { valid with represents := ?_, admits := ?_, occupies := ?_ }
  · refine { valid.represents with linked := fun k => ?_, length := fun k => ?_ }
    · have linked := (valid.represents.linked k).congr
        (fun j listed => show ((a.setNode i value).node j).next = a.heap.next j by
          simp [differ listed, heap])
      simpa [heap] using linked
    · simpa [heap] using valid.represents.length k
  · intro k j listed
    rw [a.block_setNode_of_ne i value (differ listed)]
    exact valid.admits listed
  · intro k j listed active
    rw [a.block_setNode_of_ne i value (differ listed)]
    exact valid.occupies listed active

/-- The reference count of a live block may change to any admitted value. -/
theorem setRefcount {count : Nat} (valid : Valid space a v held)
    (listed : i ∈ v.lists .allocated) (positive : 0 < count) (bound : count ≤ refcountMax) :
    Valid space (a.setNode i { a.node i with refcount := count }) v held := by
  let b := a.setNode i { a.node i with refcount := count }
  have heap : b.heap = a.heap := a.heap_setNode_of_next_eq i _ rfl
  have block : ∀ j, (b.block j).start = (a.block j).start ∧
      (b.block j).order = (a.block j).order := by
    intro j
    by_cases same : j = i
    · subst same
      rw [block_setNode_self]
      exact ⟨rfl, rfl⟩
    · rw [a.block_setNode_of_ne i _ same]
      exact ⟨rfl, rfl⟩
  refine { valid with represents := heap ▸ valid.represents, admits := ?_, occupies := ?_ }
  · intro k j member
    by_cases same : j = i
    · subst same
      rw [valid.represents.exclusive member listed, block_setNode_self]
      exact ⟨positive, bound⟩
    · rw [a.block_setNode_of_ne i _ same]
      exact valid.admits member
  · intro k j member active
    obtain ⟨cell, order, aligned⟩ := valid.occupies member active
    exact ⟨by rwa [(block j).1, (block j).2], by rwa [(block j).2],
      by rwa [(block j).1, (block j).2]⟩

/-- The frames of nodes in hand may be exchanged. -/
theorem setCells {space' : Finset Nat} {cells : Nat → Finset Nat} (valid : Valid space a v held)
    (agree : ∀ i ∉ held, cells i = v.cells i) (tiling : Tiling space' cells) :
    Valid space' a (v.setCells cells) held := by
  have listed : ∀ {k i}, i ∈ v.lists k → cells i = v.cells i := by
    intro k i member
    exact agree i fun inside => valid.inHand i inside k member
  refine { valid with occupies := ?_, spare := ?_, outside := ?_, tiling := tiling }
  · intro k i member active
    simpa [listed member] using valid.occupies member active
  · intro i member
    simpa [listed member] using valid.spare member
  · intro i large
    rw [View.setCells_cells, agree i ?_]
    · exact valid.outside large
    · intro inside
      exact absurd ((valid.complete i).mpr (.inl inside)) (Nat.not_lt.mpr large)

end Valid

end AetherKernel.Mm.Buddy
