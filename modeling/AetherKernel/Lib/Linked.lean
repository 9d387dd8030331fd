import Mathlib.Data.List.Induction
import Mathlib.Data.List.Nodup

/-!
# Intrusive singly linked lists

Records that live in a fixed pool carry the index of their successor, and a
list is known only by the index of its first record.  `Linked` recovers the
sequence of indices from such a representation.  A `ListHeap` holds several
lists over one pool; `Represents` says which sequences it stores.  Every edit
of such a heap is a `link` (put a record between two neighbours) or an
`unlink` (take a record out), with pushing and popping as the case of an empty
prefix.
-/

namespace AetherKernel.Lib

open Function List

variable {ι κ : Type}

/-- The successor function leads from `head` through exactly the listed
records and then ends. -/
def Linked (next : ι → Option ι) : Option ι → List ι → Prop
  | head, [] => head = none
  | head, i :: rest => head = some i ∧ Linked next (next i) rest

namespace Linked

variable {next : ι → Option ι} {head : Option ι} {xs pre post : List ι}

@[simp]
theorem nil_iff : Linked next head [] ↔ head = none :=
  Iff.rfl

/-- The head pointer is the first listed record. -/
theorem head_eq (linked : Linked next head xs) : head = xs.head? := by
  cases xs with
  | nil => exact linked
  | cons i rest => exact linked.1

/-- Changing the successors of records off the list keeps it. -/
theorem congr {next' : ι → Option ι} (linked : Linked next head xs)
    (agree : ∀ i ∈ xs, next' i = next i) : Linked next' head xs := by
  induction xs generalizing head with
  | nil => exact linked
  | cons i rest ih =>
    refine ⟨linked.1, ?_⟩
    rw [agree i mem_cons_self]
    exact ih linked.2 fun j member => agree j (mem_cons_of_mem i member)

/-- The tail of a linked list is linked from its own first record. -/
theorem of_append (linked : Linked next head (pre ++ post)) : Linked next post.head? post := by
  induction pre generalizing head with
  | nil =>
    have tail : Linked next head post := linked
    rw [← tail.head_eq]
    exact tail
  | cons i rest ih => exact ih linked.2

variable [DecidableEq ι] {fuel : Nat}

/-- Redirecting the last record of a prefix replaces the tail of the list. -/
theorem redirect {post' : List ι} {last : ι}
    (linked : Linked next head (pre ++ last :: post)) (fresh : last ∉ pre)
    (tail : Linked next post'.head? post') (apart : last ∉ post') :
    Linked (update next last post'.head?) head (pre ++ last :: post') := by
  induction pre generalizing head with
  | nil =>
    refine ⟨linked.1, ?_⟩
    rw [update_self]
    exact tail.congr fun i member =>
      update_of_ne (ne_of_mem_of_not_mem member apart) _ _
  | cons i rest ih =>
    have differ : i ≠ last := fun equal => fresh (equal ▸ mem_cons_self)
    refine ⟨linked.1, ?_⟩
    rw [update_of_ne differ]
    exact ih linked.2 fun member => fresh (mem_cons_of_mem i member)

/-- A loop that follows the successors until `stop` holds or the list ends.
It returns the record before the stopping point and the stopping point, and
gives up after `fuel` records. -/
def scan (next : ι → Option ι) (stop : ι → Bool) :
    Nat → Option ι → Option ι → Option (Option ι × Option ι)
  | _, previous, none => some (previous, none)
  | 0, _, some _ => none
  | fuel + 1, previous, some i =>
    if stop i then some (previous, some i) else scan next stop fuel (some i) (next i)

omit [DecidableEq ι] in
/-- On a list no longer than the fuel the loop ends, and the records it passed
are the longest prefix on which `stop` fails. -/
theorem scan_eq (stop : ι → Bool) (previous : Option ι)
    (linked : Linked next head xs) (enough : xs.length ≤ fuel) :
    ∃ pre post, xs = pre ++ post ∧ (∀ i ∈ pre, stop i = false) ∧
      (∀ i, post.head? = some i → stop i = true) ∧
      scan next stop fuel previous head = some (pre.getLast?.or previous, post.head?) := by
  induction xs generalizing head previous fuel with
  | nil =>
    refine ⟨[], [], rfl, by simp, by simp, ?_⟩
    rw [linked.head_eq]
    cases fuel <;> rfl
  | cons i rest ih =>
    obtain ⟨fuel, rfl⟩ : ∃ n, fuel = n + 1 :=
      Nat.exists_eq_succ_of_ne_zero (by simp at enough; omega)
    rw [linked.1]
    cases stopped : stop i with
    | true =>
      refine ⟨[], i :: rest, rfl, by simp, by simp [stopped], ?_⟩
      simp [scan, stopped]
    | false =>
      obtain ⟨pre, post, rfl, passed, stopAt, result⟩ :=
        ih (some i) linked.2 (show rest.length ≤ fuel by simpa using enough)
      refine ⟨i :: pre, post, rfl, ?_, stopAt, ?_⟩
      · intro j member
        rcases mem_cons.mp member with rfl | member
        · exact stopped
        · exact passed j member
      · rw [scan, if_neg (by simp [stopped]), result]
        cases pre using List.reverseRecOn <;> simp [List.getLast?_cons]

/-- The records met by following the successors, at most `fuel` of them. -/
def walk (next : ι → Option ι) : Nat → Option ι → List ι
  | _, none => []
  | 0, some _ => []
  | fuel + 1, some i => i :: walk next fuel (next i)

omit [DecidableEq ι] in
theorem walk_eq (linked : Linked next head xs)
    (enough : xs.length ≤ fuel) : walk next fuel head = xs := by
  induction xs generalizing head fuel with
  | nil =>
    rw [linked.head_eq]
    cases fuel <;> rfl
  | cons i rest ih =>
    obtain ⟨fuel, rfl⟩ : ∃ n, fuel = n + 1 :=
      Nat.exists_eq_succ_of_ne_zero (by simp at enough; omega)
    rw [linked.1, walk, ih linked.2 (by simpa using enough)]

end Linked

/-- Several intrusive lists, named by `κ`, over one pool of records. -/
structure ListHeap (ι κ : Type) where
  next : ι → Option ι
  head : κ → Option ι
  len : κ → Nat

namespace ListHeap

/-- The sequences stored by a heap of lists.  No record is on two lists, nor
twice on one. -/
structure Represents (heap : ListHeap ι κ) (lists : κ → List ι) : Prop where
  linked : ∀ k, Linked heap.next (heap.head k) (lists k)
  length : ∀ k, (lists k).length = heap.len k
  nodup : ∀ k, (lists k).Nodup
  exclusive : ∀ {k k' i}, i ∈ lists k → i ∈ lists k' → k = k'

variable [DecidableEq ι] [DecidableEq κ] (heap : ListHeap ι κ)

/-- Point the predecessor, or the list head when there is none, at `target`. -/
def redirect (k : κ) (previous target : Option ι) : ListHeap ι κ :=
  match previous with
  | some last => { heap with next := update heap.next last target }
  | none => { heap with head := update heap.head k target }

/-- Put the record `i` between `previous` and `successor` on list `k`. -/
def link (k : κ) (previous successor : Option ι) (i : ι) : ListHeap ι κ :=
  let inner : ListHeap ι κ := { heap with next := update heap.next i successor }
  let outer := inner.redirect k previous (some i)
  { outer with len := update outer.len k (outer.len k + 1) }

/-- Take the record `i`, which follows `previous`, off list `k`. -/
def unlink (k : κ) (previous : Option ι) (i : ι) : ListHeap ι κ :=
  let outer := heap.redirect k previous (heap.next i)
  { outer with
    next := update outer.next i none
    len := update outer.len k (outer.len k - 1) }

namespace Represents

variable {heap : ListHeap ι κ} {lists : κ → List ι} {k : κ} {pre post : List ι} {i : ι}

@[simp]
theorem redirect_len (heap : ListHeap ι κ) (k : κ) (previous target : Option ι) :
    (heap.redirect k previous target).len = heap.len := by
  cases previous <;> rfl

variable (represents : heap.Represents lists)
include represents

/-- Redirecting the end of a prefix of one list replaces its tail and leaves
the other lists alone. -/
theorem redirect_linked {post' : List ι} (split : lists k = pre ++ post)
    (tail : Linked heap.next post'.head? post') (apart : ∀ i ∈ pre, i ∉ post') (k' : κ) :
    Linked (heap.redirect k pre.getLast? post'.head?).next
      ((heap.redirect k pre.getLast? post'.head?).head k')
      (update lists k (pre ++ post') k') := by
  have linked := represents.linked k
  have nodup := represents.nodup k
  rw [split] at linked nodup
  cases pre using List.reverseRecOn with
  | nil =>
    simp only [redirect]
    by_cases same : k' = k
    · subst same
      simpa using tail
    · simpa [same] using represents.linked k'
  | append_singleton front last =>
    simp only [List.getLast?_append, redirect]
    simp only [append_assoc] at linked nodup
    have fresh : last ∉ front := by
      intro member
      exact (disjoint_of_nodup_append nodup) member mem_cons_self
    by_cases same : k' = k
    · subst same
      simpa using linked.redirect fresh tail (apart last (by simp))
    · rw [update_of_ne same]
      refine (represents.linked k').congr fun i member => ?_
      refine update_of_ne ?_ _ _
      rintro rfl
      exact same (represents.exclusive member (by simp [split]))

omit [DecidableEq ι] in
/-- One list is replaced by another without repeated records, each of which was on the
old list or on none. -/
theorem replace {heap' : ListHeap ι κ} {xs : List ι}
    (linked : ∀ k', Linked heap'.next (heap'.head k') (update lists k xs k'))
    (len : heap'.len = update heap.len k xs.length) (nodup : xs.Nodup)
    (origin : ∀ i ∈ xs, ∀ k', i ∈ lists k' → k' = k) : heap'.Represents (update lists k xs) := by
  refine ⟨linked, fun k' => ?_, fun k' => ?_, fun {k₁ k₂ i} first second => ?_⟩
  · rw [len, update_apply, update_apply]
    split
    · rfl
    · exact represents.length k'
  · rw [update_apply]
    split
    · exact nodup
    · exact represents.nodup k'
  · rw [update_apply] at first second
    split at first <;> split at second <;> rename_i here there
    · exact here.trans there.symm
    · exact here.trans (origin i first k₂ second).symm
    · exact (origin i second k₁ first).trans there.symm
    · exact represents.exclusive first second

/-- Linking an unlisted record between a prefix and the rest of a list. -/
theorem link (split : lists k = pre ++ post) (fresh : ∀ k', i ∉ lists k') :
    (heap.link k pre.getLast? post.head? i).Represents (update lists k (pre ++ i :: post)) := by
  have freshK : i ∉ pre ++ post := split ▸ fresh k
  have inner : ListHeap.Represents { heap with next := update heap.next i post.head? } lists :=
    { represents with
      linked := fun k' => (represents.linked k').congr fun j member =>
        update_of_ne (ne_of_mem_of_not_mem member (fresh k')) _ _ }
  have tail : Linked (update heap.next i post.head?) (i :: post).head? (i :: post) := by
    refine ⟨rfl, ?_⟩
    rw [update_self]
    have linked := inner.linked k
    rw [split] at linked
    exact linked.of_append
  have nodup := represents.nodup k
  rw [split] at nodup
  have apart : ∀ j ∈ pre, j ∉ i :: post := by
    intro j member
    rw [mem_cons, not_or]
    refine ⟨ne_of_mem_of_not_mem member (by simp_all), ?_⟩
    exact fun other => disjoint_of_nodup_append nodup member other
  refine represents.replace (redirect_linked inner split tail apart) ?_
    (nodup_middle.mpr (nodup_cons.mpr ⟨freshK, nodup⟩)) fun j member k' listed => ?_
  · simp [ListHeap.link, ← represents.length k, split, Nat.add_assoc]
  · rcases mem_append.mp member with member | member
    · exact represents.exclusive listed (by simp [split, member])
    · rcases mem_cons.mp member with rfl | member
      · exact absurd listed (fresh k')
      · exact represents.exclusive listed (by simp [split, member])

/-- Unlinking a record joins what comes before and after it. -/
theorem unlink (split : lists k = pre ++ i :: post) :
    (heap.unlink k pre.getLast? i).Represents (update lists k (pre ++ post)) := by
  have linked := represents.linked k
  have nodup := represents.nodup k
  rw [split] at linked nodup
  have tail : Linked heap.next post.head? post := by
    have both : Linked heap.next (heap.head k) ((pre ++ [i]) ++ post) := by simpa using linked
    exact both.of_append
  have successor : heap.next i = post.head? := by
    have rest := linked.of_append
    exact rest.2.head_eq
  have unique : i ∉ pre ++ post := (nodup_cons.mp (nodup_middle.mp nodup)).1
  have apart : ∀ j ∈ pre, j ∉ post := by
    intro j member other
    exact disjoint_of_nodup_append nodup member (mem_cons_of_mem i other)
  have absent : ∀ k', i ∉ update lists k (pre ++ post) k' := by
    intro k' member
    by_cases same : k' = k
    · subst same
      exact unique (by simpa using member)
    · rw [update_of_ne same] at member
      exact same (represents.exclusive member (by simp [split]))
  refine represents.replace (fun k' => ?_) ?_ (nodup_cons.mp (nodup_middle.mp nodup)).2
    fun j member k' listed => represents.exclusive listed ?_
  · have joined := redirect_linked represents split tail apart k'
    simp only [ListHeap.unlink, successor]
    refine joined.congr fun j member => ?_
    exact update_of_ne (ne_of_mem_of_not_mem member (absent k')) _ _
  · simp [ListHeap.unlink, ← represents.length k, split]
  · rw [split]
    rcases mem_append.mp member with member | member <;> simp [member]

end Represents

end ListHeap

end AetherKernel.Lib
