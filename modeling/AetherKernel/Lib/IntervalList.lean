import Mathlib.Data.List.Basic
import Mathlib.Data.List.Pairwise

/-!
# Lists of disjoint intervals

A list of half-open intervals is ordered when each one starts after the start of
the one before and not before its end.  Empty intervals are allowed, but no two
intervals start at the same place.  Insertion, cutting, merging and resizing keep
a list ordered under conditions on the neighbours only.
-/

namespace AetherKernel.Lib

open List

/-- Values that stand for the addresses from `lo` up to `hi`. -/
class Span (α : Type) where
  lo : α → Nat
  hi : α → Nat

namespace Span

variable {α : Type} [Span α] {a b : α}

/-- The interval `a` comes first and ends before `b` starts. -/
def Before (a b : α) : Prop :=
  lo a < lo b ∧ hi a ≤ lo b

/-- The two intervals can stand in one ordered list. -/
def Apart (a b : α) : Prop :=
  Before a b ∨ Before b a

/-- No address is in both intervals. -/
def Disjoint (a b : α) : Prop :=
  ∀ address, ¬((lo a ≤ address ∧ address < hi a) ∧ lo b ≤ address ∧ address < hi b)

/-- The intervals follow each other. -/
structure Ordered (xs : List α) : Prop where
  pairwise : xs.Pairwise Before
  valid : ∀ x ∈ xs, lo x ≤ hi x

theorem Before.disjoint (before : Before a b) : Disjoint a b := by
  rintro address ⟨⟨-, inA⟩, inB, -⟩
  exact absurd (Nat.lt_of_lt_of_le inA (Nat.le_trans before.2 inB)) (Nat.lt_irrefl _)

namespace Ordered

variable {xs ys : List α} {m : α}

theorem nil : Ordered ([] : List α) :=
  ⟨.nil, nofun⟩

theorem disjoint (ordered : Ordered xs) : xs.Pairwise Disjoint :=
  ordered.pairwise.imp Before.disjoint

theorem sorted (ordered : Ordered xs) : xs.Pairwise fun a b => lo a ≤ lo b :=
  ordered.pairwise.imp fun before => Nat.le_of_lt before.1

/-- A list that is put together from two parts. -/
theorem append_iff :
    Ordered (xs ++ ys) ↔ Ordered xs ∧ Ordered ys ∧ ∀ a ∈ xs, ∀ b ∈ ys, Before a b := by
  constructor
  · rintro ⟨pairwise, valid⟩
    obtain ⟨first, second, across⟩ := pairwise_append.mp pairwise
    obtain ⟨left, right⟩ := forall_mem_append.mp valid
    exact ⟨⟨first, left⟩, ⟨second, right⟩, across⟩
  · rintro ⟨first, second, across⟩
    exact ⟨pairwise_append.mpr ⟨first.pairwise, second.pairwise, across⟩,
      forall_mem_append.mpr ⟨first.valid, second.valid⟩⟩

theorem cons_iff : Ordered (a :: xs) ↔ lo a ≤ hi a ∧ Ordered xs ∧ ∀ b ∈ xs, Before a b := by
  constructor
  · rintro ⟨pairwise, valid⟩
    obtain ⟨across, rest⟩ := pairwise_cons.mp pairwise
    obtain ⟨first, later⟩ := forall_mem_cons.mp valid
    exact ⟨first, ⟨rest, later⟩, across⟩
  · rintro ⟨valid, rest, across⟩
    exact ⟨pairwise_cons.mpr ⟨across, rest.pairwise⟩, forall_mem_cons.mpr ⟨valid, rest.valid⟩⟩

theorem sublist (ordered : Ordered ys) (sublist : xs <+ ys) : Ordered xs :=
  ⟨ordered.pairwise.sublist sublist, fun x member => ordered.valid x (sublist.subset member)⟩

/-- A new interval is put between two parts. -/
theorem insert (ordered : Ordered (xs ++ ys)) (valid : lo a ≤ hi a)
    (left : ∀ x ∈ xs, Before x a) (right : ∀ y ∈ ys, Before a y) : Ordered (xs ++ a :: ys) := by
  obtain ⟨first, second, across⟩ := append_iff.mp ordered
  exact append_iff.mpr ⟨first, cons_iff.mpr ⟨valid, second, right⟩,
    fun x member => forall_mem_cons.mpr ⟨left x member, across x member⟩⟩

/-- An interval gets another end. -/
theorem resize (ordered : Ordered (xs ++ a :: ys)) (low : lo m = lo a) (valid : lo a ≤ hi m)
    (room : ∀ y ∈ ys, hi m ≤ lo y) : Ordered (xs ++ m :: ys) := by
  obtain ⟨first, second, across⟩ := append_iff.mp ordered
  obtain ⟨-, last, afterA⟩ := cons_iff.mp second
  refine append_iff.mpr ⟨first, cons_iff.mpr ⟨low ▸ valid, last, ?_⟩, ?_⟩
  · intro y member
    exact ⟨low ▸ (afterA y member).1, room y member⟩
  · intro x member
    obtain ⟨beforeA, others⟩ := forall_mem_cons.mp (across x member)
    exact forall_mem_cons.mpr ⟨⟨low ▸ beforeA.1, low ▸ beforeA.2⟩, others⟩

/-- Two neighbours become one interval. -/
theorem merge (ordered : Ordered (xs ++ a :: b :: ys)) (low : lo m = lo a) (high : hi m = hi b) :
    Ordered (xs ++ m :: ys) := by
  obtain ⟨-, second, -⟩ := append_iff.mp ordered
  obtain ⟨-, rest, afterA⟩ := cons_iff.mp second
  obtain ⟨validB, -, afterB⟩ := cons_iff.mp rest
  have single : Ordered (xs ++ a :: ys) := ordered.sublist (by simp)
  refine single.resize low ?_ fun y member => high ▸ (afterB y member).2
  rw [high]
  exact Nat.le_trans (Nat.le_of_lt (afterA b mem_cons_self).1) validB

end Ordered

/-! ## Cutting -/

/-- A part of an interval, which is empty only if the interval is. -/
structure Piece (whole part : α) : Prop where
  lo_le : lo whole ≤ lo part
  hi_le : hi part ≤ hi whole
  valid : lo part ≤ hi part
  empty : lo part = hi part → lo whole = hi whole

theorem Piece.refl (valid : lo a ≤ hi a) : Piece a a :=
  ⟨Nat.le_refl _, Nat.le_refl _, valid, id⟩

/-- An empty part is where its interval is. -/
theorem Piece.lo_eq {whole part : α} (piece : Piece whole part) (empty : lo part = hi part) :
    lo part = lo whole := by
  obtain ⟨starts, ends, -, wholeEmpty⟩ := piece
  omega

/-- Pieces of intervals that follow each other do so too. -/
theorem Before.pieces {partA partB : α} (before : Before a b) (first : Piece a partA)
    (second : Piece b partB) : Before partA partB := by
  have starts := second.lo_le
  have later : hi partA ≤ lo partB := Nat.le_trans first.hi_le (Nat.le_trans before.2 starts)
  refine ⟨?_, later⟩
  rcases Nat.lt_or_eq_of_le first.valid with nonempty | empty
  · exact Nat.lt_of_lt_of_le nonempty later
  · rw [first.lo_eq empty]
    exact Nat.lt_of_lt_of_le before.1 starts

/-- Cutting every interval of a list into ordered pieces keeps the list ordered. -/
theorem Ordered.flatMap {xs : List α} (ordered : Ordered xs) {cut : α → List α}
    (pieces : ∀ x ∈ xs, Ordered (cut x) ∧ ∀ part ∈ cut x, Piece x part) :
    Ordered (xs.flatMap cut) := by
  induction xs with
  | nil => exact Ordered.nil
  | cons a xs ih =>
    obtain ⟨-, rest, afterA⟩ := cons_iff.mp ordered
    refine append_iff.mpr ⟨(pieces a mem_cons_self).1,
      ih rest fun x member => pieces x (mem_cons_of_mem _ member), ?_⟩
    intro partA inA partB inRest
    obtain ⟨b, member, inB⟩ := mem_flatMap.mp inRest
    exact (afterA b member).pieces ((pieces a mem_cons_self).2 partA inA)
      ((pieces b (mem_cons_of_mem _ member)).2 partB inB)

end Span

end AetherKernel.Lib
