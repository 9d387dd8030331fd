import Mathlib.Data.List.Basic
import Mathlib.Logic.Relation

/-!
# Merging neighbours in a list

Two ways to merge elements with their neighbours: around one index, and in one
pass over the list.  What survives one merge survives both.
-/

namespace AetherKernel.Lib

open Relation List

/-- Elements that may be joined with the next one. -/
class Mergeable (α : Type) where
  fits : α → α → Bool
  join : α → α → α

variable {α : Type} [Mergeable α] {xs after : List α}

/-- Merge the elements at an index and behind it, if they can be. -/
def mergeAt (xs : List α) (index : Nat) : Option (List α) :=
  match xs[index]?, xs[index + 1]? with
  | some lhs, some rhs =>
    if Mergeable.fits lhs rhs then
      some ((xs.set index (Mergeable.join lhs rhs)).eraseIdx (index + 1))
    else none
  | _, _ => none

/-- Merge with the elements before an index. -/
def mergeLeft : Nat → List α → Nat × List α
  | 0, xs => (0, xs)
  | index + 1, xs =>
    match mergeAt xs index with
    | some xs => mergeLeft index xs
    | none => (index + 1, xs)

/-- Merge with the elements behind an index; each turn takes an element away. -/
def mergeRight (index : Nat) : Nat → List α → List α
  | 0, xs => xs
  | turns + 1, xs =>
    match mergeAt xs index with
    | some xs => mergeRight index turns xs
    | none => xs

def mergeNeighborsAround (xs : List α) (index : Nat) : List α :=
  let (index, xs) := mergeLeft index xs
  mergeRight index xs.length xs

/-- One pass over a list, with the last element of the result so far. -/
def coalesceInto (previous : α) : List α → List α
  | [] => [previous]
  | x :: rest =>
    if Mergeable.fits previous x then coalesceInto (Mergeable.join previous x) rest
    else previous :: coalesceInto x rest

def coalesce : List α → List α
  | [] => []
  | x :: rest => coalesceInto x rest

/-! ## One merge at a time -/

/-- Two neighbours that can be merged are. -/
def MergeStep (xs after : List α) : Prop :=
  ∃ front lhs rhs back, Mergeable.fits lhs rhs = true ∧ xs = front ++ lhs :: rhs :: back ∧
    after = front ++ Mergeable.join lhs rhs :: back

theorem mergeAt_eq_some {index : Nat}
    (run : mergeAt xs index = some after) : MergeStep xs after := by
  unfold mergeAt at run
  split at run
  · rename_i lhs rhs first second
    split at run
    · rename_i fits
      cases run
      obtain ⟨firstLt, rfl⟩ := List.getElem?_eq_some_iff.mp first
      obtain ⟨secondLt, rfl⟩ := List.getElem?_eq_some_iff.mp second
      refine ⟨xs.take index, _, _, xs.drop (index + 2), fits, ?_, ?_⟩
      · rw [getElem_cons_drop, getElem_cons_drop, take_append_drop]
      · have length : (xs.take index).length = index := length_take_of_le (Nat.le_of_lt firstLt)
        rw [set_eq_take_append_cons_drop, if_pos firstLt,
          eraseIdx_append_of_length_le (by omega), length, Nat.add_sub_cancel_left,
          eraseIdx_cons_succ, eraseIdx_zero, tail_drop]
    · cases run
  · cases run

theorem mergeLeft_merges (index : Nat) (xs : List α) :
    ReflTransGen MergeStep xs (mergeLeft index xs).2 := by
  induction index generalizing xs with
  | zero => exact .refl
  | succ index ih =>
    unfold mergeLeft
    split
    · rename_i after run
      exact .head (mergeAt_eq_some run) (ih after)
    · exact .refl

theorem mergeRight_merges (index turns : Nat) (xs : List α) :
    ReflTransGen MergeStep xs (mergeRight index turns xs) := by
  induction turns generalizing xs with
  | zero => exact .refl
  | succ turns ih =>
    unfold mergeRight
    split
    · rename_i after run
      exact .head (mergeAt_eq_some run) (ih after)
    · exact .refl

theorem mergeNeighborsAround_merges (xs : List α) (index : Nat) :
    ReflTransGen MergeStep xs (mergeNeighborsAround xs index) :=
  (mergeLeft_merges index xs).trans (mergeRight_merges _ _ _)

theorem coalesceInto_merges (front : List α) (previous : α) (xs : List α) :
    ReflTransGen MergeStep (front ++ previous :: xs) (front ++ coalesceInto previous xs) := by
  induction xs generalizing front previous with
  | nil => exact .refl
  | cons x rest ih =>
    unfold coalesceInto
    split
    · rename_i fits
      exact .head ⟨front, previous, x, rest, fits, rfl, rfl⟩ (ih front _)
    · have later := ih (front ++ [previous]) x
      rw [append_assoc, append_assoc] at later
      exact later

theorem coalesce_merges (xs : List α) : ReflTransGen MergeStep xs (coalesce xs) := by
  cases xs with
  | nil => exact .refl
  | cons x rest => exact coalesceInto_merges [] x rest

/-- What one merge keeps, any number of merges keeps. -/
theorem kept_of_merges {P : List α → Prop}
    (step : ∀ before after, MergeStep before after → P before → P after)
    (merges : ReflTransGen MergeStep xs after) (initially : P xs) : P after := by
  induction merges with
  | refl => exact initially
  | tail _ last ih => exact step _ _ last ih

/-- What holds of all elements, and of two of them that are joined, holds of what they
are merged into. -/
theorem forall_mem_of_merges {P : α → Prop} (joins : ∀ lhs rhs, Mergeable.fits lhs rhs = true →
      P lhs → P rhs → P (Mergeable.join lhs rhs)) (merges : ReflTransGen MergeStep xs after)
    (all : ∀ x ∈ xs, P x) : ∀ x ∈ after, P x := by
  refine kept_of_merges (P := fun xs => ∀ x ∈ xs, P x) ?_ merges all
  rintro _ _ ⟨front, lhs, rhs, back, fits, rfl, rfl⟩ all
  simp only [forall_mem_append, forall_mem_cons] at all ⊢
  obtain ⟨inFront, left, right, inBack⟩ := all
  exact ⟨inFront, joins lhs rhs fits left right, inBack⟩

end AetherKernel.Lib
