import Mathlib.Data.List.Nodup
import Mathlib.Logic.Function.Basic

/-!
# Serving a bounded number of elements

A loop over a list serves the elements that it accepts, until a number of them
has been served.  An element is accepted by what is seen of it in the state, and
serving it changes nothing else that is seen.
-/

namespace AetherKernel.Lib

open Function

variable {σ α β : Type} (view : σ → α → β) (accepts : β → Bool) (serve : σ → α → σ)

/-- Serve the accepted elements until `count` of them have been served; `served`
is their number so far. -/
def pick (count : Nat) : List α → Nat → σ → Nat × σ
  | [], served, state => (served, state)
  | a :: rest, served, state =>
    if count ≤ served then (served, state)
    else if accepts (view state a) then pick count rest (served + 1) (serve state a)
    else pick count rest served state

variable {view accepts serve} {count : Nat} {list : List α}

theorem pick_of_le {served : Nat} (enough : count ≤ served) (list : List α) (state : σ) :
    pick view accepts serve count list served state = (served, state) := by
  cases list with
  | nil => rfl
  | cons => exact if_pos enough

/-- The elements that are accepted at the start are served, from the first of
them on. -/
theorem pick_spec [DecidableEq α] {change : β → β} (frame : ∀ state a, accepts (view state a) →
      view (serve state a) = update (view state) a (change (view state a)))
    (nodup : list.Nodup) (count served : Nat) (state : σ) :
    ∃ chosen, chosen = (list.filter fun a => accepts (view state a)).take (count - served) ∧
      (pick view accepts serve count list served state).1 = served + chosen.length ∧
      ∀ a, view (pick view accepts serve count list served state).2 a =
        if a ∈ chosen then change (view state a) else view state a := by
  induction list generalizing served state with
  | nil => exact ⟨[], by simp, rfl, fun a => (if_neg (by simp)).symm⟩
  | cons a rest ih =>
    obtain ⟨fresh, others⟩ := List.nodup_cons.mp nodup
    rw [pick]
    split
    · rename_i enough
      rw [Nat.sub_eq_zero_of_le enough]
      exact ⟨[], by simp, rfl, fun a => (if_neg (by simp)).symm⟩
    split
    · rename_i more accepted
      have seen (b : α) (member : b ∈ rest) : view (serve state a) b = view state b := by
        rw [frame state a accepted]
        refine update_of_ne ?_ ..
        rintro rfl
        exact fresh member
      obtain ⟨chosen, picked, number, views⟩ := ih others (served + 1) (serve state a)
      have same : (rest.filter fun b => accepts (view (serve state a) b)) =
          rest.filter fun b => accepts (view state b) :=
        List.filter_congr fun b member => by rw [seen b member]
      have left : count - served = count - (served + 1) + 1 := by omega
      have within (b : α) (chosen : b ∈ chosen) : b ∈ rest := by
        rw [picked] at chosen
        exact List.mem_of_mem_filter (List.mem_of_mem_take chosen)
      refine ⟨a :: chosen, ?_, ?_, fun b => ?_⟩
      · rw [List.filter_cons, if_pos accepted, left, List.take_succ_cons, picked, same]
      · rw [number, List.length_cons]
        omega
      rw [views b]
      by_cases here : b = a
      · subst here
        rw [if_neg (fun chosen => fresh (within b chosen)), if_pos List.mem_cons_self,
          frame state b accepted, update_self]
      · simp only [List.mem_cons, here, false_or, frame state a accepted, update_of_ne here]
    · rename_i refused
      rw [List.filter_cons, if_neg refused]
      exact ih others served state

/-- Of the entries of a table, only accepted ones are changed; if `all` holds, each of
them is. -/
def Served (accepts : β → Bool) (change : β → β) (all : Prop) (before after : α → Option β) :
    Prop :=
  ∀ a b, before a = some b →
    after a = some b ∧ (all → ¬accepts b) ∨ after a = some (change b) ∧ accepts b

section Served

variable {change : β → β} {all : Prop} {before after : α → Option β}

theorem Served.of_not (served : Served accepts change all before after) {a : α} {b : β}
    (found : before a = some b) (other : ¬accepts b) : after a = some b :=
  (served a b found).elim And.left fun changed => absurd changed.2 other

theorem served_of_chosen [DecidableEq α] {chosen : List α}
    (accepted : ∀ a ∈ chosen, (before a).any accepts)
    (every : all → ∀ a b, before a = some b → accepts b → a ∈ chosen)
    (views : ∀ a, after a = if a ∈ chosen then (before a).map change else before a) :
    Served accepts change all before after := by
  intro a b found
  rw [views, found]
  split
  · rename_i member
    have matching := accepted a member
    rw [found] at matching
    exact .inr ⟨rfl, matching⟩
  · rename_i missed
    exact .inl ⟨rfl, fun holds matching => missed (every holds a b found matching)⟩

end Served

/-- What each turn of the loop keeps, the loop keeps. -/
theorem pick_rel {R : σ → σ → Prop} (refl : ∀ state, R state state)
    (trans : ∀ {first second third}, R first second → R second third → R first third)
    (turn : ∀ state a, accepts (view state a) → R state (serve state a)) (served : Nat)
    (state : σ) : R state (pick view accepts serve count list served state).2 := by
  induction list generalizing served state with
  | nil => exact refl state
  | cons a rest ih =>
    rw [pick]
    split
    · exact refl state
    split
    · rename_i accepted
      exact trans (turn state a accepted) (ih _ _)
    · exact ih _ _

end AetherKernel.Lib
