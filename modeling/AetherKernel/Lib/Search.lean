import Mathlib.Data.List.Basic

/-!
# Binary search

The search of slices by a comparison.  The loop halves the part that is left and
compares no element for an early exit; one more comparison after the loop decides
the outcome.  The result is the index of a match, or the index at which one would
be inserted.  On a list that is not sorted the outcome is whatever the loop finds.
-/

namespace AetherKernel.Lib

open List Nat

variable {α : Type} {xs : List α} {y : α} {index : Nat}

/-- The loop of the search; `turns` bounds the size of the part that is left. -/
def searchBase (compare : α → Ordering) (xs : List α) : Nat → Nat → Nat → Nat
  | 0, base, _ => base
  | turns + 1, base, size =>
    if 1 < size then
      let half := size / 2
      let mid := base + half
      let base := match xs[mid]? with
        | none => base
        | some x => if compare x = .gt then base else mid
      searchBase compare xs turns base (size - half)
    else
      base

/-- `binary_search_by`: the place of a match, or the place to insert one. -/
def binarySearchBy (compare : α → Ordering) (xs : List α) : Except Nat Nat :=
  let base := searchBase compare xs xs.length 0 xs.length
  match xs[base]? with
  | none => .error 0
  | some x =>
    match compare x with
    | .eq => .ok base
    | .lt => .error (base + 1)
    | .gt => .error base

/-- The index of either outcome. -/
def placeOf : Except Nat Nat → Nat
  | .ok index => index
  | .error index => index

/-- `binary_search_by_key` for keys that are words. -/
def binarySearchByKey (key : Nat) (keyOf : α → Nat) (xs : List α) : Except Nat Nat :=
  binarySearchBy (fun x => compare (keyOf x) key) xs

/-- Elements that satisfy the predicate come first. -/
def sideOf (holds : α → Bool) (x : α) : Ordering :=
  if holds x then .lt else .gt

/-- `partition_point`. -/
def partitionPoint (holds : α → Bool) (xs : List α) : Nat :=
  placeOf (binarySearchBy (sideOf holds) xs)

/-- The comparison grows along the list. -/
def Ascending (compare : α → Ordering) (xs : List α) : Prop :=
  xs.Pairwise fun a b =>
    (compare b = .lt → compare a = .lt) ∧ (compare a = .gt → compare b = .gt)

section Loop

variable {compare : α → Ordering}

theorem Ascending.getElem? (ascending : Ascending compare xs) {i j : Nat} {a b : α}
    (before : i < j) (first : xs[i]? = some a) (second : xs[j]? = some b) :
    (compare b = .lt → compare a = .lt) ∧ (compare a = .gt → compare b = .gt) := by
  obtain ⟨iLt, rfl⟩ := List.getElem?_eq_some_iff.mp first
  obtain ⟨jLt, rfl⟩ := List.getElem?_eq_some_iff.mp second
  exact pairwise_iff_getElem.mp ascending i j iLt jLt before

/-- `base` is the last element that is not too large, or the first element. -/
structure LastSmall (compare : α → Ordering) (xs : List α) (base : Nat) : Prop where
  inside : base < xs.length
  small : base = 0 ∨ ∀ x, xs[base]? = some x → compare x ≠ .gt
  behind : ∀ j x, base < j → xs[j]? = some x → compare x = .gt

/-- The loop finds it: what is behind the part that is left stays too large. -/
theorem searchBase_spec (ascending : Ascending compare xs) (turns base size : Nat)
    (enough : size ≤ turns) (inside : base + size ≤ xs.length) (nonempty : 0 < size)
    (small : base = 0 ∨ ∀ x, xs[base]? = some x → compare x ≠ .gt)
    (behind : ∀ j x, base + size ≤ j → xs[j]? = some x → compare x = .gt) :
    LastSmall compare xs (searchBase compare xs turns base size) := by
  induction turns generalizing base size with
  | zero => exact absurd (Nat.lt_of_lt_of_le nonempty enough) (Nat.lt_irrefl _)
  | succ turns ih =>
    unfold searchBase
    split
    · have midLt : base + size / 2 < xs.length := by omega
      have mid := List.getElem?_eq_getElem midLt
      dsimp only
      rw [mid]
      dsimp only
      split
      · -- The middle element is too large, and so is everything behind it.
        rename_i large
        apply ih base (size - size / 2) (by omega) (by omega) (by omega) small
        intro j x after found
        rcases Nat.lt_or_ge (base + size / 2) j with beyond | same
        · exact (ascending.getElem? beyond mid found).2 large
        · obtain rfl : j = base + size / 2 := by omega
          rw [mid] at found
          cases found
          exact large
      · rename_i notLarge
        apply ih (base + size / 2) (size - size / 2) (by omega) (by omega) (by omega)
        · right
          intro x found
          rw [mid] at found
          cases found
          exact notLarge
        · intro j x after
          exact behind j x (by omega)
    · constructor
      · omega
      · exact small
      · intro j x after
        exact behind j x (by omega)

theorem lastSmall_searchBase (ascending : Ascending compare xs) (nonempty : xs ≠ []) :
    LastSmall compare xs (searchBase compare xs xs.length 0 xs.length) := by
  apply searchBase_spec ascending _ _ _ (Nat.le_refl _)
  · exact Nat.le_of_eq (Nat.zero_add _)
  · exact length_pos_iff.mpr nonempty
  · exact .inl rfl
  · intro j x beyond found
    rw [List.getElem?_eq_none (by omega)] at found
    cases found

end Loop

/-- What a search says about the list. -/
def Located (compare : α → Ordering) (xs : List α) : Except Nat Nat → Prop
  | .ok index =>
    ∃ x, xs[index]? = some x ∧ compare x = .eq ∧ ∀ y ∈ xs.drop (index + 1), compare y = .gt
  | .error index =>
    index ≤ xs.length ∧ (∀ y ∈ xs.take index, compare y = .lt) ∧
      ∀ y ∈ xs.drop index, compare y = .gt

theorem exists_of_mem_drop (member : y ∈ xs.drop index) : ∃ j, index ≤ j ∧ xs[j]? = some y := by
  obtain ⟨i, found⟩ := mem_iff_getElem?.mp member
  rw [List.getElem?_drop] at found
  exact ⟨index + i, le_add_right _ _, found⟩

theorem exists_of_mem_take (member : y ∈ xs.take index) : ∃ j < index, xs[j]? = some y := by
  obtain ⟨i, found⟩ := mem_iff_getElem?.mp member
  rw [List.getElem?_take] at found
  split at found
  · exact ⟨i, ‹_›, found⟩
  · cases found

/-- In a list along which the comparison grows, the search finds the last match,
or the one place for it. -/
theorem binarySearchBy_located {compare : α → Ordering}
    (ascending : Ascending compare xs) : Located compare xs (binarySearchBy compare xs) := by
  rcases Decidable.em (xs = []) with rfl | nonempty
  · exact ⟨Nat.le_refl _, by simp, by simp⟩
  obtain ⟨inside, small, behind⟩ := lastSmall_searchBase ascending nonempty
  unfold binarySearchBy
  dsimp only
  generalize searchBase compare xs xs.length 0 xs.length = base at *
  have found := List.getElem?_eq_getElem inside
  have later : ∀ y ∈ xs.drop (base + 1), compare y = .gt := by
    intro y member
    obtain ⟨j, after, held⟩ := exists_of_mem_drop member
    exact behind j y after held
  rw [found]
  dsimp only
  split
  · rename_i equal
    exact ⟨_, found, equal, later⟩
  · -- The element is too small, so everything before it is.
    rename_i less
    refine ⟨inside, fun y member => ?_, later⟩
    obtain ⟨j, before, held⟩ := exists_of_mem_take member
    rcases Nat.lt_succ_iff_lt_or_eq.mp before with earlier | rfl
    · exact (ascending.getElem? earlier held found).1 less
    · rw [found] at held
      cases held
      exact less
  · -- Only the first element can be too large here.
    rename_i greater
    obtain rfl : base = 0 := small.resolve_right fun notLarge => notLarge _ found greater
    refine ⟨zero_le _, fun y member => ?_, fun y member => ?_⟩
    · cases member
    obtain ⟨j, -, held⟩ := exists_of_mem_drop member
    rcases Nat.eq_zero_or_pos j with rfl | positive
    · rw [found] at held
      cases held
      exact greater
    · exact behind j y positive held

/-! ## Keys and predicates -/

section Keys

variable {keyOf : α → Nat} {key : Nat}

theorem ascending_key (sorted : xs.Pairwise fun a b => keyOf a ≤ keyOf b) :
    Ascending (fun x => compare (keyOf x) key) xs := by
  apply sorted.imp
  intro a b le
  rw [Nat.compare_eq_lt, Nat.compare_eq_lt, Nat.compare_eq_gt, Nat.compare_eq_gt]
  omega

/-- A search by key that succeeds gives a match, in any list. -/
theorem binarySearchByKey_found (run : binarySearchByKey key keyOf xs = .ok index) :
    ∃ x, xs[index]? = some x ∧ keyOf x = key := by
  unfold binarySearchByKey binarySearchBy at run
  dsimp only at run
  split at run
  · cases run
  rename_i x found
  split at run
  · rename_i equal
    cases run
    exact ⟨x, found, Nat.compare_eq_eq.mp equal⟩
  · cases run
  · cases run

/-- A search by key in a sorted list that fails gives the place of the key. -/
theorem binarySearchByKey_error (sorted : xs.Pairwise fun a b => keyOf a ≤ keyOf b)
    (run : binarySearchByKey key keyOf xs = .error index) :
    index ≤ xs.length ∧ (∀ y ∈ xs.take index, keyOf y < key) ∧
      ∀ y ∈ xs.drop index, key < keyOf y := by
  have located : Located (fun x => compare (keyOf x) key) xs (binarySearchByKey key keyOf xs) :=
    binarySearchBy_located (ascending_key sorted)
  rw [run] at located
  obtain ⟨inside, before, behind⟩ := located
  exact ⟨inside, fun y member => Nat.compare_eq_lt.mp (before y member),
    fun y member => Nat.compare_eq_gt.mp (behind y member)⟩

theorem insertIdx_eq_append (inside : index ≤ xs.length) (x : α) :
    xs.insertIdx index x = xs.take index ++ x :: xs.drop index := by
  induction index generalizing xs with
  | zero => rfl
  | succ index ih =>
    cases xs with
    | nil => exact absurd inside (not_succ_le_zero _)
    | cons y ys =>
      rw [insertIdx_succ_cons, ih (le_of_succ_le_succ inside)]
      rfl

/-- A key that is not in a sorted list is inserted between the smaller and the
larger ones. -/
theorem insertIdx_placeOf (sorted : xs.Pairwise fun a b => keyOf a ≤ keyOf b)
    (absent : ∀ y ∈ xs, keyOf y ≠ key) (x : α) :
    ∃ front back, xs = front ++ back ∧
      xs.insertIdx (placeOf (binarySearchByKey key keyOf xs)) x = front ++ x :: back ∧
      (∀ y ∈ front, keyOf y < key) ∧ ∀ y ∈ back, key < keyOf y := by
  cases run : binarySearchByKey key keyOf xs with
  | ok index =>
    obtain ⟨y, found, same⟩ := binarySearchByKey_found run
    exact absurd same (absent y (mem_of_getElem? found))
  | error index =>
    obtain ⟨inside, before, behind⟩ := binarySearchByKey_error sorted run
    exact ⟨_, _, (take_append_drop index xs).symm, insertIdx_eq_append inside x, before, behind⟩

end Keys

end AetherKernel.Lib
