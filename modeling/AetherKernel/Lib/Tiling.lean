import Mathlib.Algebra.BigOperators.Ring.Finset

/-!
# Tilings of a finite space

A family of cells tiles a space when every point of the space lies in exactly
one cell and every cell lies in the space.  Cells may be empty, so splitting a
cell and merging two cells are both exchanges between two names of the family.
-/

namespace AetherKernel.Lib

variable {ι α : Type}

/-- Every point of the space is in exactly one cell. -/
structure Tiling (space : Finset α) (cells : ι → Finset α) : Prop where
  cover : ∀ x, x ∈ space ↔ ∃ i, x ∈ cells i
  unique : ∀ {i j x}, x ∈ cells i → x ∈ cells j → i = j

namespace Tiling

variable {space : Finset α} {cells cells' : ι → Finset α} (tiling : Tiling space cells) {i j : ι}

include tiling

theorem subset (i : ι) : cells i ⊆ space :=
  fun x member => (tiling.cover x).mpr ⟨i, member⟩

theorem disjoint (differ : i ≠ j) : Disjoint (cells i) (cells j) := by
  rw [Finset.disjoint_left]
  intro x first second
  exact differ (tiling.unique first second)

/-- Two cells may be replaced by two others with the same points, as long as
the new cells do not overlap. -/
theorem exchange (others : ∀ k, k ≠ i → k ≠ j → cells' k = cells k)
    (points : ∀ x, x ∈ cells' i ∨ x ∈ cells' j ↔ x ∈ cells i ∨ x ∈ cells j)
    (apart : i ≠ j → Disjoint (cells' i) (cells' j)) : Tiling space cells' := by
  -- A point of a new cell is a point of an old cell of the same kind.
  have origin : ∀ {k x}, x ∈ cells' k →
      (k = i ∨ k = j) ∧ (x ∈ cells i ∨ x ∈ cells j) ∨ (k ≠ i ∧ k ≠ j) ∧ x ∈ cells k := by
    intro k x member
    by_cases first : k = i
    · subst first
      exact .inl ⟨.inl rfl, (points x).mp (.inl member)⟩
    · by_cases second : k = j
      · subst second
        exact .inl ⟨.inr rfl, (points x).mp (.inr member)⟩
      · exact .inr ⟨⟨first, second⟩, others k first second ▸ member⟩
  constructor
  · intro x
    rw [tiling.cover x]
    constructor
    · rintro ⟨k, member⟩
      by_cases pair : k = i ∨ k = j
      · have old : x ∈ cells i ∨ x ∈ cells j := by
          rcases pair with rfl | rfl
          · exact .inl member
          · exact .inr member
        rcases (points x).mpr old with new | new
        · exact ⟨i, new⟩
        · exact ⟨j, new⟩
      · rw [not_or] at pair
        exact ⟨k, (others k pair.1 pair.2).symm ▸ member⟩
    · rintro ⟨k, member⟩
      rcases origin member with ⟨_, old | old⟩ | ⟨_, old⟩
      · exact ⟨i, old⟩
      · exact ⟨j, old⟩
      · exact ⟨k, old⟩
  · intro k l x first second
    rcases origin first with ⟨pair, old⟩ | ⟨outside, old⟩ <;>
      rcases origin second with ⟨pair', old'⟩ | ⟨outside', old'⟩
    · -- Both names are among the two exchanged ones.
      by_contra differ
      rcases pair with rfl | rfl <;> rcases pair' with rfl | rfl
      · exact differ rfl
      · exact Finset.disjoint_left.mp (apart differ) first second
      · exact Finset.disjoint_left.mp (apart (Ne.symm differ)) second first
      · exact differ rfl
    · rcases old with old | old
      · exact absurd (tiling.unique old' old) outside'.1
      · exact absurd (tiling.unique old' old) outside'.2
    · rcases old' with old' | old'
      · exact absurd (tiling.unique old old') outside.1
      · exact absurd (tiling.unique old old') outside.2
    · exact tiling.unique old old'

variable [DecidableEq α] [DecidableEq ι]

/-- Filling an empty cell with points outside the space extends the space. -/
theorem extend {fresh : Finset α} (empty : cells j = ∅) (outside : Disjoint space fresh) :
    Tiling (space ∪ fresh) (Function.update cells j fresh) := by
  have named : ∀ {k x}, x ∈ Function.update cells j fresh k ↔ k = j ∧ x ∈ fresh ∨ x ∈ cells k := by
    intro k x
    by_cases same : k = j
    · subst same
      simp [empty]
    · simp [same]
  constructor
  · intro x
    simp only [Finset.mem_union, tiling.cover x, named]
    constructor
    · rintro (⟨k, member⟩ | member)
      · exact ⟨k, .inr member⟩
      · exact ⟨j, .inl ⟨rfl, member⟩⟩
    · rintro ⟨k, ⟨_, member⟩ | member⟩
      · exact .inr member
      · exact .inl ⟨k, member⟩
  · intro k l x first second
    have separate : ∀ {k}, x ∈ cells k → x ∉ fresh := fun member =>
      Finset.disjoint_left.mp outside (tiling.subset _ member)
    rcases named.mp first with ⟨rfl, new⟩ | old <;> rcases named.mp second with ⟨rfl, new'⟩ | old'
    · rfl
    · exact absurd new (separate old')
    · exact absurd new' (separate old)
    · exact tiling.unique old old'

/-- The sizes of the cells add up to the size of the space. -/
theorem sum_card {keys : List ι} (nodup : keys.Nodup) (complete : ∀ i x, x ∈ cells i → i ∈ keys) :
    (keys.map fun i => (cells i).card).sum = space.card := by
  have points : space = keys.toFinset.biUnion cells := by
    ext x
    rw [tiling.cover x]
    simp only [Finset.mem_biUnion, List.mem_toFinset]
    constructor
    · rintro ⟨i, member⟩
      exact ⟨i, complete i x member, member⟩
    · rintro ⟨i, _, member⟩
      exact ⟨i, member⟩
  calc (keys.map fun i => (cells i).card).sum = ∑ i ∈ keys.toFinset, (cells i).card :=
      (List.sum_toFinset _ nodup).symm
    _ = (keys.toFinset.biUnion cells).card :=
      (Finset.card_biUnion fun i _ j _ differ => tiling.disjoint differ).symm
    _ = space.card := by rw [points]

end Tiling

end AetherKernel.Lib
