import AetherKernel.Mm.Buddy.Core
import Mathlib.Order.Interval.Finset.Nat

/-!
# Geometry of buddy blocks

A block of order `n` is a run of `2 ^ n` frames that starts at a multiple of
its size.  It falls into two halves of the order below, and together with its
buddy, found by flipping one bit of the start, it forms a block of the order
above.
-/

namespace AetherKernel.Mm.Buddy

open Nat

@[simp]
theorem blockSize_eq (order : Nat) : blockSize order = 2 ^ order := by
  simp [blockSize, shiftLeft_eq]

/-- The frames of the block of an order at a start frame. -/
def frames (start order : Nat) : Finset Nat :=
  Finset.Ico start (start + blockSize order)

variable {order frame : Nat} {start : Nat}

theorem mem_frames : frame ∈ frames start order ↔ start ≤ frame ∧ frame < start + 2 ^ order := by
  simp [frames]

theorem start_mem_frames (start order : Nat) : start ∈ frames start order :=
  mem_frames.mpr ⟨le_rfl, Nat.lt_add_of_pos_right (Nat.two_pow_pos _)⟩

@[simp]
theorem card_frames (start order : Nat) : (frames start order).card = 2 ^ order := by
  simp [frames]

/-- A block consists of its two halves. -/
theorem mem_frames_succ : frame ∈ frames start (order + 1) ↔
      frame ∈ frames start order ∨ frame ∈ frames (start + 2 ^ order) order := by
  simp only [mem_frames]
  omega

theorem aligned_half (aligned : 2 ^ (order + 1) ∣ start) :
    2 ^ order ∣ start ∧ 2 ^ order ∣ start + 2 ^ order := by
  have lower : 2 ^ order ∣ start := (pow_dvd_pow 2 (le_succ order)).trans aligned
  exact ⟨lower, Nat.dvd_add lower dvd_rfl⟩

/-- Flipping the bit of its size moves an aligned block to the other half of
the enclosing block. -/
theorem xor_blockSize (aligned : 2 ^ order ∣ start) :
    2 ^ (order + 1) ∣ start ∧ start ^^^ blockSize order = start + 2 ^ order ∨
      2 ^ order ≤ start ∧ 2 ^ (order + 1) ∣ start - 2 ^ order ∧
        start ^^^ blockSize order = start - 2 ^ order := by
  obtain ⟨q, rfl⟩ := aligned
  have flip : (2 ^ order * q) ^^^ blockSize order = 2 ^ order * (q ^^^ 1) := by
    have distributed := @shiftLeft_xor_distrib order q 1
    rw [shiftLeft_eq, shiftLeft_eq, shiftLeft_eq, one_mul] at distributed
    rw [blockSize_eq, mul_comm, mul_comm _ (q ^^^ 1), distributed]
  rw [flip]
  rcases even_or_odd q with even | odd
  · left
    rw [xor_one_of_even even]
    exact ⟨pow_succ 2 order ▸ mul_dvd_mul_left _ even.two_dvd, by ring⟩
  right
  obtain ⟨r, rfl⟩ := odd
  have lower : 2 ^ order * (2 * r + 1) - 2 ^ order = 2 ^ order * (2 * r) := by
    rw [mul_add, mul_one, Nat.add_sub_cancel]
  rw [lower, xor_one_of_odd (odd_two_mul_add_one r)]
  refine ⟨Nat.le_mul_of_pos_right _ (by omega), ?_, rfl⟩
  exact mul_dvd_mul_left _ (dvd_mul_right 2 r)

/-- An aligned block and its buddy make up the block of the next order that
starts at the lower of the two. -/
theorem mem_frames_merge (aligned : 2 ^ order ∣ start) :
    frame ∈ frames (min start (start ^^^ blockSize order)) (order + 1) ↔
      frame ∈ frames start order ∨ frame ∈ frames (start ^^^ blockSize order) order := by
  rcases xor_blockSize aligned with ⟨_, upper⟩ | ⟨room, _, lower⟩
  · rw [upper, min_eq_left (le_add_right _ _), mem_frames_succ]
  · rw [lower, min_eq_right (sub_le _ _), mem_frames_succ, Nat.sub_add_cancel room]
    exact or_comm

theorem aligned_merge (aligned : 2 ^ order ∣ start) :
    2 ^ (order + 1) ∣ min start (start ^^^ blockSize order) := by
  rcases xor_blockSize aligned with ⟨low, upper⟩ | ⟨_, low, lower⟩
  · rwa [upper, min_eq_left (le_add_right _ _)]
  · rwa [lower, min_eq_right (sub_le _ _)]

/-! ## Orders -/

theorem alignedOrder_le (start order : Nat) : alignedOrder start order ≤ order := by
  induction order with
  | zero => exact le_rfl
  | succ order ih =>
    rw [alignedOrder]
    split
    · exact le_rfl
    · exact ih.trans (le_succ order)

theorem two_pow_alignedOrder_dvd (start order : Nat) : 2 ^ alignedOrder start order ∣ start := by
  induction order with
  | zero => simp [alignedOrder]
  | succ order ih =>
    rw [alignedOrder]
    split
    · rename_i divides
      exact dvd_of_mod_eq_zero (blockSize_eq _ ▸ divides)
    · exact ih

theorem le_alignedOrder {bound : Nat} (within : order ≤ bound)
    (aligned : 2 ^ order ∣ start) : order ≤ alignedOrder start bound := by
  induction bound with
  | zero => exact within
  | succ bound ih =>
    rw [alignedOrder]
    split
    · exact within
    · rename_i ragged
      rcases eq_or_lt_of_le within with rfl | less
      · exact absurd (blockSize_eq _ ▸ mod_eq_zero_of_dvd aligned) ragged
      · exact ih (Nat.lt_succ_iff.mp less)

/-- The block carved off a region is aligned, fits the region and has a managed
order, and is the largest such block. -/
theorem maxFitOrder_spec (start maxOrder : Nat) {remaining : Nat} (nonempty : 0 < remaining) :
    maxFitOrder start remaining maxOrder ≤ maxOrder ∧
      2 ^ maxFitOrder start remaining maxOrder ∣ start ∧
      2 ^ maxFitOrder start remaining maxOrder ≤ remaining ∧
      ∀ order ≤ maxOrder, 2 ^ order ∣ start → 2 ^ order ≤ remaining →
        order ≤ maxFitOrder start remaining maxOrder := by
  have bound := alignedOrder_le start (min (floorLog2 remaining) maxOrder)
  refine ⟨bound.trans (min_le_right _ _), two_pow_alignedOrder_dvd _ _, ?_,
    fun order managed aligned fits => le_alignedOrder (le_min ?_ managed) aligned⟩
  swap
  · exact (le_log2 nonempty.ne').mpr fits
  calc 2 ^ maxFitOrder start remaining maxOrder ≤ 2 ^ floorLog2 remaining :=
      Nat.pow_le_pow_right (by decide) (bound.trans (min_le_left _ _))
    _ ≤ remaining := log2_self_le nonempty.ne'

end AetherKernel.Mm.Buddy
