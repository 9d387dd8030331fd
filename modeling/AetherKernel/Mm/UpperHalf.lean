import AetherKernel.Mm.Mapper

/-!
# The upper half of a page table

The entries of the root from 256 on, and everything below them, are those of the
kernel.  An operation on an address of the lower half leaves them alone.
-/

namespace AetherKernel.Mm

open Lib

/-- The end of the lower canonical half. -/
def lowerHalfEnd : Nat :=
  0x800000000000

/-- Whether an entry belongs to the upper half. -/
def inUpperHalf (level path : Nat) : Prop :=
  256 ≤ path / 512 ^ level

instance (level path : Nat) : Decidable (inUpperHalf level path) :=
  inferInstanceAs (Decidable (256 ≤ path / 512 ^ level))

/-- The entries of the upper half. -/
def PageTable.upperHalf (table : PageTable) (level path : Nat) : Entry :=
  if inUpperHalf level path then table.entry level path else .absent

theorem pathAt_lower {virt : Nat} (low : virt < lowerHalfEnd) (level : Nat) :
    ¬inUpperHalf level (pathAt virt level) := by
  have steps : 2 ^ (39 - 9 * level) * 512 ^ level = 2 ^ (39 - 9 * level + 9 * level) := by
    rw [show 512 = 2 ^ 9 from rfl, ← Nat.pow_mul, ← Nat.pow_add]
  have enough : 2 ^ 39 ≤ 2 ^ (39 - 9 * level + 9 * level) :=
    Nat.pow_le_pow_right (by decide) (by omega)
  apply Nat.not_le_of_lt
  calc pathAt virt level / 512 ^ level
      ≤ virt / 2 ^ (39 - 9 * level) / 512 ^ level := Nat.div_le_div_right (Nat.mod_le _ _)
    _ = virt / 2 ^ (39 - 9 * level + 9 * level) := by rw [Nat.div_div_eq_div_mul, steps]
    _ ≤ virt / 2 ^ 39 := Nat.div_le_div_left enough (by decide)
    _ < 256 := Nat.div_lt_of_lt_mul low

namespace PageTable

variable {table : PageTable} {virt : Nat}

theorem upperHalf_setEntry (low : virt < lowerHalfEnd) (level : Nat) (value : Entry) :
    (table.setEntry level (pathAt virt level) value).upperHalf = table.upperHalf := by
  funext other path
  unfold upperHalf
  split
  · rename_i upper
    have different : ¬(other = level ∧ path = pathAt virt level) := by
      rintro ⟨rfl, rfl⟩
      exact pathAt_lower low other upper
    exact if_neg different
  · rfl

/-- The entries below an entry of the lower half belong to the lower half. -/
theorem upperHalf_clearBelow (low : virt < lowerHalfEnd) (level : Nat) :
    (table.clearBelow level (pathAt virt level)).upperHalf = table.upperHalf := by
  funext other path
  unfold upperHalf
  split
  · rename_i upper
    have different : ¬(other = level + 1 ∧ path / 512 = pathAt virt level) := by
      rintro ⟨rfl, below⟩
      apply pathAt_lower low level
      rw [inUpperHalf, ← below, Nat.div_div_eq_div_mul, Nat.mul_comm]
      exact upper
    exact if_neg different
  · rfl

end PageTable

section Keeps

variable {A α : Type} {virt : Nat}

def upperHalfOf (state : MapperState A) : Nat → Nat → Entry :=
  state.table.upperHalf

theorem keeps_withFrames (call : A → Except FrameAllocError α × A) :
    (withFrames call).Keeps upperHalfOf := by
  intro value state holds outcome after run
  unfold withFrames at run
  split at run
  all_goals
    cases run
    exact holds

theorem keeps_entryOf (level : Nat) : (entryOf (A := A) virt level).Keeps upperHalfOf :=
  .bind .get fun _ => .pure _

variable (low : virt < lowerHalfEnd)
include low

theorem keeps_setEntryOf (level : Nat) (value : Entry) :
    (setEntryOf (A := A) virt level value).Keeps upperHalfOf :=
  .modify fun _ => PageTable.upperHalf_setEntry low level value

theorem keeps_protectFrom (flags : MapFlags) (levels level : Nat) :
    (protectFrom (A := A) virt flags levels level).Keeps upperHalfOf := by
  induction levels generalizing level with
  | zero => exact .throw _
  | succ levels ih =>
    refine .bind (keeps_entryOf level) fun entry => ?_
    cases entry with
    | absent => exact .throw _
    | table frame user => exact ih _
    | leaf frame old => exact keeps_setEntryOf low _ _

variable [FrameAllocator A]

theorem keeps_descend (flags : MapFlags) (level : Nat) :
    (descend (A := A) virt flags level).Keeps upperHalfOf := by
  refine .bind (keeps_entryOf level) fun entry => ?_
  cases entry with
  | absent =>
    exact .bind (keeps_withFrames _) fun _ =>
      .bind (.modify fun _ => PageTable.upperHalf_clearBelow low level) fun _ =>
        keeps_setEntryOf low _ _
  | table frame user => exact .pure _
  | leaf frame old => exact .throw _

theorem keeps_descendAll (flags : MapFlags) (count level : Nat) :
    (descendAll (A := A) virt flags count level).Keeps upperHalfOf := by
  induction count generalizing level with
  | zero => exact .pure _
  | succ count ih => exact .bind (keeps_descend low flags level) fun _ => ih _

theorem keeps_map (frame : PhysFrame) (leafLevel : Nat) (flags : MapFlags) :
    (map (A := A) virt frame leafLevel flags).Keeps upperHalfOf := by
  unfold map
  dsimp only
  split
  · exact .throw _
  · refine .bind (keeps_descendAll low flags _ _) fun _ => .bind (keeps_entryOf _) fun entry => ?_
    cases entry with
    | absent => exact keeps_setEntryOf low _ _
    | table | leaf => exact .throw _

theorem keeps_pruneEmptyTables (level : Nat) :
    (pruneEmptyTables (A := A) virt level).Keeps upperHalfOf := by
  induction level with
  | zero => exact .pure _
  | succ level ih =>
    refine .bind .get fun state => ?_
    split
    · split
      · exact .bind (keeps_setEntryOf low _ _) fun _ => .bind (keeps_withFrames _) fun _ => ih
      · exact .throw _
    · exact .pure _

theorem keeps_unmapFrom (releaseFrame : Bool) (levels level : Nat) :
    (unmapFrom (A := A) virt releaseFrame levels level).Keeps upperHalfOf := by
  induction levels generalizing level with
  | zero => exact .throw _
  | succ levels ih =>
    refine .bind (keeps_entryOf level) fun entry => ?_
    cases entry with
    | absent => exact .throw _
    | table frame user => exact ih _
    | leaf frame old =>
      refine .bind (keeps_setEntryOf low _ _) fun _ => ?_
      split
      · exact .bind (keeps_withFrames _) fun _ =>
          .bind (keeps_pruneEmptyTables low _) fun _ => .pure _
      · exact .bind (keeps_pruneEmptyTables low _) fun _ => .pure _

end Keeps

end AetherKernel.Mm
