import AetherKernel.Mm.Buddy.Bootstrap

/-!
# Runs of the allocator

A run is any sequence of calls of the public operations with any arguments,
from any bootstrapped allocator.  Every call returns, and the invariant holds
after every call, whatever its result.
-/

namespace AetherKernel.Mm.Buddy

open Lib BuddyAllocator

variable {cap : Capacity} {a b : BuddyAllocator cap} {v : View}

/-- The public operations that change the allocator. -/
inductive Operation
  | allocFrame4kOnCpu (cpuId count : Nat)
  | retainFrame (block : Nat)
  | freeFrameOnCpu (cpuId block : Nat)
  | release (cpuId : Nat) (frame : PhysFrame) (count : Nat)
  deriving DecidableEq, Repr

/-- Call one operation; the unit result of a free is reported as zero. -/
def perform : Operation → Routine cap Nat
  | .allocFrame4kOnCpu cpuId count => allocFrame4kOnCpu cpuId count
  | .retainFrame block => retainFrame block
  | .freeFrameOnCpu cpuId block => do
      freeFrameOnCpu cpuId block
      pure 0
  | .release cpuId frame count => release cpuId frame count

/-- Call a sequence of operations, whatever each of them returns. -/
def performAll : List Operation → BuddyAllocator cap → Option (BuddyAllocator cap)
  | [], a => some a
  | operation :: rest, a =>
    match perform operation a with
    | none => none
    | some (_, b) => performAll rest b

theorem Invariant.of_valid {w : View} (invariant : Invariant a v)
    (config : b.config = a.config) (valid : Valid (usableFrames a.config.usableRanges) b w []) :
    Invariant b w := by
  constructor
  · rw [config]
    exact invariant.configured
  · rw [config]
    exact valid

variable (invariant : Invariant a v)
include invariant

theorem Invariant.of_edits {address : Nat} {accepts : Block → Prop} {result : Block → Nat}
    {change : Block → List Block} {outcome : Except FrameAllocError Nat}
    (edits : Edits (usableFrames a.usableRanges) a v address accepts result change outcome b) :
    ∃ w, Invariant b w ∧ Steady a v b w := by
  cases edits with
  | refused => exact ⟨v, invariant, .refl _ _⟩
  | edited _ _ _ valid steady => exact ⟨_, invariant.of_valid steady.config valid, steady⟩

/-- Every call returns and keeps the invariant, the configuration and the order of
the free lists. -/
theorem perform_steady (operation : Operation) :
    (perform operation).Returns a fun _ b => ∃ w, Invariant b w ∧ Steady a v b w := by
  have valid := invariant.valid
  cases operation with
  | allocFrame4kOnCpu cpuId count =>
    apply (allocFrame4kOnCpu_returns valid cpuId count).mono
    rintro outcome b (⟨_, w, _, reaches⟩ | ⟨_, w, _, valid', steady, _⟩)
    · exact ⟨w, invariant.of_valid reaches.config reaches.valid, reaches.steady⟩
    · exact ⟨w, invariant.of_valid steady.config valid', steady⟩
  | retainFrame block =>
    exact (retainFrame_returns valid block).mono fun _ _ => invariant.of_edits
  | freeFrameOnCpu cpuId block =>
    exact (freeFrameOnCpu_bind_returns valid cpuId block 0).mono fun _ _ => invariant.of_edits
  | release cpuId frame count =>
    exact (release_returns valid cpuId frame count).mono fun _ _ => invariant.of_edits

theorem perform_invariant (operation : Operation) :
    (perform operation).Returns a fun _ b => ∃ w, Invariant b w ∧ b.config = a.config := by
  apply (perform_steady invariant operation).mono
  rintro _ b ⟨w, invariant', steady⟩
  exact ⟨w, invariant', steady.config⟩

/-- Every run returns and ends in a state with the invariant and the same
configuration. -/
theorem performAll_steady (operations : List Operation) :
    ∃ b w, performAll operations a = some b ∧ Invariant b w ∧ Steady a v b w := by
  induction operations generalizing a v with
  | nil => exact ⟨a, v, rfl, invariant, .refl a v⟩
  | cons operation rest ih =>
    obtain ⟨outcome, b, run, w, invariant', steady⟩ := perform_steady invariant operation
    obtain ⟨c, x, runs, final, later⟩ := ih invariant'
    refine ⟨c, x, ?_, final, steady.trans later⟩
    rw [performAll, run]
    exact runs

theorem performAll_invariant (operations : List Operation) :
    ∃ b w, performAll operations a = some b ∧ Invariant b w ∧ b.config = a.config := by
  obtain ⟨b, w, run, invariant', steady⟩ := performAll_steady invariant operations
  exact ⟨b, w, run, invariant', steady.config⟩

end AetherKernel.Mm.Buddy
