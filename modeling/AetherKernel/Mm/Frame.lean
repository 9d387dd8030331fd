import AetherKernel.Lib.Exec
import AetherKernel.Lib.Word

/-!
# Frames and frame allocation errors

Physical frames are named by their start address; frame numbers are addresses
shifted right by the page shift.
-/

namespace AetherKernel.Mm

def pageShift : Nat :=
  12

def pageSize : Nat :=
  1 <<< pageShift

inductive FrameAllocError
  | invalidCount
  | outOfMemory
  | invalidFrame
  | invalidCpu
  | invalidMemoryMap
  | refCountOverflow
  | refCountUnderflow
  | metadataExhausted
  deriving DecidableEq, Repr

/-- A physical frame, by its start address. -/
structure PhysFrame where
  start : Nat
  deriving DecidableEq, Repr

namespace PhysFrame

def fromStartAddress (start : Nat) : PhysFrame :=
  ⟨start⟩

def startAddress (frame : PhysFrame) : Nat :=
  frame.start

/-- The frame number. -/
def index (frame : PhysFrame) : Nat :=
  frame.start >>> pageShift

end PhysFrame

/-- `PhysAddr::is_aligned`, for an alignment that is a power of two. -/
def isAligned (address align : Nat) : Bool :=
  address &&& (align - 1) == 0

theorem isAligned_pageSize_iff {address : Nat} :
    isAligned address pageSize = true ↔ pageSize ∣ address := by
  have mask : address &&& (pageSize - 1) = address % 2 ^ 12 :=
    Nat.and_two_pow_sub_one_eq_mod address 12
  rw [isAligned, beq_iff_eq, mask]
  exact (Nat.dvd_iff_mod_eq_zero).symm

/-! ## Rounding to pages -/

open Lib Word

theorem pageSize_eq : pageSize = 2 ^ pageShift :=
  rfl

/-- Rounding down is exact for every word. -/
theorem alignDown_pageSize {value : Nat} (bound : value < Word.size) :
    alignDown value pageSize = value / pageSize * pageSize := by
  rw [pageSize_eq]
  exact and_complement_two_pow bound (by decide)

/-- Rounding up wraps to zero past the last page. -/
theorem alignUp_pageSize (value : Nat) :
    alignUp value pageSize = (value + (pageSize - 1)) % Word.size / pageSize * pageSize := by
  rw [pageSize_eq]
  exact alignUp_two_pow (by decide)

end AetherKernel.Mm
