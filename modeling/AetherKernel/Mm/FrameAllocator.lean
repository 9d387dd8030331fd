import AetherKernel.Mm.Frame

/-!
# Frame allocators

Page tables and address spaces are written against a trait; what is proved about
them holds with any allocator.
-/

namespace AetherKernel.Mm

/-- The trait `FrameAllocator`. -/
class FrameAllocator (A : Type) where
  alloc : Nat → A → Except FrameAllocError PhysFrame × A
  retain : PhysFrame → A → Except FrameAllocError Nat × A
  release : PhysFrame → Nat → A → Except FrameAllocError Nat × A
  refCount : A → PhysFrame → Option Nat

end AetherKernel.Mm
