import AetherKernel.Mm.FrameAllocator

/-!
# An allocator of single frames

Frames are handed out in the order of their addresses and are never used again.
It stands in for the frame allocator where a run on concrete values is followed.
-/

namespace AetherKernel.Mm

open Function

/-- The references to each frame; frames from `next` on were never handed out. -/
structure FramePool where
  counts : PhysFrame → Nat
  next : Nat

namespace FramePool

def new : FramePool :=
  ⟨fun _ => 0, 1⟩

def alloc (count : Nat) (pool : FramePool) : Except FrameAllocError PhysFrame × FramePool :=
  if count = 1 then
    (.ok ⟨pool.next * pageSize⟩, ⟨update pool.counts ⟨pool.next * pageSize⟩ 1, pool.next + 1⟩)
  else
    (.error .invalidCount, pool)

/-- Change the references to a frame. -/
def recount (pool : FramePool) (frame : PhysFrame) (count : Nat) :
    Except FrameAllocError Nat × FramePool :=
  (.ok count, { pool with counts := update pool.counts frame count })

def retain (frame : PhysFrame) (pool : FramePool) : Except FrameAllocError Nat × FramePool :=
  if pool.counts frame ≠ 0 then pool.recount frame (pool.counts frame + 1)
  else (.error .invalidFrame, pool)

def release (frame : PhysFrame) (count : Nat) (pool : FramePool) :
    Except FrameAllocError Nat × FramePool :=
  if pool.counts frame = 0 then (.error .refCountUnderflow, pool)
  else if count = 1 then pool.recount frame (pool.counts frame - 1)
  else (.error .invalidCount, pool)

instance : FrameAllocator FramePool where
  alloc := alloc
  retain := retain
  release := release
  refCount pool frame := some (pool.counts frame)

end FramePool

end AetherKernel.Mm
