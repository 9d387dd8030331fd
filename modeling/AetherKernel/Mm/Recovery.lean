import AetherKernel.Lib.Locks
import AetherKernel.Mm.Buddy.Runs
import AetherKernel.Vfs.PageCache

/-!
# Recovery from exhausted memory

An allocation that finds no free block calls the registered handler, which
empties the page cache and gives its frames back.  The allocation holds the
lock of the frame allocator all the while, and each frame is given back through
that same lock.

Every CPU runs the calls that meet here, one instruction at a time: requests to
the frame allocator, the operations of the page cache, and the recovery that
the heap starts when it is full.
-/

namespace AetherKernel.Mm

open Lib LockMachine Mm.Buddy Vfs BuddyAllocator Function

/-- The spin locks of `FRAME_ALLOCATOR` and `PAGE_CACHE`. -/
inductive MemoryLock where
  | frameAllocator
  | pageCache
  deriving DecidableEq

/-- How the reads of a file end that fill a page. -/
inductive Loaded where
  | failed
  | bytes (read : Nat)
  deriving DecidableEq

/-- The steps of the code between two operations on a lock. -/
inductive MemoryEffect where
  | alloc (count : Nat)
  | recover (retry : Option Nat)
  | reclaim
  | endRecovery
  | again (count : Nat)
  | retain (frame : PhysFrame)
  | release (frame : PhysFrame) (count : Nat)
  | refCount (frame : PhysFrame)
  | copyCached (key : PageCacheKey)
  | contains (key : PageCacheKey)
  | invalidate (file : CachedFileId) (pages : Option (Nat × Nat))
  | fill (key : PageCacheKey) (loaded : Loaded)
  | insertPage (key : PageCacheKey) (frame : PhysFrame) (len : Nat)
  | makeRoom (key : PageCacheKey) (frame : PhysFrame) (len access : Nat)
  | dropDuplicate (frame : PhysFrame)
  deriving DecidableEq

abbrev MemoryInstr :=
  Instr MemoryLock MemoryEffect

/-- The calls a CPU can make.  The heap calls for a recovery after its first
attempt has failed. -/
inductive MemoryCall where
  | alloc (count : Nat)
  | retain (frame : PhysFrame)
  | release (frame : PhysFrame) (count : Nat)
  | refCount (frame : PhysFrame)
  | heapRecovery
  | copyCached (key : PageCacheKey)
  | contains (key : PageCacheKey)
  | invalidate (file : CachedFileId) (pages : Option (Nat × Nat))
  | loadPage (key : PageCacheKey) (loaded : Loaded)
  deriving DecidableEq

/-- What the CPUs share.  `result` is what the last `alloc` of a CPU returned,
and `inserted` the frame of the page that its last `insert_page` returned. -/
structure Memory (cap : Capacity) where
  allocator : BuddyAllocator cap
  recoveryActive : Bool
  cache : PageCacheState PhysFrame
  result : Nat → Option (Except FrameAllocError PhysFrame)
  inserted : Nat → Option PhysFrame

/-- `release_frames`. -/
def releaseFrames (frame : PhysFrame) (count : Nat) : List MemoryInstr :=
  critical .frameAllocator [.run (.release frame count)]

def MemoryCall.code : MemoryCall → List MemoryInstr
  | .alloc count => critical .frameAllocator [.run (.alloc count)]
  | .retain frame => critical .frameAllocator [.run (.retain frame)]
  | .release frame count => releaseFrames frame count
  | .refCount frame => critical .frameAllocator [.run (.refCount frame)]
  | .heapRecovery => [.run (.recover none)]
  | .copyCached key => critical .pageCache [.run (.copyCached key)]
  | .contains key => critical .pageCache [.run (.contains key)]
  | .invalidate file pages => critical .pageCache [.run (.invalidate file pages)]
  | .loadPage key loaded =>
    critical .frameAllocator [.run (.alloc 1)] ++ [.run (.fill key loaded)]

namespace Memory

variable {cap : Capacity}

/-- The start of the machine: a booted allocator and an empty cache. -/
def new (allocator : BuddyAllocator cap) : Memory cap :=
  { allocator := allocator
    recoveryActive := false
    cache := .new
    result := fun _ => none
    inserted := fun _ => none }

variable (memory : Memory cap)

def setResult (cpu : Nat) (outcome : Except FrameAllocError PhysFrame) : Memory cap :=
  { memory with result := update memory.result cpu (some outcome) }

/-- Whether `invalidate_file_range`, or `invalidate_all` without a range, drops
an entry. -/
def selects (file : CachedFileId) (pages : Option (Nat × Nat)) (key : PageCacheKey) : Bool :=
  decide (key.file = file) &&
    pages.all fun (first, last) => decide (first ≤ key.pageIndex ∧ key.pageIndex ≤ last)

/-- The frames of entries, given back one after the other. -/
def releaseEntries (entries : List (PageCacheKey × CachedPage PhysFrame)) : List MemoryInstr :=
  entries.flatMap fun entry => releaseFrames entry.2.frame 1

/-- Run a routine of the allocator whose result the caller drops. -/
def withAllocator {α : Type} (routine : Routine cap α) :
    Option (Effected MemoryLock MemoryEffect (Memory cap)) :=
  (routine memory.allocator).map fun outcome =>
    ⟨{ memory with allocator := outcome.2 }, none, []⟩

/-- `alloc_frame_4k` and what follows it.  The error stands as the result until
a second attempt replaces it. -/
def attempt (cpu count : Nat) (exhausted : List MemoryInstr) :
    Option (Effected MemoryLock MemoryEffect (Memory cap)) :=
  (allocFrame4kOnCpu cpu count memory.allocator).map fun outcome =>
    match outcome with
    | (.ok address, allocator) =>
      ⟨{ memory with allocator := allocator }.setResult cpu
        (.ok (PhysFrame.fromStartAddress address)), none, []⟩
    | (.error error, allocator) =>
      ⟨{ memory with allocator := allocator }.setResult cpu (.error error), none,
        if error = .outOfMemory then exhausted else []⟩

/-- `try_recover_from_oom`, and the second attempt of the allocation that called
it. -/
def recover (retry : Option Nat) : Effected MemoryLock MemoryEffect (Memory cap) :=
  if memory.recoveryActive then ⟨memory, none, []⟩
  else
    ⟨{ memory with recoveryActive := true }, none,
      [.run .reclaim, .run .endRecovery] ++ retry.toList.map fun count => .run (.again count)⟩

/-- `reclaim_page_cache`: when the lock of the cache is free, take it and the
entries, drop the lock, and give the frames back. -/
def reclaim (owner : MemoryLock → Option Nat) : Effected MemoryLock MemoryEffect (Memory cap) :=
  if owner .pageCache = none then
    ⟨{ memory with cache := .new }, some .pageCache,
      .unlock .pageCache :: releaseEntries memory.cache.entries⟩
  else ⟨memory, none, []⟩

/-- What `load_page` does once it has, or has not, a frame. -/
def fill (cpu : Nat) (key : PageCacheKey) (loaded : Loaded) : List MemoryInstr :=
  match memory.result cpu, loaded with
  | some (.ok frame), .failed => releaseFrames frame 1
  | some (.ok frame), .bytes read =>
    if read = 0 then releaseFrames frame 1
    else critical .pageCache [.run (.insertPage key frame read)] ++ [.run (.dropDuplicate frame)]
  | _, _ => []

/-- The start of `insert_page`: a page that is there stays. -/
def insertPage (cpu : Nat) (key : PageCacheKey) (frame : PhysFrame)
    (len : Nat) : Effected MemoryLock MemoryEffect (Memory cap) :=
  let (access, cache) := memory.cache.nextAccess
  match cache.find key with
  | some existing =>
    ⟨{ memory with
        cache := cache.touch key access
        inserted := update memory.inserted cpu (some existing.frame) }, none, []⟩
  | none => ⟨{ memory with cache }, none, [.run (.makeRoom key frame len access)]⟩

/-- The insertion at the place of the key, at the end of `insert_page`. -/
def settle (cpu : Nat) (key : PageCacheKey) (frame : PhysFrame)
    (len access : Nat) : Effected MemoryLock MemoryEffect (Memory cap) :=
  ⟨{ memory with
      cache.entries := PageCacheState.insertEntry memory.cache.entries key ⟨frame, len, access⟩
      inserted := update memory.inserted cpu (some frame) }, none, []⟩

/-- The loop of `insert_page` that evicts the page used longest ago. -/
def makeRoom (memory : Memory cap) (cpu : Nat) (key : PageCacheKey) (frame : PhysFrame)
    (len access : Nat) : Effected MemoryLock MemoryEffect (Memory cap) :=
  match PageCacheState.oldest memory.cache.entries with
  | some oldest =>
    if pageCacheMaxPages ≤ memory.cache.entries.length then
      ⟨{ memory with cache := memory.cache.evictOne.2 }, none,
        releaseFrames oldest.2.frame 1 ++ [.run (.makeRoom key frame len access)]⟩
    else memory.settle cpu key frame len access
  | none => memory.settle cpu key frame len access

/-- One effect on a CPU. -/
def perform (cpu : Nat) (effect : MemoryEffect) (owner : MemoryLock → Option Nat)
    (memory : Memory cap) : Option (Effected MemoryLock MemoryEffect (Memory cap)) :=
  match effect with
  | .alloc count => memory.attempt cpu count [.run (.recover (some count))]
  | .recover retry => some (memory.recover retry)
  | .reclaim => some (memory.reclaim owner)
  | .endRecovery => some ⟨{ memory with recoveryActive := false }, none, []⟩
  | .again count => memory.attempt cpu count []
  | .retain frame => memory.withAllocator (retain frame)
  | .release frame count => memory.withAllocator (release cpu frame count)
  | .refCount frame => memory.withAllocator (refCount frame)
  | .copyCached key => some ⟨{ memory with cache := (memory.cache.cachedPage key).2 }, none, []⟩
  | .contains _ => some ⟨memory, none, []⟩
  | .invalidate file pages =>
    some ⟨{ memory with
        cache.entries := memory.cache.entries.filter fun entry => !selects file pages entry.1 },
      none, releaseEntries (memory.cache.entries.filter fun entry => selects file pages entry.1)⟩
  | .fill key loaded => some ⟨memory, none, memory.fill cpu key loaded⟩
  | .insertPage key frame len => some (memory.insertPage cpu key frame len)
  | .makeRoom key frame len access => some (memory.makeRoom cpu key frame len access)
  | .dropDuplicate frame =>
    some ⟨memory, none, if memory.inserted cpu = some frame then [] else releaseFrames frame 1⟩

end Memory

end AetherKernel.Mm
