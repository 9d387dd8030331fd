import AetherKernel.Lib.Linked
import AetherKernel.Mm.Frame
import Mathlib.Data.Nat.Log

/-!
# The buddy frame allocator

Metadata nodes live in a fixed pool and are threaded onto intrusive lists: one
list of allocated blocks, one sorted free list for each order, one cache list
for each CPU and small order, and the list of unused nodes.  The routines
below follow the allocator statement by statement.  A `while let` loop over a
list is a `Linked.scan` bounded by the size of the pool, so a walk along a
cyclic list does not return.
-/

namespace AetherKernel.Mm.Buddy

open Lib Function Exec Word

def maxOrderSlots : Nat :=
  64

def perCpuCacheMaxOrder : Nat :=
  4

/-- The largest value of the `u32` reference counts. -/
def refcountMax : Nat :=
  2 ^ 32 - 1

/-- The const generics of the allocator. -/
structure Capacity where
  maxUsableRanges : Nat
  maxCpus : Nat
  maxBlockNodes : Nat
  deriving DecidableEq, Repr

/-- The block a metadata node describes. -/
structure Block where
  start : Nat
  order : Nat
  refcount : Nat
  deriving DecidableEq, Repr

/-- A metadata node: its block and the link to the next node of its list. -/
structure BlockNode extends Block where
  next : Option Nat
  deriving DecidableEq, Repr

def BlockNode.empty : BlockNode :=
  { start := 0, order := 0, refcount := 0, next := none }

/-! ## Sizes and orders -/

variable (order : Nat)

def blockSize : Nat :=
  1 <<< order

def floorLog2 (value : Nat) : Nat :=
  Nat.log2 value

def ceilLog2 (value : Nat) : Nat :=
  if value ≤ 1 then 0 else Nat.log2 (value - 1) + 1

def orderForCount (count maxOrder : Nat) : Except FrameAllocError Nat :=
  if count = 0 then .error .invalidCount
  else if ceilLog2 count > maxOrder then .error .invalidCount
  else .ok (ceilLog2 count)

def refillBatch : Nat :=
  1 <<< (perCpuCacheMaxOrder - order)

def highWatermark : Nat :=
  refillBatch order * 2

/-- The loop of `max_fit_order`: lower the order until the start is aligned. -/
def alignedOrder (start : Nat) : Nat → Nat
  | 0 => 0
  | order + 1 =>
    if start % blockSize (order + 1) = 0 then order + 1 else alignedOrder start order

def maxFitOrder (start remaining maxOrder : Nat) : Nat :=
  alignedOrder start (min (floorLog2 remaining) maxOrder)

/-! ## Usable ranges -/

/-- A region of the boot memory map. -/
structure MemoryRegion where
  start : Nat
  len : Nat
  kind : Nat
  deriving DecidableEq, Repr

/-- `MemoryRegionKind::USABLE`. -/
def usableKind : Nat :=
  0

/-- Frame ranges as pairs of a first frame and a length. -/
abbrev RangeList :=
  List (Nat × Nat)

namespace RangeList

def totalFrames (entries : RangeList) : Except FrameAllocError Nat :=
  entries.foldlM (fun total entry =>
      match checkedAdd total entry.2 with
      | some sum => .ok sum
      | none => .error .invalidMemoryMap) 0

/-- The loop of `insert_merged_sorted` over the entries that follow the
insertion point: absorb them while they are adjacent. -/
def absorbNext (start : Nat) : Nat → RangeList → Except FrameAllocError (Nat × RangeList)
  | len, [] => .ok (len, [])
  | len, (nextStart, nextLen) :: rest =>
    match checkedAdd start len with
    | none => .error .invalidMemoryMap
    | some last =>
      if nextStart < last then .error .invalidMemoryMap
      else if nextStart ≠ last then .ok (len, (nextStart, nextLen) :: rest)
      else
        match checkedAdd len nextLen with
        | none => .error .invalidMemoryMap
        | some merged => absorbNext start merged rest

/-- The check of `insert_merged_sorted` against the entry before the insertion
point, which is removed when the new range continues it. -/
def absorbPrevious (before : RangeList) (start len : Nat) :
    Except FrameAllocError (RangeList × Nat × Nat) :=
  match before.getLast? with
  | none => .ok (before, start, len)
  | some (prevStart, prevLen) =>
    match checkedAdd prevStart prevLen with
    | none => .error .invalidMemoryMap
    | some prevEnd =>
      if start < prevEnd then .error .invalidMemoryMap
      else if start = prevEnd then
        match checkedAdd prevLen len with
        | none => .error .invalidMemoryMap
        | some merged => .ok (before.dropLast, prevStart, merged)
      else .ok (before, start, len)

def insertMergedSorted (cap : Nat) (entries : RangeList) (start len : Nat) :
    Except FrameAllocError RangeList :=
  if len = 0 then .ok entries
  else do
    let before := entries.takeWhile fun entry => entry.1 < start
    let after := entries.dropWhile fun entry => entry.1 < start
    let (before, start, len) ← absorbPrevious before start len
    let (len, after) ← absorbNext start len after
    if before.length + after.length = cap then .error .metadataExhausted
    else .ok (before ++ (start, len) :: after)

end RangeList

def collectUsableRanges (cap : Nat) :
    List MemoryRegion → RangeList → Except FrameAllocError RangeList
  | [], ranges => .ok ranges
  | region :: rest, ranges =>
    if region.kind ≠ usableKind then collectUsableRanges cap rest ranges
    else
      match checkedAdd region.start region.len with
      | none => .error .invalidMemoryMap
      | some regionEnd =>
        let first := alignUp region.start pageSize
        let last := alignDown regionEnd pageSize
        if last ≤ first then collectUsableRanges cap rest ranges
        else do
          let ranges ← RangeList.insertMergedSorted cap ranges (first >>> pageShift)
            ((last - first) >>> pageShift)
          collectUsableRanges cap rest ranges

/-! ## The allocator state -/

structure NodePool where
  nodes : Nat → BlockNode
  unusedHead : Option Nat
  unusedLen : Nat

structure PerCpuCache where
  heads : Nat → Option Nat
  lens : Nat → Nat

def PerCpuCache.new : PerCpuCache :=
  { heads := fun _ => none, lens := fun _ => 0 }

/-- Arrays of the source are functions here.  Counters and frame numbers are
natural numbers: no frame number reaches `2 ^ 52`, so their sums do not wrap. -/
structure BuddyAllocator (cap : Capacity) where
  totalFrames : Nat
  maxOrder : Nat
  cpuCount : Nat
  usableRanges : RangeList
  globalFreeHeads : Nat → Option Nat
  globalFreeLens : Nat → Nat
  allocationsHead : Option Nat
  allocationLen : Nat
  perCpu : Nat → PerCpuCache
  pool : NodePool

/-- The intrusive lists of the allocator. -/
inductive ListId
  | allocated
  | global (order : Nat)
  | cpu (cpuId order : Nat)
  | unused
  deriving DecidableEq, Repr

/-- Allocator routines. -/
abbrev Routine (cap : Capacity) (α : Type) :=
  Exec (BuddyAllocator cap) FrameAllocError α

namespace BuddyAllocator

variable {cap : Capacity} (a : BuddyAllocator cap)

def head : ListId → Option Nat
  | .allocated => a.allocationsHead
  | .global order => a.globalFreeHeads order
  | .cpu cpuId order => (a.perCpu cpuId).heads order
  | .unused => a.pool.unusedHead

def len : ListId → Nat
  | .allocated => a.allocationLen
  | .global order => a.globalFreeLens order
  | .cpu cpuId order => (a.perCpu cpuId).lens order
  | .unused => a.pool.unusedLen

def setCpu (cpuId : Nat) (cache : PerCpuCache) : BuddyAllocator cap :=
  { a with perCpu := update a.perCpu cpuId cache }

def setHead (k : ListId) (target : Option Nat) : BuddyAllocator cap :=
  match k with
  | .allocated => { a with allocationsHead := target }
  | .global order => { a with globalFreeHeads := update a.globalFreeHeads order target }
  | .cpu cpuId order =>
    a.setCpu cpuId { a.perCpu cpuId with heads := update (a.perCpu cpuId).heads order target }
  | .unused => { a with pool := { a.pool with unusedHead := target } }

def setLen (k : ListId) (count : Nat) : BuddyAllocator cap :=
  match k with
  | .allocated => { a with allocationLen := count }
  | .global order => { a with globalFreeLens := update a.globalFreeLens order count }
  | .cpu cpuId order =>
    a.setCpu cpuId { a.perCpu cpuId with lens := update (a.perCpu cpuId).lens order count }
  | .unused => { a with pool := { a.pool with unusedLen := count } }

/-- The metadata node at an index. -/
def node (i : Nat) : BlockNode :=
  a.pool.nodes i

def setNode (i : Nat) (value : BlockNode) : BuddyAllocator cap :=
  { a with pool := { a.pool with nodes := update a.pool.nodes i value } }

def setNext (i : Nat) (target : Option Nat) : BuddyAllocator cap :=
  a.setNode i { a.node i with next := target }

/-! ## Editing a list

Every list edit of the allocator is one of two assignment sequences: `link`
puts a node behind `previous`, or at the head when there is none, and `unlink`
takes the node behind `previous` out. -/

def redirect (k : ListId) (previous target : Option Nat) : BuddyAllocator cap :=
  match previous with
  | some last => a.setNext last target
  | none => a.setHead k target

def link (k : ListId) (previous successor : Option Nat) (i : Nat) : BuddyAllocator cap :=
  let inner := a.setNext i successor
  let outer := inner.redirect k previous (some i)
  outer.setLen k (outer.len k + 1)

def unlink (k : ListId) (previous : Option Nat) (i : Nat) : BuddyAllocator cap :=
  let outer := a.redirect k previous (a.node i).next
  let inner := outer.setNext i none
  inner.setLen k (inner.len k - 1)

def pushFront (k : ListId) (i : Nat) : Routine cap Unit :=
  modify fun a => a.link k none (a.head k) i

def popFront (k : ListId) : Routine cap (Option Nat) := do
  let a ← get
  match a.head k with
  | none => pure none
  | some i => do
      set (a.unlink k none i)
      pure (some i)

/-- Follow a list until `stop` holds of a node. -/
def scan (k : ListId) (stop : Nat → BlockNode → Bool) : Routine cap (Option Nat × Option Nat) := do
  let a ← get
  ofLoop (Linked.scan (fun i => (a.node i).next) (fun i => stop i (a.node i))
    cap.maxBlockNodes none (a.head k))

/-! ## Node pool -/

def hasUnused (need : Nat) : Bool :=
  need ≤ a.pool.unusedLen

def allocUnused : Routine cap Nat := do
  match ← popFront .unused with
  | none => throw .metadataExhausted
  | some index => pure index

def releaseUnused (index : Nat) : Routine cap Unit := do
  modify fun a => a.setNode index BlockNode.empty
  pushFront .unused index

/-- The pool with every node on the unused list. -/
def initPool (cap : Capacity) : NodePool :=
  { nodes := fun index =>
      { BlockNode.empty with
        next := if index + 1 < cap.maxBlockNodes then some (index + 1) else none }
    unusedHead := if cap.maxBlockNodes = 0 then none else some 0
    unusedLen := cap.maxBlockNodes }

/-! ## Per-CPU caches -/

def cpuPush (cpuId order nodeIndex : Nat) : Routine cap Unit := do
  modify fun a => a.setNode nodeIndex { a.node nodeIndex with order := order, refcount := 0 }
  pushFront (.cpu cpuId order) nodeIndex

def cpuPop (cpuId order : Nat) : Routine cap (Option Nat) :=
  popFront (.cpu cpuId order)

def checkedCpu (cpuId : Nat) : Routine cap Nat := do
  let a ← get
  if cpuId < a.cpuCount then pure cpuId else throw .invalidCpu

/-! ## Global free lists -/

def globalInsertSorted (order nodeIndex : Nat) : Routine cap Unit := do
  let a ← get
  let start := (a.node nodeIndex).start
  let found ← scan (.global order) fun _ current => decide (start ≤ current.start)
  if found.2.any fun current => (a.node current).start = start then
    throw .invalidFrame
  else
    set (a.link (.global order) found.1 found.2 nodeIndex)

def globalPopFirst (order : Nat) : Routine cap (Option Nat) :=
  popFront (.global order)

def globalRemoveByStart (order start : Nat) : Routine cap (Option Nat) := do
  let a ← get
  let found ← scan (.global order) fun _ current => decide (start ≤ current.start)
  match found.2 with
  | none => pure none
  | some nodeIndex =>
    if (a.node nodeIndex).start = start then do
      set (a.unlink (.global order) found.1 nodeIndex)
      pure (some nodeIndex)
    else
      pure none

/-- The search loop of `alloc_from_global`: the first order from `current` on
whose free list is not empty. -/
def searchOrder (a : BuddyAllocator cap) : Nat → Nat → Nat
  | 0, current => current
  | fuel + 1, current =>
    if current ≤ a.maxOrder ∧ (a.globalFreeHeads current).isNone then
      searchOrder a fuel (current + 1)
    else current

/-- One round of the splitting loop of `alloc_from_global`: give the upper half
of the block in hand to a fresh node on the free list of `order`. -/
def splitBlock (nodeIndex order : Nat) : Routine cap Unit := do
  let a ← get
  let buddyStart := (a.node nodeIndex).start + blockSize order
  let buddyIndex ← allocUnused
  modify fun a => a.setNode buddyIndex
    { start := buddyStart, order := order, refcount := 0, next := none }
  globalInsertSorted order buddyIndex
  modify fun a => a.setNode nodeIndex { a.node nodeIndex with order := order }

/-- The splitting loop of `alloc_from_global`, from `order + extra` down to
`order`. -/
def splitDown (nodeIndex order : Nat) : Nat → Routine cap Unit
  | 0 => pure ()
  | extra + 1 => do
      splitBlock nodeIndex (order + extra)
      splitDown nodeIndex order extra

def allocFromGlobal (order : Nat) : Routine cap Nat := do
  let a ← get
  let current := a.searchOrder (a.maxOrder + 1 - order) order
  if current > a.maxOrder then throw .outOfMemory
  else if !a.hasUnused (current - order) then throw .metadataExhausted
  else
    match ← globalPopFirst current with
    | none => stuck
    | some nodeIndex => do
        modify fun a => a.setNode nodeIndex { a.node nodeIndex with order := current }
        splitDown nodeIndex order (current - order)
        pure nodeIndex

/-- The merging loop of `free_global_block`: absorb free buddies while the
order stays below the maximum. -/
def mergeUp : Nat → Nat → Nat → Routine cap (Nat × Nat)
  | 0, block, order => pure (block, order)
  | fuel + 1, block, order => do
      match ← globalRemoveByStart order (block ^^^ blockSize order) with
      | some buddyIndex => do
          releaseUnused buddyIndex
          mergeUp fuel (min block (block ^^^ blockSize order)) (order + 1)
      | none => pure (block, order)

def freeGlobalBlock (nodeIndex : Nat) : Routine cap Unit := do
  let a ← get
  let merged ← mergeUp (a.maxOrder - (a.node nodeIndex).order)
    (a.node nodeIndex).start (a.node nodeIndex).order
  modify fun a => a.setNode nodeIndex
    { start := merged.1, order := merged.2, refcount := 0, next := none }
  globalInsertSorted merged.2 nodeIndex

/-! ## Allocation list -/

def markAllocated (nodeIndex order : Nat) : Routine cap Nat := do
  let a ← get
  if (a.node nodeIndex).refcount ≠ 0 then throw .invalidFrame
  else do
    set (a.setNode nodeIndex { a.node nodeIndex with order := order, refcount := 1 })
    pushFront .allocated nodeIndex
    pure (a.node nodeIndex).start

def findAllocationIndex (start : Nat) : Routine cap (Option Nat) := do
  let found ← scan .allocated fun _ current => decide (current.start = start)
  pure found.2

def removeAllocationNode (target : Nat) : Routine cap Unit := do
  let found ← scan .allocated fun i _ => decide (i = target)
  match found.2 with
  | none => throw .invalidFrame
  | some nodeIndex => modify fun a => a.unlink .allocated found.1 nodeIndex

/-! ## Refilling and draining the caches -/

/-- The loop of `refill_per_cpu_cache`, with the number of blocks still
wanted. -/
def refillLoop (cpuId order : Nat) : Nat → Routine cap Unit
  | 0 => pure ()
  | wanted + 1 => do
      match ← attempt (allocFromGlobal order) with
      | .ok nodeIndex => do
          cpuPush cpuId order nodeIndex
          refillLoop cpuId order wanted
      | .error .outOfMemory => pure ()
      | .error error => throw error

def refillPerCpuCache (cpuId order : Nat) : Routine cap Unit := do
  refillLoop cpuId order (refillBatch order)
  let a ← get
  if (a.perCpu cpuId).lens order = 0 then throw .outOfMemory else pure ()

/-- The loop of `drain_per_cpu_cache`, with the number of blocks above the low
mark. -/
def drainLoop (cpuId order : Nat) : Nat → Routine cap Unit
  | 0 => pure ()
  | excess + 1 => do
      match ← cpuPop cpuId order with
      | none => stuck
      | some nodeIndex => do
          freeGlobalBlock nodeIndex
          drainLoop cpuId order excess

def drainPerCpuCache (cpuId order : Nat) : Routine cap Unit := do
  let a ← get
  if (a.perCpu cpuId).lens order ≤ highWatermark order then pure ()
  else drainLoop cpuId order ((a.perCpu cpuId).lens order - refillBatch order)

/-! ## The public operations -/

def allocBlock (cpuId order : Nat) : Routine cap Nat := do
  let cpuId ← checkedCpu cpuId
  if order ≤ perCpuCacheMaxOrder then
    match ← cpuPop cpuId order with
    | some nodeIndex => pure nodeIndex
    | none => do
        refillPerCpuCache cpuId order
        match ← cpuPop cpuId order with
        | some nodeIndex => pure nodeIndex
        | none => allocFromGlobal order
  else allocFromGlobal order

def allocFrame4kOnCpu (cpuId count : Nat) : Routine cap Nat := do
  let a ← get
  let order ← ofExcept (orderForCount count a.maxOrder)
  let nodeIndex ← allocBlock cpuId order
  let block ← markAllocated nodeIndex order
  pure (block <<< pageShift % Word.size)

variable (block : Nat)

def frameNumberFromAddr : Except FrameAllocError Nat :=
  if block &&& (pageSize - 1) ≠ 0 then .error .invalidFrame
  else .ok (block >>> pageShift)

def retainFrame : Routine cap Nat := do
  let frame ← ofExcept (frameNumberFromAddr block)
  match ← findAllocationIndex frame with
  | none => throw .invalidFrame
  | some nodeIndex => do
      let a ← get
      if (a.node nodeIndex).refcount = refcountMax then throw .refCountOverflow
      else
        set (a.setNode nodeIndex
          { a.node nodeIndex with refcount := (a.node nodeIndex).refcount + 1 })
        pure ((a.node nodeIndex).refcount + 1)

/-- The end of `free_frame_on_cpu`, after the count of the node has gone to
zero. -/
def freeLast (cpuId order nodeIndex : Nat) : Routine cap Unit := do
  removeAllocationNode nodeIndex
  if order ≤ perCpuCacheMaxOrder then
    cpuPush cpuId order nodeIndex
    drainPerCpuCache cpuId order
  else freeGlobalBlock nodeIndex

def freeFrameOnCpu (cpuId block : Nat) : Routine cap Unit := do
  let cpuId ← checkedCpu cpuId
  let frame ← ofExcept (frameNumberFromAddr block)
  match ← findAllocationIndex frame with
  | none => throw .invalidFrame
  | some nodeIndex => do
      let a ← get
      if (a.node nodeIndex).refcount = 0 then throw .refCountUnderflow
      else
        set (a.setNode nodeIndex
          { a.node nodeIndex with refcount := (a.node nodeIndex).refcount - 1 })
        if (a.node nodeIndex).refcount - 1 ≠ 0 then pure ()
        else freeLast cpuId (a.node nodeIndex).order nodeIndex

variable (frame : PhysFrame)

def checkedAddrFromFrame : Except FrameAllocError Nat :=
  if isAligned frame.startAddress pageSize then .ok frame.startAddress
  else .error .invalidFrame

def ensureReleaseMatchesCount (count : Nat) : Routine cap Nat := do
  let a ← get
  let order ← ofExcept (orderForCount count a.maxOrder)
  match ← findAllocationIndex frame.index with
  | none => throw .invalidFrame
  | some nodeIndex =>
    if (a.node nodeIndex).order ≠ order then throw .invalidCount
    else pure (a.node nodeIndex).refcount

/-- `FrameAllocator::retain`. -/
def retain : Routine cap Nat := do
  let address ← ofExcept (checkedAddrFromFrame frame)
  retainFrame address

/-- `FrameAllocator::release`; `cpuId` is the CPU the caller runs on. -/
def release (cpuId : Nat) (frame : PhysFrame) (count : Nat) : Routine cap Nat := do
  let _ ← ofExcept (checkedAddrFromFrame frame)
  let current ← ensureReleaseMatchesCount frame count
  let address ← ofExcept (checkedAddrFromFrame frame)
  freeFrameOnCpu cpuId address
  pure (current - 1)

/-- `ref_count_for_addr`. -/
def refCountForAddr : Routine cap (Option Nat) := do
  match frameNumberFromAddr block with
  | .error _ => pure none
  | .ok frame =>
    match ← findAllocationIndex frame with
    | none => pure none
    | some nodeIndex => do
        let a ← get
        pure (some (a.node nodeIndex).refcount)

/-- `FrameAllocator::ref_count`. -/
def refCount : Routine cap (Option Nat) := do
  match checkedAddrFromFrame frame with
  | .error _ => pure none
  | .ok address => refCountForAddr address

/-! ## Bootstrap -/

/-- The loop of `seed_global_free_region`; every block takes at least one
frame, so the length of the region bounds the number of rounds. -/
def seedLoop : Nat → Nat → Nat → Routine cap Unit
  | _, _, 0 => pure ()
  | 0, _, _ + 1 => stuck
  | fuel + 1, start, remaining + 1 => do
      let a ← get
      let order := maxFitOrder start (remaining + 1) a.maxOrder
      let nodeIndex ← allocUnused
      modify fun a => a.setNode nodeIndex
        { start := start, order := order, refcount := 0, next := none }
      globalInsertSorted order nodeIndex
      seedLoop fuel (start + blockSize order) (remaining + 1 - blockSize order)

def seedGlobalFreeRegion (start remaining : Nat) : Routine cap Unit :=
  seedLoop remaining start remaining

/-- Seed the free lists from every usable range. -/
def seedRanges : RangeList → Routine cap Unit
  | [] => pure ()
  | (startFrame, frameCount) :: rest => do
      seedGlobalFreeRegion startFrame frameCount
      seedRanges rest

/-- The allocator before its free lists are seeded. -/
def fresh (cap : Capacity) (usableRanges : RangeList) (totalFrames cpuCount : Nat) :
    BuddyAllocator cap :=
  { totalFrames := totalFrames
    maxOrder := floorLog2 totalFrames
    cpuCount := cpuCount
    usableRanges := usableRanges
    globalFreeHeads := fun _ => none
    globalFreeLens := fun _ => 0
    allocationsHead := none
    allocationLen := 0
    perCpu := fun _ => PerCpuCache.new
    pool := initPool cap }

def initFromUsableRanges (cap : Capacity) (usableRanges : RangeList) (cpuCount : Nat) :
    Option (Except FrameAllocError (BuddyAllocator cap)) :=
  if cpuCount = 0 ∨ cpuCount > cap.maxCpus then some (.error .invalidCount)
  else
    match RangeList.totalFrames usableRanges with
    | .error error => some (.error error)
    | .ok totalFrames =>
      if totalFrames = 0 then some (.error .invalidMemoryMap)
      else if floorLog2 totalFrames ≥ maxOrderSlots then some (.error .invalidCount)
      else
        match seedRanges usableRanges (fresh cap usableRanges totalFrames cpuCount) with
        | none => none
        | some (.error error, _) => some (.error error)
        | some (.ok (), allocator) => some (.ok allocator)

def bootstrap (cap : Capacity) (memMap : List MemoryRegion) (cpuCount : Nat) :
    Option (Except FrameAllocError (BuddyAllocator cap)) :=
  if cpuCount = 0 ∨ cpuCount > cap.maxCpus then some (.error .invalidCount)
  else
    match collectUsableRanges cap.maxUsableRanges memMap [] with
    | .error error => some (.error error)
    | .ok usableRanges => initFromUsableRanges cap usableRanges cpuCount

end BuddyAllocator

end AetherKernel.Mm.Buddy
