import AetherKernel.Errno
import AetherKernel.Process.AddressSpace

/-!
# System calls on memory

`mmap`, `mremap`, `munmap`, `mprotect` and `brk` work on the address space and on a
list of regions, which remembers how each mapping was made so that it can be made
again elsewhere.  What a file answers is not fixed: each call is given the answers
that files have at that time.
-/

namespace AetherKernel.Process

open Lib Mm Exec Word

/-! ## Regions -/

inductive MmapRegionBacking where
  | anonymous
  | bufferedFile (file offset : Nat)
  | sharedFile (file offset : Nat)
  | directFile (file offset : Nat)
  deriving DecidableEq, Repr

structure MmapRegion where
  start : Nat
  stop : Nat
  pageFlags : MapFlags
  mmapFlags : Nat
  backing : MmapRegionBacking
  deriving DecidableEq, Repr

namespace MmapRegion

/-- `adjusted_mmap_backing`. -/
def adjustedBacking (backing : MmapRegionBacking) (delta : Nat) : MmapRegionBacking :=
  match backing with
  | .anonymous => .anonymous
  | .bufferedFile file offset => .bufferedFile file (saturatingAdd offset delta)
  | .sharedFile file offset => .sharedFile file (saturatingAdd offset delta)
  | .directFile file offset => .directFile file (saturatingAdd offset delta)

/-- `mmap_backing_is_mergeable`. -/
def mergeable (lhs rhs : MmapRegion) : Bool :=
  if lhs.stop ≠ rhs.start ∨ lhs.pageFlags ≠ rhs.pageFlags ∨ lhs.mmapFlags ≠ rhs.mmapFlags then
    false
  else
    match lhs.backing, rhs.backing with
    | .anonymous, .anonymous => true
    | .bufferedFile lhsFile lhsOffset, .bufferedFile rhsFile rhsOffset
    | .sharedFile lhsFile lhsOffset, .sharedFile rhsFile rhsOffset
    | .directFile lhsFile lhsOffset, .directFile rhsFile rhsOffset =>
      lhsFile == rhsFile && rhsOffset - lhsOffset == lhs.stop - lhs.start
    | _, _ => false

instance : Mergeable MmapRegion where
  fits := mergeable
  join lhs rhs := { lhs with stop := rhs.stop }

/-- The part of a region that starts later. -/
def tailFrom (region : MmapRegion) (start : Nat) : MmapRegion :=
  { region with
    start := start, backing := adjustedBacking region.backing (start - region.start) }

/-- What `update_mmap_region_flags` makes of one region. -/
def flagPieces (start stop : Nat) (pageFlags : MapFlags) (region : MmapRegion) : List MmapRegion :=
  if region.stop ≤ start ∨ stop ≤ region.start then [region]
  else
    (if region.start < start then [{ region with stop := start }] else []) ++
      { region.tailFrom (max region.start start) with
        stop := min region.stop stop, pageFlags := pageFlags } ::
        (if stop < region.stop then [region.tailFrom stop] else [])

/-- What `remove_mmap_region_range` leaves of one region. -/
def remainingPieces (start stop : Nat) (region : MmapRegion) : List MmapRegion :=
  if stop ≤ region.start ∨ region.stop ≤ start then [region]
  else
    (if region.start < start then [{ region with stop := start }] else []) ++
      (if stop < region.stop then [region.tailFrom stop] else [])

end MmapRegion

namespace MmapRegions

variable (regions : List MmapRegion)

/-- `insert_mmap_region`. -/
def insert (region : MmapRegion) : List MmapRegion :=
  let index := placeOf (binarySearchByKey region.start MmapRegion.start regions)
  mergeNeighborsAround (regions.insertIdx index region) index

/-- `update_mmap_region_flags`. -/
def updateFlags (start stop : Nat) (pageFlags : MapFlags) : List MmapRegion :=
  coalesce (regions.flatMap (MmapRegion.flagPieces start stop pageFlags))

/-- `remove_mmap_region_range`. -/
def removeRange (start stop : Nat) : List MmapRegion :=
  coalesce (regions.flatMap (MmapRegion.remainingPieces start stop))

/-- `covering_mmap_region`.  The element before the partition point is taken even
when there is none, which panics. -/
def covering (start stop : Nat) : Option (Option MmapRegion) :=
  match partitionPoint (fun region : MmapRegion => region.start ≤ start) regions with
  | 0 => none
  | index + 1 => regions[index]?.map fun region => if stop ≤ region.stop then some region else none

/-- `slice_mmap_region`. -/
def slice (start stop : Nat) : Option (Option MmapRegion) :=
  (covering regions start stop).map fun found =>
    found.map fun region => { region.tailFrom start with stop := stop }

end MmapRegions

/-! ## Calls -/

inductive MmapCachePolicy where
  | cached
  | uncached
  | writeThrough
  deriving DecidableEq, Repr

inductive MmapKind where
  | buffered
  | directPhysical (physicalAddress : BitVec 64) (cachePolicy : MmapCachePolicy)
  | sharedPhysical (physicalPages : List (BitVec 64)) (cachePolicy : MmapCachePolicy)

structure MmapRequest where
  offset : Nat
  length : Nat
  prot : Nat
  flags : Nat

/-- The open files of the process, by descriptor, and what they answer. -/
structure Files where
  descriptor : Nat → Option Nat
  mmap : Nat → MmapRequest → Except SysErr MmapKind
  size : Nat → Nat
  image : Nat → Option ProgramImageSource

/-- The memory of a process. -/
structure ProcessMemory (A : Type) where
  space : Space A
  mmapRegions : List MmapRegion

abbrev MemoryM (A α : Type) : Type :=
  Exec (ProcessMemory A) SysErr α

/-- `From<BuildError> for SysErr`. -/
def SysErr.ofBuild : BuildError → SysErr
  | .frame _ => .noMem
  | .map .outOfMemory | .map (.frame _) => .noMem
  | .map .alreadyMapped => .exists
  | .map .notMapped => .fault
  | _ => .inval

section Calls

variable {A α : Type} [FrameAllocator A]

/-- Call the address space. -/
def onSpace (call : SpaceM A α) : MemoryM A α :=
  fun memory =>
    match call memory.space with
    | none => none
    | some (result, space) =>
      some (result.mapError SysErr.ofBuild, { memory with space := space })

def modifyRegions (update : List MmapRegion → List MmapRegion) : MemoryM A Unit :=
  modify fun memory => { memory with mmapRegions := update memory.mmapRegions }

/-- `len.div_ceil(PAGE_SIZE) * PAGE_SIZE`. -/
def roundToPages (len : Nat) : Nat :=
  (len + (pageSize - 1)) / pageSize * pageSize % Word.size

def mmapPageFlags (prot : Nat) : MapFlags :=
  let pageFlags := MapFlags.read.union .user
  let pageFlags := if hasFlag prot 0x2 then pageFlags.union .write else pageFlags
  if hasFlag prot 0x4 then pageFlags.union .execute else pageFlags

def recordMmapRegion (start len : Nat) (pageFlags : MapFlags) (mmapFlags : Nat)
    (backing : MmapRegionBacking) : MemoryM A Unit :=
  modifyRegions fun regions => MmapRegions.insert regions
    ⟨start, saturatingAdd start (roundToPages len), pageFlags, mmapFlags, backing⟩

def deviceFlags : MmapCachePolicy → MapFlags
  | .cached => .empty
  | .uncached => .noCache
  | .writeThrough => .writeThrough

variable (files : Files)

def mapBufferedFile (file address len flags : Nat) (pageFlags : MapFlags)
    (offset : Nat) : MemoryM A Nat :=
  let size := files.size file
  let start := min offset size
  let stop := min (saturatingAdd start len) size
  match files.image file with
  | none => throw .inval
  | some source =>
    onSpace (mmapLazyImage address len flags pageFlags source start (stop - start))

/-- Map the file in the way it asks for, and say how that was. -/
def mapFileAs (file address len flags : Nat) (pageFlags : MapFlags)
    (offset : Nat) : MmapKind → MemoryM A (Nat × MmapRegionBacking)
  | .buffered => do
      let mapped ← mapBufferedFile files file address len flags pageFlags offset
      return (mapped, .bufferedFile file offset)
  | .directPhysical physicalAddress cachePolicy => do
      let mapped ← onSpace (mmapPhysical address len flags
        (pageFlags.union (deviceFlags cachePolicy)) physicalAddress.toNat)
      return (mapped, .directFile file offset)
  | .sharedPhysical physicalPages cachePolicy => do
      let mapped ← onSpace (mmapSharedPhysical address len flags
        (pageFlags.union (deviceFlags cachePolicy)) (physicalPages.map BitVec.toNat))
      return (mapped, .sharedFile file offset)

def mapFileRegion (file address len prot flags offset : Nat)
    (recordRegion : Bool) : MemoryM A Nat := do
  if offset % pageSize ≠ 0 then
    throw .inval
  else
    let pageFlags := mmapPageFlags prot
    let kind ← ofExcept (files.mmap file ⟨offset, len, prot, flags⟩)
    let (mapped, backing) ← mapFileAs files file address len flags pageFlags offset kind
    if recordRegion then
      recordMmapRegion mapped len pageFlags flags backing
      return mapped
    else
      return mapped

def mapAnonymousRegion (address len prot flags : Nat) (recordRegion : Bool) : MemoryM A Nat := do
  let pageFlags := mmapPageFlags prot
  let mapped ← onSpace (mmapAnonymous address len flags pageFlags)
  if recordRegion then
    recordMmapRegion mapped len pageFlags flags .anonymous
    return mapped
  else
    return mapped

def sysMmap (address len prot flags fd offset : Nat) : MemoryM A Nat :=
  if hasFlag flags mapAnonymous then mapAnonymousRegion address len prot flags true
  else
    match files.descriptor (fd % 2 ^ 32) with
    | none => throw .badFd
    | some file => mapFileRegion files file address len prot flags offset true

def sysMprotect (address len prot : Nat) : MemoryM A Nat := do
  let pageFlags := mmapPageFlags prot
  onSpace (mprotect address len pageFlags)
  if len ≠ 0 then
    modifyRegions fun regions => MmapRegions.updateFlags regions address
      (saturatingAdd address (roundToPages len)) pageFlags
    return 0
  else
    return 0

def sysMunmap (address len : Nat) : MemoryM A Nat := do
  onSpace (munmap address len)
  if len ≠ 0 then
    modifyRegions fun regions => MmapRegions.removeRange regions address
      (saturatingAdd address (roundToPages len))
    return 0
  else
    return 0

def sysBrk (address : Nat) : MemoryM A Nat :=
  onSpace (brk address)

end Calls

/-! ## `mremap` -/

def mremapMaymove : Nat := 0x1
def mremapFixed : Nat := 0x2
def mremapDontunmap : Nat := 0x4
def mapShared : Nat := 0x1
def copyChunk : Nat := 64 * 1024

section Mremap

variable {A : Type} [FrameAllocator A]

def mmapProtFromPageFlags (flags : MapFlags) : Nat :=
  0x1 ||| (if flags.contains .write then 0x2 else 0) |||
    (if flags.contains .execute then 0x4 else 0)

variable (files : Files)

def mapRegionBacking (region : MmapRegion) (address len offsetDelta : Nat)
    (fixed : Bool) : MemoryM A Nat :=
  let flags := if fixed then region.mmapFlags ||| mapFixed else region.mmapFlags
  let prot := mmapProtFromPageFlags region.pageFlags
  match region.backing with
  | .anonymous => mapAnonymousRegion address len prot flags false
  | .bufferedFile file offset | .sharedFile file offset | .directFile file offset =>
    mapFileRegion files file address len prot flags (saturatingAdd offset offsetDelta) false

/-- The loop of `copy_user_range`, with the number of chunks that are left. -/
def copyUserRange (src dst len : Nat) : Nat → Nat → MemoryM A Unit
  | 0, _ => pure ()
  | turns + 1, copied => do
      if len ≤ copied then
        return
      else
        let chunk := min (len - copied) copyChunk
        let bytes ← onSpace (read (saturatingAdd src copied) chunk)
        if bytes.length ≠ chunk then
          throw .fault
        else
          let written ← onSpace (write (saturatingAdd dst copied) bytes)
          if written ≠ chunk then throw .fault
          else copyUserRange src dst len turns (saturatingAdd copied chunk)

variable (region : MmapRegion)

def shouldCopyData : Bool :=
  match region.backing with
  | .anonymous | .bufferedFile _ _ => true
  | _ => false

def cleanupMremapTarget (address len : Nat) : MemoryM A Unit := do
  let _ ← attempt (onSpace (munmap address len))
  modifyRegions fun regions =>
    MmapRegions.removeRange regions address (saturatingAdd address len)

/-- Copy the contents; a target that is read-only is made writable for the time. -/
def copyMapping (oldAddress target copyLen : Nat) : MemoryM A Unit := do
  if region.pageFlags.contains .write || copyLen == 0 then
    copyUserRange oldAddress target copyLen (copyLen / copyChunk + 1) 0
  else
    onSpace (mprotect target copyLen (region.pageFlags.union .write))
    copyUserRange oldAddress target copyLen (copyLen / copyChunk + 1) 0
    onSpace (mprotect target copyLen region.pageFlags)

/-- Everything between the new mapping and the update of the regions. -/
def transferMapping (oldAddress oldSize newSize oldLen flags target : Nat) : MemoryM A Unit := do
  if shouldCopyData region && region.pageFlags.contains .read then
    copyMapping region oldAddress target (min oldSize newSize)
    if hasFlag flags mremapDontunmap then return else onSpace (munmap oldAddress oldLen)
  else
    if hasFlag flags mremapDontunmap then return else onSpace (munmap oldAddress oldLen)

/-- A mapping gets a new place; when something fails, the place is given back. -/
def moveMapping (region : MmapRegion)
    (oldAddress oldSize newSize oldLen newLen flags newAddress : Nat) : MemoryM A Nat := do
  let fixed := hasFlag flags mremapFixed
  let target ← mapRegionBacking files region (if fixed then newAddress else 0) newLen 0 fixed
  match ← attempt (transferMapping region oldAddress oldSize newSize oldLen flags target) with
  | .error error =>
    cleanupMremapTarget target newLen
    throw error
  | .ok () =>
    modifyRegions fun regions =>
      MmapRegions.insert (MmapRegions.removeRange
          (MmapRegions.removeRange regions target (saturatingAdd target newLen))
          oldAddress (saturatingAdd oldAddress oldLen))
        { region with start := target, stop := saturatingAdd target newLen }
    return target

/-- The region keeps its start and gets another length. -/
def resizeRegion (oldAddress oldEnd newLen : Nat) : MemoryM A Unit :=
  modifyRegions fun regions =>
    MmapRegions.insert (MmapRegions.removeRange regions oldAddress oldEnd)
      { region with start := oldAddress, stop := saturatingAdd oldAddress newLen }

/-- The checks of the arguments. -/
def mremapAccepts (oldAddress oldSize newSize flags newAddress : Nat) : Bool :=
  !hasFlag flags (Word.complement (mremapMaymove ||| mremapFixed ||| mremapDontunmap)) &&
    !(hasFlag flags mremapDontunmap && !hasFlag flags mremapMaymove) &&
    !(oldSize == 0 || newSize == 0 || oldAddress % pageSize != 0) &&
    (if hasFlag flags mremapFixed then
      !(!hasFlag flags mremapMaymove || newAddress == 0 || newAddress % pageSize != 0)
    else newAddress == 0) &&
    !(hasFlag flags mremapDontunmap && roundToPages oldSize != roundToPages newSize)

def isPrivateAnonymous : Bool :=
  region.backing == .anonymous && !hasFlag region.mmapFlags mapShared

/-- What is done once the region is known. -/
def mremapRegion (region : MmapRegion)
    (oldAddress oldSize newSize flags newAddress : Nat) : MemoryM A Nat := do
  let oldLen := roundToPages oldSize
  let newLen := roundToPages newSize
  let oldEnd := saturatingAdd oldAddress oldLen
  let fixed := hasFlag flags mremapFixed
  let dontunmap := hasFlag flags mremapDontunmap
  let memory ← Exec.get
  if dontunmap && !isPrivateAnonymous region then
    throw .inval
  else if newLen == oldLen && !dontunmap && (!fixed || newAddress == oldAddress) then
    return oldAddress
  else if fixed && decide (newAddress < oldEnd) &&
      decide (oldAddress < saturatingAdd newAddress newLen) then
    throw .inval
  else if !fixed && decide (newLen < oldLen) then
    onSpace (munmap (saturatingAdd oldAddress newLen) (oldLen - newLen))
    resizeRegion region oldAddress oldEnd newLen
    return oldAddress
  else if !fixed && decide (oldLen < newLen) &&
      Vmas.isRangeFree memory.space.vmas oldEnd (newLen - oldLen) then
    let _ ← mapRegionBacking files region oldEnd (newLen - oldLen) oldLen true
    resizeRegion region oldAddress oldEnd newLen
    return oldAddress
  else if !hasFlag flags mremapMaymove then
    throw .noMem
  else
    moveMapping files region oldAddress oldSize newSize oldLen newLen flags newAddress

def sysMremap (oldAddress oldSize newSize flags newAddress : Nat) : MemoryM A Nat := do
  if mremapAccepts oldAddress oldSize newSize flags newAddress then
    let memory ← Exec.get
    let found ← ofLoop (MmapRegions.slice memory.mmapRegions oldAddress
      (saturatingAdd oldAddress (roundToPages oldSize)))
    match found with
    | none => throw .fault
    | some region => mremapRegion files region oldAddress oldSize newSize flags newAddress
  else
    throw .inval

end Mremap

/-! ## Everything that a process asks for -/

/-- A call or a fault of a process; the words are arbitrary. -/
inductive Syscall where
  | mmap (files : Files) (address len prot flags fd offset : BitVec 64)
  | mremap (files : Files) (oldAddress oldSize newSize flags newAddress : BitVec 64)
  | mprotect (address len prot : BitVec 64)
  | munmap (address len : BitVec 64)
  | brk (address : BitVec 64)
  | pageFault (address errorCode : BitVec 64)
  | read (address : BitVec 64) (len : Nat)
  | write (address : BitVec 64) (bytes : List Byte)

/-- The state after a call that returns, with or without an error. -/
def Syscall.perform {A : Type} [FrameAllocator A] (memory : ProcessMemory A) :
    Syscall → Option (ProcessMemory A)
  | .mmap files address len prot flags fd offset =>
    (sysMmap files address.toNat len.toNat prot.toNat flags.toNat fd.toNat offset.toNat
      memory).map Prod.snd
  | .mremap files oldAddress oldSize newSize flags newAddress =>
    (sysMremap files oldAddress.toNat oldSize.toNat newSize.toNat flags.toNat newAddress.toNat
      memory).map Prod.snd
  | .mprotect address len prot =>
    (sysMprotect address.toNat len.toNat prot.toNat memory).map Prod.snd
  | .munmap address len => (sysMunmap address.toNat len.toNat memory).map Prod.snd
  | .brk address => (sysBrk address.toNat memory).map Prod.snd
  | .pageFault address errorCode =>
    (onSpace (handlePageFault address.toNat errorCode.toNat) memory).map Prod.snd
  | .read address len => (onSpace (Process.read address.toNat len) memory).map Prod.snd
  | .write address bytes => (onSpace (Process.write address.toNat bytes) memory).map Prod.snd

end AetherKernel.Process
