import AetherKernel.Process.Vma

/-!
# User address spaces

The mutable state is the machine, that is the frame allocator and the contents of
frames, together with one address space.  Every method runs under the lock of the
address space.  A method that fails keeps what it did before.
-/

namespace AetherKernel.Process

open Lib Mm Exec Word Vmas FrameAllocator

inductive BuildError where
  | emptyProgram
  | addressOverflow
  | stackOverflow
  | invalidElf
  | unsupportedElf
  | image (error : ImageError)
  | map (error : MappingError)
  | frame (error : FrameAllocError)
  deriving DecidableEq, Repr

def BuildError.ofImage : ImageError → BuildError
  | .invalidElf => .invalidElf
  | .unsupportedElf => .unsupportedElf
  | other => .image other

structure UserAddressSpaceLayout where
  regionBase : Nat
  regionAlign : Nat
  pieBase : Nat
  interpreterBase : Nat
  stackEnd : Nat
  mmapTop : Nat
  brkReserve : Nat
  defaultElfStackPages : Nat

def UserAddressSpaceLayout.current : UserAddressSpaceLayout where
  regionBase := 0x40000000
  regionAlign := 0x200000
  pieBase := 0x600000000000
  interpreterBase := 0x6ff000000000
  stackEnd := 0x700000000000
  mmapTop := 0x6ff000000000 - 0x200000
  brkReserve := 16 * 1024 * 1024
  defaultElfStackPages := 64

structure UserMapping where
  virt : Nat
  frame : PhysFrame
  flags : MapFlags
  cow : Bool
  owned : Bool
  shared : Bool
  deriving DecidableEq, Repr

structure UserAddressSpaceInner extends layout : UserAddressSpaceLayout where
  table : PageTable
  stackBase : Nat
  mappings : List UserMapping
  vmas : List UserVma
  brkStart : Nat
  brkCurrent : Nat
  brkLimit : Nat

/-- What all address spaces share: the allocator, the contents of the frames and
the upper half of the page table that is active. -/
structure Machine (A : Type) where
  frames : A
  memory : PhysFrame → Nat → Byte
  kernel : Nat → Nat → Entry

structure Space (A : Type) extends machine : Machine A, inner : UserAddressSpaceInner

abbrev SpaceM (A α : Type) : Type :=
  Exec (Space A) BuildError α

section Frames

variable {A α : Type} [FrameAllocator A]

/-- Use the page table of the address space. -/
def withMapper (call : MapperM A α) : SpaceM A α :=
  fun state =>
    match call ⟨state.frames, state.table⟩ with
    | none => none
    | some (result, after) =>
      some (result.mapError BuildError.map,
        { state with frames := after.frames, table := after.table })

/-- Call the allocator. -/
def callFrames (call : A → Except FrameAllocError α × A) : SpaceM A α :=
  fun state =>
    let (result, frames) := call state.frames
    some (result.mapError BuildError.frame, { state with frames })

variable (frame : PhysFrame)

/-- `release_frames` and the releases whose result is dropped. -/
def releaseFrame : SpaceM A Unit := do
  let _ ← attempt (callFrames (release frame 1))
  return

def setMemory (contents : Nat → Byte) : SpaceM A Unit :=
  modify fun state => { state with memory := Function.update state.memory frame contents }

/-- The contents with `bytes` at an offset. -/
def overlay (contents : Nat → Byte) (offset : Nat) (bytes : List Byte) : Nat → Byte :=
  fun position =>
    if offset ≤ position then (bytes[position - offset]?).getD (contents position)
    else contents position

def writeFrame (offset : Nat) (bytes : List Byte) : SpaceM A Unit := do
  let state ← Exec.get
  setMemory frame (overlay (state.memory frame) offset bytes)

def modifyInner (update : UserAddressSpaceInner → UserAddressSpaceInner) : SpaceM A Unit :=
  modify fun state => { state with inner := update state.inner }

def inner : SpaceM A UserAddressSpaceInner := do
  let state ← Exec.get
  return state.inner

end Frames

/-! ## Mappings -/

variable (mappings : List UserMapping)

def mappingIndex (address : Nat) : Option Nat :=
  match binarySearchByKey (alignDown address pageSize) UserMapping.virt mappings with
  | .ok index => some index
  | .error _ => none

def mappingOf (address : Nat) : Option UserMapping :=
  (mappingIndex mappings address).bind fun index => mappings[index]?

/-- `insert_mapping`. -/
def insertMapping (mapping : UserMapping) : List UserMapping :=
  mappings.insertIdx (placeOf (binarySearchByKey mapping.virt UserMapping.virt mappings)) mapping

/-- The multiples of the page size below a length. -/
def pageOffsets (len : Nat) : List Nat :=
  (List.range (len / pageSize)).map (· * pageSize)

section Pages

variable {A : Type} [FrameAllocator A]

def allocateZeroedOwnedFrame : SpaceM A PhysFrame := do
  let frame ← callFrames (alloc 1)
  setMemory frame fun _ => 0
  return frame

variable (addr : Nat)

/-- `map_owned_frame`: the frame is released when it cannot be mapped. -/
def mapOwnedFrame (frame : PhysFrame) (flags : MapFlags) : SpaceM A Unit := do
  match ← attempt (withMapper (map addr frame 3 flags)) with
  | .error error =>
    releaseFrame frame
    throw error
  | .ok () =>
    modifyInner fun space =>
      { space with
        mappings := insertMapping space.mappings ⟨addr, frame, flags, false, true, false⟩ }

def mapPhysicalPage (frame : PhysFrame) (flags : MapFlags) : SpaceM A Unit := do
  withMapper (map addr frame 3 flags)
  modifyInner fun space =>
    { space with
      mappings := insertMapping space.mappings ⟨addr, frame, flags, false, false, false⟩ }

def mapSharedPage (frame : PhysFrame) (flags : MapFlags) : SpaceM A Unit := do
  let _ ← callFrames (retain frame)
  withMapper (map addr frame 3 flags)
  modifyInner fun space =>
    { space with
      mappings := insertMapping space.mappings ⟨addr, frame, flags, false, false, true⟩ }

/-- Take a mapping out of the page table; the mapping has left the list. -/
def dropMapping (mapping : UserMapping) : SpaceM A Unit := do
  if mapping.owned then
    let _ ← withMapper (unmap mapping.virt)
    return
  else
    let _ ← withMapper (unmapPreserve mapping.virt)
    if mapping.shared then releaseFrame mapping.frame else return

def unmapPage : SpaceM A Unit := do
  let space ← inner
  match mappingIndex space.mappings addr with
  | none => throw (.map .notMapped)
  | some index =>
    match space.mappings[index]? with
    | none => stuck
    | some mapping =>
      modifyInner fun space => { space with mappings := space.mappings.eraseIdx index }
      dropMapping mapping

/-- The loops that unmap pages and drop the errors. -/
def unmapPages (pages : List Nat) : SpaceM A Unit :=
  forEach (fun page => do
    let _ ← attempt (unmapPage page)
    return) pages

end Pages

/-! ## Requests -/

def mapFixed : Nat := 0x10
def mapFixedNoreplace : Nat := 0x100000
def mapAnonymous : Nat := 0x20

def hasFlag (flags flag : Nat) : Bool :=
  flags &&& flag != 0

section Requests

variable {A : Type} [FrameAllocator A]

def setVmas (update : List UserVma → List UserVma) : SpaceM A Unit :=
  modifyInner fun space => { space with vmas := update space.vmas }

def recordVma (start stop : Nat) (flags : MapFlags) (kind : UserVmaKind) (lazy : Bool) :
    SpaceM A Unit :=
  setVmas fun vmas => record vmas ⟨start, stop, flags, kind, lazy⟩

def munmap (addr len : Nat) : SpaceM A Unit := do
  if len = 0 ∨ isAligned addr pageSize = false then
    throw .addressOverflow
  else
    let alignedLen := alignUp len pageSize
    unmapPages ((pageOffsets alignedLen).map (wrappingAdd addr))
    setVmas fun vmas => removeRange vmas addr (wrappingAdd addr alignedLen)

/-- `allocate_mmap_base`. -/
def allocateMmapBase (len : Nat) : SpaceM A Nat := do
  let space ← inner
  let lowerBound := alignUp space.brkLimit pageSize
  let upperBound := alignDown space.mmapTop pageSize
  match findTopDownGap space.vmas lowerBound upperBound len with
  | some base => return base
  | none => throw (.frame .outOfMemory)

def prepareMappingBase (addr len flags : Nat) : SpaceM A Nat := do
  if hasFlag flags mapFixedNoreplace then
    if isAligned addr pageSize = false then
      throw .addressOverflow
    else
      let space ← inner
      if isRangeFree space.vmas addr len then return addr
      else throw (.map .alreadyMapped)
  else if hasFlag flags mapFixed then
    if isAligned addr pageSize = false then
      throw .addressOverflow
    else
      let _ ← attempt (munmap addr len)
      return addr
  else
    allocateMmapBase len

/-- The common part of `mmap_anonymous` and `mmap_lazy_image`. -/
def mmapLazy (addr len flags : Nat) (pageFlags : MapFlags) (kind : UserVmaKind) : SpaceM A Nat := do
  let alignedLen := alignUp len pageSize
  let base ← prepareMappingBase addr alignedLen flags
  recordVma base (wrappingAdd base alignedLen) pageFlags kind true
  return base

def mmapAnonymous (addr len flags : Nat) (pageFlags : MapFlags) : SpaceM A Nat :=
  if len = 0 ∨ hasFlag flags mapAnonymous = false then throw .addressOverflow
  else mmapLazy addr len flags pageFlags .anonymous

def mmapLazyImage (addr len flags : Nat) (pageFlags : MapFlags) (image : ProgramImageSource)
    (imageOffset imageLen : Nat) : SpaceM A Nat :=
  if len = 0 then throw .addressOverflow
  else mmapLazy addr len flags pageFlags (.pagedImage image imageOffset imageLen)

def mmapPhysical (addr len flags : Nat) (pageFlags : MapFlags) (physicalAddress : Nat) :
    SpaceM A Nat := do
  if len = 0 then
    throw .addressOverflow
  else
    let pageBase := alignDown physicalAddress pageSize
    let pageOffset := physicalAddress - pageBase
    let totalLen := alignUp (saturatingAdd len pageOffset) pageSize
    let base ← prepareMappingBase addr totalLen flags
    forEach (fun page =>
      mapPhysicalPage (wrappingAdd base page)
        (PhysFrame.fromStartAddress (wrappingAdd pageBase page)) pageFlags)
      (pageOffsets totalLen)
    recordVma base (wrappingAdd base totalLen) pageFlags .device false
    return wrappingAdd base pageOffset

def mmapSharedPhysical (addr len flags : Nat) (pageFlags : MapFlags)
    (physicalPages : List Nat) : SpaceM A Nat := do
  if len = 0 then
    throw .addressOverflow
  else
    let alignedLen := alignUp len pageSize
    let expectedPages := alignedLen / pageSize
    if physicalPages.length < expectedPages then
      throw .addressOverflow
    else
      let base ← prepareMappingBase addr alignedLen flags
      forEach (fun page =>
        mapSharedPage (wrappingAdd base (page.2 * pageSize))
          (PhysFrame.fromStartAddress page.1) pageFlags)
        (physicalPages.take expectedPages).zipIdx
      recordVma base (wrappingAdd base alignedLen) pageFlags .shared false
      return base

/-- Protect one mapping of the list. -/
def protectMapping (flags : MapFlags) (index : Nat) : SpaceM A Unit := do
  let space ← inner
  match space.mappings[index]? with
  | none => stuck
  | some mapping =>
    withMapper (protect mapping.virt flags)
    modifyInner fun space =>
      { space with
        mappings := space.mappings.set index { mapping with flags := flags, cow := false } }

/-- The mappings of the range are the indices between two partition points. -/
def mprotect (addr len : Nat) (flags : MapFlags) : SpaceM A Unit := do
  if len = 0 ∨ isAligned addr pageSize = false then
    throw .addressOverflow
  else
    match checkedAdd addr (alignUp len pageSize) with
    | none => throw .addressOverflow
    | some stop =>
      let space ← inner
      let startIndex := partitionPoint (fun mapping : UserMapping => mapping.virt < addr)
        space.mappings
      let endIndex := partitionPoint (fun mapping : UserMapping => mapping.virt < stop)
        space.mappings
      let changed := startIndex ≠ endIndex ∨ rangeOverlaps space.vmas addr stop = true
      if endIndex < startIndex then
        stuck
      else
        forEach (protectMapping flags) (List.range' startIndex (endIndex - startIndex))
        if changed then setVmas fun vmas => updateFlags vmas addr stop flags
        else throw (.map .notMapped)

/-- The pages between two page-aligned addresses. -/
def pagesBetween (start stop : Nat) : List Nat :=
  (List.range ((stop - start) / pageSize)).map fun index => start + index * pageSize

def brk (newBrk : Nat) : SpaceM A Nat := do
  let space ← inner
  if newBrk = 0 ∨ newBrk < space.brkStart ∨ space.brkLimit < newBrk then
    return space.brkCurrent
  else
    let oldEnd := alignUp space.brkCurrent pageSize
    let newEnd := alignUp newBrk pageSize
    unmapPages (pagesBetween newEnd oldEnd)
    modifyInner fun space =>
      { space with brkCurrent := newBrk, vmas := updateHeapEnd space.vmas newBrk }
    return newBrk

end Requests

/-! ## Faults -/

section Faults

variable {A : Type} [FrameAllocator A]

/-- Pass on an image error, after giving the frame back. -/
def fillFrom (frame : PhysFrame) (destOffset : Nat) (read : Except ImageError (List Byte)) :
    SpaceM A Unit :=
  match read with
  | .ok bytes => writeFrame frame destOffset bytes
  | .error error => throw (.ofImage error)

def fillLazyPageFromVma (frame : PhysFrame) (pageBase pageEnd : Nat) (vma : UserVma) :
    SpaceM A Unit :=
  match vma.kind with
  | .pagedImage source imageOffset imageLen =>
    let pageOffset := pageBase - vma.start
    if imageLen ≤ pageOffset then pure ()
    else
      let copyLen := min pageSize (imageLen - pageOffset)
      match checkedAdd imageOffset pageOffset with
      | none => throw .addressOverflow
      | some sourceOffset => fillFrom frame 0 (source.readExactAt sourceOffset copyLen)
  | .elfSegmentImage source segmentStart imageOffset imageLen _ =>
    match checkedAdd segmentStart imageLen with
    | none => throw .addressOverflow
    | some fileSegmentEnd =>
      let copyStart := max pageBase segmentStart
      let copyEnd := min pageEnd fileSegmentEnd
      if copyEnd ≤ copyStart then pure ()
      else
        match checkedAdd imageOffset (copyStart - segmentStart) with
        | none => throw .addressOverflow
        | some sourceOffset =>
          fillFrom frame (copyStart - pageBase)
            (source.readExactAt sourceOffset (copyEnd - copyStart))
  | _ => pure ()

/-- `map_lazy_page_from_window` and `map_lazy_page_from_indices`, for the areas
that contribute to the page in the order in which they are copied. -/
def mapLazyPageFrom (pageBase pageEnd : Nat) (contributors : List UserVma) : SpaceM A Unit := do
  let frame ← allocateZeroedOwnedFrame
  let mergedFlags := contributors.foldl (fun flags vma => flags.union vma.flags) .empty
  match ← attempt (forEach (fillLazyPageFromVma frame pageBase pageEnd) contributors) with
  | .error error =>
    releaseFrame frame
    throw error
  | .ok () => mapOwnedFrame pageBase frame mergedFlags

/-- Whether each area has at least the order of the one before. -/
def monotonicOrder : List UserVma → Bool
  | first :: second :: rest =>
    decide (first.lazyOrder ≤ second.lazyOrder) && monotonicOrder (second :: rest)
  | _ => true

def mapLazyPage (pageBase : Nat) (write : Bool) : SpaceM A Bool := do
  match checkedAdd pageBase pageSize with
  | none => throw .addressOverflow
  | some pageEnd =>
    let space ← inner
    let contributors := ((lazyWindow space.vmas pageBase pageEnd).getD []).filter
        fun vma => vma.lazy && decide (pageBase < vma.stop)
    if contributors = [] then
      return false
    else if write && !contributors.any fun vma => vma.flags.contains .write then
      return false
    else if monotonicOrder contributors then
      mapLazyPageFrom pageBase pageEnd contributors
      return true
    else
      mapLazyPageFrom pageBase pageEnd
        (contributors.mergeSort fun a b => decide (a.lazyOrder ≤ b.lazyOrder))
      return true

def resolveCowFault (pageBase : Nat) : SpaceM A Unit := do
  let space ← inner
  match mappingIndex space.mappings pageBase with
  | none => throw (.map .notMapped)
  | some index =>
    match space.mappings[index]? with
    | none => stuck
    | some mapping =>
      let state ← Exec.get
      let writableFlags := mapping.flags.union .write
      let refCount := (refCount state.frames mapping.frame).getD 1
      if 1 < refCount then
        let newFrame ← callFrames (alloc 1)
        setMemory newFrame (state.memory mapping.frame)
        let _ ← withMapper (unmap pageBase)
        withMapper (map pageBase newFrame 3 writableFlags)
        modifyInner fun space =>
          { space with
            mappings := space.mappings.set index
              { mapping with frame := newFrame, flags := writableFlags, cow := false } }
      else
        withMapper (protect pageBase writableFlags)
        modifyInner fun space =>
          { space with
            mappings := space.mappings.set index
              { mapping with flags := writableFlags, cow := false } }

inductive PageFaultHandling where
  | resolved
  | invalidateTlb
  | unhandled
  deriving DecidableEq, Repr

/-- Bits of the error code of a page fault. -/
def pfWrite : Nat := 2
def pfUser : Nat := 4
def pfInstr : Nat := 16

def faultAccessAllowed (mapping : UserMapping) (errorCode : Nat) : Bool :=
  !(hasFlag errorCode pfWrite && !mapping.flags.contains .write) &&
    !(hasFlag errorCode pfUser && !mapping.flags.contains .user) &&
    !(hasFlag errorCode pfInstr && !mapping.flags.contains .execute)

def handlePageFault (address errorCode : Nat) : SpaceM A PageFaultHandling := do
  let pageBase := alignDown address pageSize
  let writeFault := hasFlag errorCode pfWrite
  let space ← inner
  match mappingOf space.mappings pageBase with
  | some mapping =>
    if writeFault && mapping.cow then
      resolveCowFault pageBase
      return .resolved
    else if faultAccessAllowed mapping errorCode then
      return .invalidateTlb
    else
      return .unhandled
  | none =>
    if ← mapLazyPage pageBase writeFault then return .resolved else return .unhandled

def ensureAccess (address : Nat) (write : Bool) : SpaceM A Unit := do
  let pageBase := alignDown address pageSize
  let space ← inner
  match mappingOf space.mappings pageBase with
  | some mapping =>
    if write && mapping.cow then resolveCowFault pageBase
    else if write && !mapping.flags.contains .write then throw (.map .notMapped)
    else pure ()
  | none =>
    if ← mapLazyPage pageBase write then pure () else throw (.map .notMapped)

/-- The frame and the offset of an address. -/
def translate (space : UserAddressSpaceInner) (address : Nat) : Option (PhysFrame × Nat) :=
  let pageBase := alignDown address pageSize
  (mappingOf space.mappings pageBase).map fun mapping => (mapping.frame, address - pageBase)

/-- One turn of the loops of `read` and `write`: the frame, the offset, the bytes
that are left in the page and the address after them. -/
def accessPage (current remaining : Nat) (write : Bool) :
    SpaceM A (Option (PhysFrame × Nat × Nat)) := do
  ensureAccess current write
  let space ← inner
  return (translate space current).map fun place =>
    (place.1, place.2, min remaining (pageSize - place.2))

/-- The loop of `read`; each turn copies a byte at least. -/
def readLoop : Nat → Nat → Nat → List Byte → SpaceM A (List Byte)
  | 0, _, _, copied => pure copied
  | turns + 1, current, remaining, copied => do
      if remaining = 0 then
        return copied
      else
        match ← accessPage current remaining false with
        | none => return copied
        | some (frame, offset, chunk) =>
          let state ← Exec.get
          let bytes := (List.range chunk).map fun i => state.memory frame (offset + i)
          match checkedAdd current chunk with
          | none => throw .addressOverflow
          | some next => readLoop turns next (remaining - chunk) (copied ++ bytes)

def read (address len : Nat) : SpaceM A (List Byte) :=
  readLoop len address len []

/-- The loop of `write`, with the number of bytes copied so far. -/
def writeLoop : Nat → Nat → List Byte → Nat → SpaceM A Nat
  | 0, _, _, copied => pure copied
  | turns + 1, current, bytes, copied => do
      if bytes = [] then
        return copied
      else
        match ← accessPage current bytes.length true with
        | none => return copied
        | some (frame, offset, chunk) =>
          writeFrame frame offset (bytes.take chunk)
          match checkedAdd current chunk with
          | none => throw .addressOverflow
          | some next => writeLoop turns next (bytes.drop chunk) (copied + chunk)

def write (address : Nat) (bytes : List Byte) : SpaceM A Nat :=
  writeLoop bytes.length address bytes 0

end Faults

end AetherKernel.Process
