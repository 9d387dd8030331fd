import AetherKernel.Mm.FramePool
import AetherKernel.Process.Requests

/-!
# Building an address space from a program

What `ElfProgramBuilder::build` does to the address space: one area for each
loadable segment of the executable and of the interpreter, at the addresses that
the headers name, then the stack and the empty heap.  No page is mapped.  The
initial contents of the stack are written through `write` afterwards.
-/

namespace AetherKernel.Process

open Lib Mm Word Vmas UserAddressSpaceLayout UserAddressSpaceInner Bytes

/-- `map_program_flags`. -/
def mapProgramFlags (header : ElfProgramHeader) : MapFlags :=
  let map := MapFlags.read.union .user
  let map := if header.isWrite then map.union .write else map
  if header.isExecute then map.union .execute else map

variable (source : ProgramImageSource)

/-- The area of a segment; its ends wrap. -/
def segmentVma (loadBias order : Nat) (header : ElfProgramHeader) : UserVma :=
  let segmentBase := wrappingAdd loadBias header.virtualAddr
  ⟨alignDown segmentBase pageSize, alignUp (wrappingAdd segmentBase header.memSize) pageSize,
    mapProgramFlags header,
    .elfSegmentImage source segmentBase header.offset header.fileSize order,
    true⟩

/-- The areas of an image, in the order of its headers. -/
def segmentVmas (image : ElfImage) (loadBias : Nat) : List UserVma :=
  image.programHeaders.zipIdx.filterMap fun entry =>
    if entry.1.kind = .load then some (segmentVma source loadBias entry.2 entry.1) else none

namespace UserAddressSpaceInner

/-- `UserAddressSpaceInner::new`, once the root is there. -/
def new (table : PageTable) : UserAddressSpaceInner where
  layout := .current
  table := table
  stackBase := 0
  mappings := []
  vmas := []
  brkStart := 0
  brkCurrent := 0
  brkLimit := 0

variable (space : UserAddressSpaceInner)

def allocateRegion (len : Nat) : Except BuildError (Nat × UserAddressSpaceInner) :=
  match checkedAdd space.regionBase (alignUp len space.regionAlign) with
  | none => .error .addressOverflow
  | some next =>
    .ok (space.regionBase, { space with regionBase := next })

def allocateStack (len : Nat) : Except BuildError (Nat × UserAddressSpaceInner) :=
  match checkedSub space.stackEnd (alignUp len space.regionAlign) with
  | none => .error .addressOverflow
  | some next =>
    .ok (space.stackEnd, { space with stackEnd := next })

def loadElfImage (source : ProgramImageSource)
    (image : ElfImage) (loadBias : Nat) : UserAddressSpaceInner :=
  { space with vmas := (segmentVmas source image loadBias).foldl record space.vmas }

def stackVma (stackBase stackLen : Nat) : UserVma :=
  ⟨stackBase, wrappingAdd stackBase stackLen, (MapFlags.read.union .write).union .user,
    .stack, true⟩

def mapStack (stackBase stackLen : Nat) : UserAddressSpaceInner :=
  { space with
    stackBase := stackBase, vmas := record space.vmas (stackVma stackBase stackLen) }

def heapVma (start : Nat) : UserVma :=
  ⟨start, start, (MapFlags.read.union .write).union .user, .heap, true⟩

def initializeHeap : Except BuildError UserAddressSpaceInner := do
  let (start, space) ← space.allocateRegion space.brkReserve
  return { space with
    brkStart := start
    brkCurrent := start
    brkLimit := wrappingAdd start space.brkReserve
    vmas := record space.vmas (heapVma start) }

end UserAddressSpaceInner

structure ElfProgramBuilder where
  executable : ProgramImageSource
  interpreter : Option ProgramImageSource
  stackPages : Nat

namespace ElfProgramBuilder

/-- `ElfProgramBuilder::new`; nothing changes the number of stack pages. -/
def new (executable : ProgramImageSource) (interpreter : Option ProgramImageSource) :
    ElfProgramBuilder :=
  ⟨executable, interpreter, current.defaultElfStackPages⟩

/-- Parse an image and keep its source. -/
def parsed (source : ProgramImageSource) : Except BuildError (ProgramImageSource × ElfImage) :=
  match ElfImage.parse source with
  | .ok image => .ok (source, image)
  | .error error => .error (.ofImage error)

/-- Both images with the address that they would like to be loaded at. -/
def images (builder : ElfProgramBuilder) :
    Except BuildError (List (ProgramImageSource × ElfImage × Nat)) := do
  let (source, executable) ← parsed builder.executable
  match builder.interpreter with
  | none => return [(source, executable, current.pieBase)]
  | some interpreter => do
      let (other, image) ← parsed interpreter
      return [(source, executable, current.pieBase), (other, image, current.interpreterBase)]

/-- The length of the stack in bytes. -/
def stackLen (builder : ElfProgramBuilder) : Nat :=
  max builder.stackPages 1 * pageSize % Word.size

/-- Record all areas, with the root in place. -/
def layOut (builder : ElfProgramBuilder) (images : List (ProgramImageSource × ElfImage × Nat))
    (table : PageTable) : Except BuildError UserAddressSpaceInner := do
  let (stackTop, space) ← (UserAddressSpaceInner.new table).allocateStack builder.stackLen
  match checkedSub stackTop builder.stackLen with
  | none => throw .addressOverflow
  | some stackBase =>
    let space := images.foldl (fun space image =>
        space.loadElfImage image.1 image.2.1 (image.2.1.loadBias image.2.2)) space
    (space.mapStack stackBase builder.stackLen).initializeHeap

/-- The address of the program headers of the executable, the first of the images. -/
def phdr (images : List (ProgramImageSource × ElfImage × Nat)) : Except BuildError Nat :=
  (images.head?.elim (.error .invalidElf) fun image =>
    image.2.1.phdrAddr (image.2.1.loadBias image.2.2)).mapError .ofImage

/-- The part of `build` that makes the address space, up to the auxiliary vector. -/
def addressSpace {A : Type} [FrameAllocator A] (builder : ElfProgramBuilder)
    (machine : Machine A) : Except BuildError (Space A) := do
  let images ← builder.images
  match newUserRoot machine.kernel machine.frames with
  | (.error error, _) => throw (.map error)
  | (.ok table, frames) =>
    let space ← builder.layOut images table
    let _ ← phdr images
    return ⟨{ machine with frames := frames }, space⟩

/-- The areas in the order in which they are recorded. -/
def recorded (builder : ElfProgramBuilder)
    (images : List (ProgramImageSource × ElfImage × Nat)) : List UserVma :=
  images.flatMap (fun image => segmentVmas image.1 image.2.1 (image.2.1.loadBias image.2.2)) ++
    [stackVma (current.stackEnd - builder.stackLen) builder.stackLen,
    heapVma current.regionBase]

/-- An address space whose areas were just recorded. -/
structure LaidOut (builder : ElfProgramBuilder)
    (images : List (ProgramImageSource × ElfImage × Nat)) (space : UserAddressSpaceInner) :
    Prop where
  mappings : space.mappings = []
  vmas : space.vmas = (builder.recorded images).foldl record []
  mmapTop : space.mmapTop = current.mmapTop
  brkStart : space.brkStart = current.regionBase
  brkLimit : space.brkLimit = current.regionBase + current.brkReserve

/-- Loading images only adds their areas. -/
theorem foldl_loadElfImage (images : List (ProgramImageSource × ElfImage × Nat))
    (space : UserAddressSpaceInner) :
    images.foldl (fun space image =>
      space.loadElfImage image.1 image.2.1 (image.2.1.loadBias image.2.2)) space =
    { space with
      vmas := (images.flatMap fun image =>
        segmentVmas image.1 image.2.1 (image.2.1.loadBias image.2.2)).foldl record
          space.vmas } := by
  induction images generalizing space with
  | nil => rfl
  | cons image rest ih =>
    rw [List.foldl_cons, ih, List.flatMap_cons, List.foldl_append]
    rfl

variable {space : UserAddressSpaceInner} {builder : ElfProgramBuilder}

theorem allocateStack_eq_ok {len : Nat}
    {result : Nat × UserAddressSpaceInner} (run : space.allocateStack len = .ok result) :
    ∃ stackEnd, result = (space.stackEnd,
      { space with stackEnd }) := by
  unfold allocateStack at run
  split at run
  · cases run
  · rename_i next _
    cases run
    exact ⟨next, rfl⟩

theorem initializeHeap_eq_ok {after : UserAddressSpaceInner}
    (run : space.initializeHeap = .ok after) :
    ∃ regionBase, after = { space with
        regionBase
        brkStart := space.regionBase
        brkCurrent := space.regionBase
        brkLimit := wrappingAdd space.regionBase space.brkReserve
        vmas := record space.vmas (heapVma space.regionBase) } := by
  obtain ⟨region, allocated, rest⟩ := exists_of_bind_eq_ok run
  unfold allocateRegion at allocated
  split at allocated
  · cases allocated
  · rename_i next _
    cases allocated
    cases rest
    exact ⟨next, rfl⟩

/-- The reserve of the heap does not wrap. -/
theorem heap_reserve : wrappingAdd current.regionBase current.brkReserve =
    current.regionBase + current.brkReserve := by
  decide

theorem layOut_laidOut
    {images : List (ProgramImageSource × ElfImage × Nat)} {table : PageTable}
    (run : builder.layOut images table = .ok space) :
    builder.LaidOut images space ∧ space.table = table := by
  obtain ⟨stack, allocated, rest⟩ := exists_of_bind_eq_ok run
  obtain ⟨stackEnd, rfl⟩ := allocateStack_eq_ok allocated
  dsimp only at rest
  split at rest
  · cases rest
  rename_i stackBase enough
  rw [foldl_loadElfImage] at rest
  obtain ⟨regionBase, rfl⟩ := initializeHeap_eq_ok rest
  unfold checkedSub at enough
  split at enough
  · cases enough
    refine ⟨⟨rfl, ?_, rfl, rfl, heap_reserve⟩, rfl⟩
    rw [recorded, List.foldl_append]
    rfl
  · cases enough

theorem addressSpace_eq_ok {A : Type} [FrameAllocator A]
    {machine : Machine A} {space : Space A} (built : builder.addressSpace machine = .ok space) :
    ∃ images frames, builder.images = .ok images ∧ builder.LaidOut images space.inner ∧
      newUserRoot machine.kernel machine.frames = (.ok space.table, frames) := by
  obtain ⟨images, parses, rest⟩ := exists_of_bind_eq_ok built
  split at rest
  · cases rest
  · rename_i table frames root
    obtain ⟨inner, laid, last⟩ := exists_of_bind_eq_ok rest
    obtain ⟨laidOut, rfl⟩ := layOut_laidOut laid
    obtain ⟨-, -, last⟩ := exists_of_bind_eq_ok last
    cases last
    exact ⟨images, frames, parses, laidOut, root⟩

end ElfProgramBuilder

/-! ## The smallest program -/

/-- An executable with one segment of the given address and size, whose first bytes are
the whole file. -/
def elfBytes (virtualAddr memSize : Nat) : List Byte :=
  elfMagic ++ [2, 1, 1] ++ List.replicate 9 0 ++ ofNat 2 2 ++ ofNat 2 62 ++
    ofNat 4 1 ++ ofNat 8 virtualAddr ++ ofNat 8 64 ++ List.replicate 14 0 ++
    ofNat 2 56 ++ ofNat 2 1 ++ List.replicate 6 0 ++
    ofNat 4 1 ++ ofNat 4 6 ++ ofNat 8 0 ++ ofNat 8 virtualAddr ++
    ofNat 8 virtualAddr ++ ofNat 8 120 ++ ofNat 8 memSize ++ ofNat 8 pageSize

def programOf (virtualAddr memSize : Nat) : ElfProgramBuilder :=
  .new (.ofBytes (elfBytes virtualAddr memSize)) none

/-- Nothing is in use, and the kernel maps nothing. -/
def bareMachine : Machine FramePool :=
  ⟨.new, fun _ _ => 0, fun _ _ => .absent⟩

end AetherKernel.Process
