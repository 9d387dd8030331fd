import AetherKernel.Lib.Bytes
import AetherKernel.Mm.Frame

/-!
# Program images

The parser of ELF files.  It accepts any addresses in program headers, as long as
no loadable segment ends beyond the largest word and the segments span at least
one page.
-/

namespace AetherKernel.Process

open Lib

inductive ImageError where
  | unexpectedEof
  | invalidElf
  | unsupportedElf
  | readFailure
  deriving DecidableEq, Repr

/-- The trait `ProgramImageSource`: a read fills its buffer or fails. -/
structure ProgramImageSource where
  readExactAt : Nat → Nat → Except ImageError (List Byte)
  length_readExactAt : ∀ offset len bytes, readExactAt offset len = .ok bytes → bytes.length = len

/-- The instance for byte slices. -/
def ProgramImageSource.ofBytes (bytes : List Byte) : ProgramImageSource where
  readExactAt offset len :=
    if offset + len < Word.size ∧ offset + len ≤ bytes.length then
      .ok ((bytes.drop offset).take len)
    else
      .error .unexpectedEof
  length_readExactAt := by
    intro offset len slice run
    split at run
    · rename_i fits
      cases run
      rw [List.length_take, List.length_drop]
      omega
    · cases run

inductive ElfImageType where
  | executable
  | sharedObject
  deriving DecidableEq, Repr

inductive ElfSegmentType where
  | load
  | interp
  | phdr
  | other (kind : Nat)
  deriving DecidableEq, Repr

structure ElfProgramHeader where
  kind : ElfSegmentType
  flags : Nat
  offset : Nat
  virtualAddr : Nat
  fileSize : Nat
  memSize : Nat
  deriving DecidableEq, Repr

namespace ElfProgramHeader

variable (header : ElfProgramHeader)

def isWrite : Bool :=
  header.flags &&& 0x2 != 0

def isExecute : Bool :=
  header.flags &&& 0x1 != 0

end ElfProgramHeader

structure ElfImage where
  imageType : ElfImageType
  entry : Nat
  phoff : Nat
  phnum : Nat
  phent : Nat
  minVaddr : Nat
  programHeaders : List ElfProgramHeader
  deriving DecidableEq, Repr

/-- `read_u16`, `read_u32` and `read_u64`, by the number of bytes. -/
def readWord (count : Nat) (bytes : List Byte) (offset : Nat) : Except ImageError Nat :=
  if offset + count ≤ bytes.length then .ok (Bytes.toNat ((bytes.drop offset).take count))
  else .error .unexpectedEof

def segmentType : Nat → ElfSegmentType
  | 1 => .load
  | 3 => .interp
  | 6 => .phdr
  | other => .other other

def parseProgramHeader (bytes : List Byte) : Except ImageError ElfProgramHeader := do
  let kind ← readWord 4 bytes 0
  let flags ← readWord 4 bytes 4
  let offset ← readWord 8 bytes 8
  let virtualAddr ← readWord 8 bytes 16
  let fileSize ← readWord 8 bytes 32
  let memSize ← readWord 8 bytes 40
  return ⟨segmentType kind, flags, offset, virtualAddr, fileSize, memSize⟩

/-- What the loop over the program headers collects. -/
structure ElfScan where
  headers : List ElfProgramHeader
  minVaddr : Nat
  maxVaddr : Nat

namespace ElfScan

def new : ElfScan :=
  ⟨[], Word.max, 0⟩

/-- One turn of the loop; a loadable segment must not end beyond the last word. -/
def add (scan : ElfScan) (header : ElfProgramHeader) : Except ImageError ElfScan :=
  if header.kind = .load then
    match Word.checkedAdd header.virtualAddr header.memSize with
    | none => .error .invalidElf
    | some last =>
      .ok ⟨scan.headers ++ [header],
        min scan.minVaddr (Word.alignDown header.virtualAddr Mm.pageSize),
        max scan.maxVaddr (Word.alignUp last Mm.pageSize)⟩
  else
    .ok { scan with headers := scan.headers ++ [header] }

/-- The loop, for `count` headers that start at `index`. -/
def loop (table : List Byte) (phent : Nat) : Nat → Nat → ElfScan → Except ImageError ElfScan
  | 0, _, scan => .ok scan
  | count + 1, index, scan =>
    if index * phent + phent ≤ table.length then do
      let header ← parseProgramHeader ((table.drop (index * phent)).take phent)
      let scan ← scan.add header
      loop table phent count (index + 1) scan
    else
      .error .invalidElf

end ElfScan

def elfMagic : List Byte :=
  [0x7f, 0x45, 0x4c, 0x46]

def imageTypeOf : Nat → Except ImageError ElfImageType
  | 2 => .ok .executable
  | 3 => .ok .sharedObject
  | _ => .error .unsupportedElf

namespace ElfImage

/-- `ElfImage::parse`. -/
def parse (source : ProgramImageSource) : Except ImageError ElfImage := do
  let header ← source.readExactAt 0 64
  if header.take 4 ≠ elfMagic then
    throw .invalidElf
  else if (header.drop 4).take 3 ≠ [2, 1, 1] then
    throw .unsupportedElf
  else
    let imageType ← imageTypeOf (← readWord 2 header 16)
    let entry ← readWord 8 header 24
    let phoff ← readWord 8 header 32
    let phent ← readWord 2 header 54
    let phnum ← readWord 2 header 56
    if phnum = 0 ∨ phent < 56 then
      throw .invalidElf
    else
      let table ← source.readExactAt phoff (phent * phnum)
      let scan ← ElfScan.loop table phent phnum 0 ElfScan.new
      if scan.minVaddr = Word.max ∨ scan.maxVaddr ≤ scan.minVaddr then
        throw .invalidElf
      else
        return ⟨imageType, entry, phoff, phnum, phent, scan.minVaddr, scan.headers⟩

/-- `load_bias`; the subtraction saturates. -/
def loadBias (image : ElfImage) (preferredBase : Nat) : Nat :=
  match image.imageType with
  | .sharedObject => preferredBase - image.minVaddr
  | .executable => 0

/-- The loop of `phdr_addr`. -/
def phdrIn (phoff loadBias : Nat) : List ElfProgramHeader → Except ImageError Nat
  | [] => .error .invalidElf
  | header :: rest =>
    if header.kind ≠ .load then phdrIn phoff loadBias rest
    else
      match Word.checkedAdd header.offset header.fileSize with
      | none => .error .invalidElf
      | some fileEnd =>
        if header.offset ≤ phoff ∧ phoff < fileEnd then
          .ok (Word.wrappingAdd (Word.wrappingAdd loadBias header.virtualAddr)
            (phoff - header.offset))
        else phdrIn phoff loadBias rest

/-- Where the program headers are in memory. -/
def phdrAddr (image : ElfImage) (loadBias : Nat) : Except ImageError Nat :=
  match image.programHeaders.find? (·.kind = .phdr) with
  | some header => .ok (Word.wrappingAdd loadBias header.virtualAddr)
  | none => phdrIn image.phoff loadBias image.programHeaders

end ElfImage

end AetherKernel.Process
