import AetherKernel.Mm.FrameAllocator

/-!
# Page tables

A page table is given by the entries of all its tables: an entry is named by its
level and by the part of the address that leads to it.  The entries below an
entry that is absent do not exist; a new table is zeroed.  Levels count from the
root, and pages of 4 KiB are leaves of level 3.
-/

namespace AetherKernel.Mm

open Lib Exec

/-! ## Flags -/

/-- A set of the seven flags. -/
structure MapFlags where
  canRead : Bool
  canWrite : Bool
  canExecute : Bool
  isUser : Bool
  isGlobal : Bool
  isUncached : Bool
  isWriteThrough : Bool
  deriving DecidableEq, Repr

namespace MapFlags

def empty : MapFlags :=
  ⟨false, false, false, false, false, false, false⟩

def read : MapFlags := { empty with canRead := true }
def write : MapFlags := { empty with canWrite := true }
def execute : MapFlags := { empty with canExecute := true }
def user : MapFlags := { empty with isUser := true }
def noCache : MapFlags := { empty with isUncached := true }
def writeThrough : MapFlags := { empty with isWriteThrough := true }

/-- `self | rhs`. -/
def union (a b : MapFlags) : MapFlags where
  canRead := a.canRead || b.canRead
  canWrite := a.canWrite || b.canWrite
  canExecute := a.canExecute || b.canExecute
  isUser := a.isUser || b.isUser
  isGlobal := a.isGlobal || b.isGlobal
  isUncached := a.isUncached || b.isUncached
  isWriteThrough := a.isWriteThrough || b.isWriteThrough

/-- `self.contains(other)`: all flags of `other` are set. -/
def contains (a b : MapFlags) : Bool :=
  a.union b == a

end MapFlags

inductive MappingError where
  | invalidAddress
  | alreadyMapped
  | notMapped
  | unsupportedSize
  | outOfMemory
  | frame (error : FrameAllocError)
  deriving DecidableEq, Repr

/-! ## Tables -/

/-- A table entry; one that points to a table has the user bit of the first
mapping made through it. -/
inductive Entry where
  | absent
  | table (frame : PhysFrame) (user : Bool)
  | leaf (frame : PhysFrame) (flags : MapFlags)
  deriving DecidableEq, Repr

structure PageTable where
  root : PhysFrame
  entry : Nat → Nat → Entry

/-- The part of an address that leads to its entry of a level: nine bits for each
level down to it. -/
def pathAt (virt level : Nat) : Nat :=
  virt / 2 ^ (39 - 9 * level) % 512 ^ (level + 1)

namespace PageTable

variable (table : PageTable)

def setEntry (level path : Nat) (value : Entry) : PageTable :=
  { table with
    entry := fun otherLevel other =>
      if otherLevel = level ∧ other = path then value else table.entry otherLevel other }

/-- Zero the table that the entry leads to. -/
def clearBelow (level path : Nat) : PageTable :=
  { table with
    entry := fun otherLevel other =>
      if otherLevel = level + 1 ∧ other / 512 = path then .absent
      else table.entry otherLevel other }

/-- `table_is_empty` of the table that the entry leads to. -/
def emptyBelow (level path : Nat) : Bool :=
  (List.range 512).all fun index => table.entry (level + 1) (path * 512 + index) = .absent

end PageTable

/-- The allocator and a page table. -/
structure MapperState (A : Type) where
  frames : A
  table : PageTable

abbrev MapperM (A α : Type) : Type :=
  Exec (MapperState A) MappingError α

section Mapper

variable {A α : Type} [FrameAllocator A]

/-- Call the allocator; its error is passed on. -/
def withFrames (call : A → Except FrameAllocError α × A) : MapperM A α :=
  fun state =>
    match call state.frames with
    | (.ok value, frames) => some (.ok value, { state with frames := frames })
    | (.error error, frames) => some (.error (.frame error), { state with frames := frames })

def entryOf (virt level : Nat) : MapperM A Entry := do
  let state ← Exec.get
  return state.table.entry level (pathAt virt level)

def setEntryOf (virt level : Nat) (value : Entry) : MapperM A Unit :=
  modify fun state =>
    { state with table := state.table.setEntry level (pathAt virt level) value }

/-- The frames in a leaf of a level. -/
def frameCountForLevel (level : Nat) : Nat :=
  512 ^ (3 - level)

variable (virt : Nat)

/-- One turn of the walk of `map`: the table below an entry is there afterwards. -/
def descend (flags : MapFlags) (level : Nat) : MapperM A Unit := do
  match ← entryOf virt level with
  | .absent =>
    let next ← withFrames (FrameAllocator.alloc 1)
    modify fun state =>
      { state with table := state.table.clearBelow level (pathAt virt level) }
    setEntryOf virt level (.table next flags.isUser)
  | .leaf _ _ => throw .alreadyMapped
  | .table _ _ => pure ()

/-- The tables for the levels from `level` on, `count` of them. -/
def descendAll (virt : Nat) (flags : MapFlags) : Nat → Nat → MapperM A Unit
  | 0, _ => pure ()
  | count + 1, level => do
      descend virt flags level
      descendAll virt flags count (level + 1)

/-- `AddressSpace::map` for a leaf of the given level. -/
def map (frame : PhysFrame) (leafLevel : Nat) (flags : MapFlags) : MapperM A Unit := do
  let size := pageSize * frameCountForLevel leafLevel
  if !isAligned virt size || !isAligned frame.start size then
    throw .invalidAddress
  else
    descendAll virt flags leafLevel 0
    match ← entryOf virt leafLevel with
    | .absent => setEntryOf virt leafLevel (.leaf frame flags)
    | _ => throw .alreadyMapped

/-- `prune_empty_tables`, for the tables that hold entries of `level` and above. -/
def pruneEmptyTables (virt : Nat) : Nat → MapperM A Unit
  | 0 => pure ()
  | level + 1 => do
      let state ← Exec.get
      if state.table.emptyBelow level (pathAt virt level) then
        match state.table.entry level (pathAt virt level) with
        | .table frame _ =>
          setEntryOf virt level .absent
          let _ ← withFrames (FrameAllocator.release frame 1)
          pruneEmptyTables virt level
        | _ => throw .notMapped
      else
        pure ()

/-- The walk of `unmap_inner` from a level on, with the number of levels left. -/
def unmapFrom (virt : Nat) (releaseFrame : Bool) : Nat → Nat → MapperM A PhysFrame
  | 0, _ => throw .notMapped
  | levels + 1, level => do
      match ← entryOf virt level with
      | .absent => throw .notMapped
      | .table _ _ => unmapFrom virt releaseFrame levels (level + 1)
      | .leaf frame _ =>
        setEntryOf virt level .absent
        if releaseFrame then
          let _ ← withFrames (FrameAllocator.release frame (frameCountForLevel level))
          pruneEmptyTables virt level
          return frame
        else
          pruneEmptyTables virt level
          return frame

/-- `AddressSpace::unmap`. -/
def unmap : MapperM A PhysFrame :=
  unmapFrom virt true 4 0

/-- `AddressSpace::unmap_preserve`. -/
def unmapPreserve : MapperM A PhysFrame :=
  unmapFrom virt false 4 0

/-- The walk of `protect`. -/
def protectFrom (virt : Nat) (flags : MapFlags) : Nat → Nat → MapperM A Unit
  | 0, _ => throw .notMapped
  | levels + 1, level => do
      match ← entryOf virt level with
      | .absent => throw .notMapped
      | .table _ _ => protectFrom virt flags levels (level + 1)
      | .leaf frame _ => setEntryOf virt level (.leaf frame flags)

/-- `AddressSpace::protect`. -/
def protect (flags : MapFlags) : MapperM A Unit :=
  protectFrom virt flags 4 0

/-- `new_user_root`: an empty lower half, and the upper half of the current root. -/
def newUserRoot (kernel : Nat → Nat → Entry) (frames : A) : Except MappingError PageTable × A :=
  match FrameAllocator.alloc 1 frames with
  | (.error error, frames) => (.error (.frame error), frames)
  | (.ok root, frames) =>
    (.ok ⟨root, fun level path =>
      if 256 ≤ path / 512 ^ level then kernel level path else .absent⟩, frames)

end Mapper

end AetherKernel.Mm
