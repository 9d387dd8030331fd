import AetherKernel.Lib.Bytes
import AetherKernel.Lib.Transition
import AetherKernel.Mm.Frame
import Mathlib.Data.List.TakeDrop

/-!
# The page cache

Pages of files are cached by device, inode and page index.  A cached page keeps
the number of bytes that were there when it was loaded; a page that is not full
ends the file for its readers.  Frame allocation is taken to succeed, so a page
is represented by the bytes of its frame.
-/

namespace AetherKernel.Vfs

open Lib Mm List

def pageCacheMaxPages : Nat := 8192
def pagePrefetchLimit : Nat := 16

inductive FsError where
  | notFile
  | io
  | invalidInput
  | wouldBlock
  | brokenPipe
  deriving DecidableEq

/-! ## Files -/

/-- The contents of a file; its size is a `usize`. -/
structure FileContents where
  bytes : List Byte
  size_lt : bytes.length < Word.size

namespace FileContents

variable (file : FileContents)

def size : Nat :=
  file.bytes.length

/-- What `operations.read` copies into a buffer of `len` bytes. -/
def read (offset len : Nat) : List Byte :=
  (file.bytes.drop offset).take len

/-- The contents with `data` at an offset; a gap before it is filled with zeros. -/
def written (bytes : List Byte) (offset : Nat) (data : List Byte) : List Byte :=
  (bytes ++ List.replicate (offset - bytes.length) 0).take offset ++
    (data ++ bytes.drop (offset + data.length))

theorem length_written (bytes : List Byte) (offset : Nat) (data : List Byte) :
    (written bytes offset data).length = max bytes.length (offset + data.length) := by
  simp only [written, length_append, length_take, length_replicate, length_drop]
  omega

/-- `operations.write` when it writes all of `data`; a file that would be larger
than a `usize` is refused. -/
def write (offset : Nat) (data : List Byte) : Option FileContents :=
  if data = [] then some file
  else if fits : offset + data.length < Word.size then
    some ⟨written file.bytes offset data, by
      rw [length_written]
      exact max_lt file.size_lt fits⟩
  else
    none

/-- `operations.truncate`. -/
def truncate (size : Nat) (fits : size < Word.size) : FileContents :=
  ⟨file.bytes.take size ++ List.replicate (size - file.bytes.length) 0, by
    simp only [length_append, length_take, length_replicate]
    omega⟩

end FileContents

/-! ## Cached pages -/

structure CachedFileId where
  deviceId : Nat
  inode : Nat
  deriving DecidableEq

structure PageCacheKey where
  file : CachedFileId
  pageIndex : Nat
  deriving DecidableEq

/-- The derived order of keys. -/
def PageCacheKey.before (a b : PageCacheKey) : Bool :=
  decide (a.file.deviceId < b.file.deviceId) || a.file.deviceId == b.file.deviceId &&
      (decide (a.file.inode < b.file.inode) ||
        a.file.inode == b.file.inode && decide (a.pageIndex < b.pageIndex))

/-- A frame is given by its content, `PAGE_SIZE` bytes, where nothing depends on its
address. -/
structure CachedPage (F : Type := List Byte) where
  frame : F
  len : Nat
  lastAccess : Nat
  deriving DecidableEq

/-- The map from keys to pages, in the order of the keys. -/
structure PageCacheState (F : Type := List Byte) where
  entries : List (PageCacheKey × CachedPage F)
  accessEpoch : Nat

namespace PageCacheState

variable {F : Type}

def new : PageCacheState F :=
  ⟨[], 1⟩

variable (state : PageCacheState F)

/-- The epoch saturates. -/
def nextAccess : Nat × PageCacheState F :=
  (state.accessEpoch, { state with accessEpoch := min (state.accessEpoch + 1) (Word.size - 1) })

def find (state : PageCacheState F) (key : PageCacheKey) : Option (CachedPage F) :=
  (state.entries.find? fun entry => entry.1 = key).map Prod.snd

def contains (key : PageCacheKey) : Bool :=
  (state.find key).isSome

/-- Set the access time of a page. -/
def touch (key : PageCacheKey) (access : Nat) : PageCacheState F :=
  { state with
    entries := state.entries.map fun entry =>
      if entry.1 = key then (entry.1, { entry.2 with lastAccess := access }) else entry }

def cachedPage (key : PageCacheKey) : Option (CachedPage F) × PageCacheState F :=
  let (access, state) := state.nextAccess
  ((state.find key).map fun page => { page with lastAccess := access }, state.touch key access)

/-- The bytes copied out of a cached page, and whether the page is short. -/
def copyCached (state : PageCacheState) (key : PageCacheKey) (pageOffset len : Nat) :
    Option (List Byte × Bool) × PageCacheState :=
  let (page, state) := state.cachedPage key
  (page.map fun page =>
    if page.len ≤ pageOffset then ([], true)
    else
      let chunk := min len (page.len - pageOffset)
      ((page.frame.drop pageOffset).take chunk, decide (page.len < pageSize)), state)

/-- The first entry with the least access time. -/
def oldest : List (PageCacheKey × CachedPage F) → Option (PageCacheKey × CachedPage F)
  | [] => none
  | entry :: rest =>
    match oldest rest with
    | none => some entry
    | some other => some (if other.2.lastAccess < entry.2.lastAccess then other else entry)

def evictOne : Bool × PageCacheState F :=
  match oldest state.entries with
  | none => (false, state)
  | some (key, _) =>
    (true, { state with entries := state.entries.filter fun entry => entry.1 ≠ key })

/-- The loop that makes room; the bound is the number of entries. -/
def makeRoom : Nat → PageCacheState F → PageCacheState F
  | 0, state => state
  | bound + 1, state =>
    if pageCacheMaxPages ≤ state.entries.length then
      match state.evictOne with
      | (false, state) => state
      | (true, state) => makeRoom bound state
    else
      state

/-- Insert into the map at the place of the key. -/
def insertEntry (entries : List (PageCacheKey × CachedPage F)) (key : PageCacheKey)
    (page : CachedPage F) : List (PageCacheKey × CachedPage F) :=
  entries.takeWhile (fun entry => entry.1.before key) ++
    (key, page) :: entries.dropWhile (fun entry => entry.1.before key)

/-- A page that is already there stays. -/
def insertPage (key : PageCacheKey) (frame : F) (len : Nat) : PageCacheState F :=
  let (access, state) := state.nextAccess
  if state.contains key then state.touch key access
  else
    let state := makeRoom state.entries.length state
    { state with entries := insertEntry state.entries key ⟨frame, len, access⟩ }

/-- Drop the pages of a file from one index to another. -/
def invalidatePages (file : CachedFileId) (first last : Nat) : PageCacheState F :=
  { state with
    entries := state.entries.filter fun entry =>
      !(decide (entry.1.file = file) && decide (first ≤ entry.1.pageIndex) &&
        decide (entry.1.pageIndex ≤ last)) }

def invalidateFileRange (file : CachedFileId) (offset len : Nat) : PageCacheState F :=
  if len = 0 then state
  else
    state.invalidatePages file (offset / pageSize)
      (min (offset + (len - 1)) (Word.size - 1) / pageSize)

def invalidateAll (file : CachedFileId) : PageCacheState F :=
  { state with entries := state.entries.filter fun entry => entry.1.file ≠ file }

end PageCacheState

/-! ## Loading and reading pages -/

/-- The loop of `load_page` that fills the frame; each turn adds a byte or is the
last.  The multiplication wraps. -/
def fillPage (file : FileContents) (pageIndex : Nat) : Nat → List Byte → List Byte
  | 0, buffer => buffer
  | turns + 1, buffer =>
    if buffer.length < pageSize then
      let offset := (pageIndex * pageSize + buffer.length) % Word.size
      let chunk := file.read offset (pageSize - buffer.length)
      if chunk = [] then buffer else fillPage file pageIndex turns (buffer ++ chunk)
    else
      buffer

variable (file : FileContents)

/-- A page beyond the end of the file is not cached. -/
def loadPage (key : PageCacheKey) (state : PageCacheState) : Bool × PageCacheState :=
  let read := fillPage file key.pageIndex pageSize []
  if read = [] then (false, state)
  else
    (true, state.insertPage key (read ++ List.replicate (pageSize - read.length) 0) read.length)

/-- The loop of `page_cache::read`, with the bytes copied so far; without turns
left it has not returned. -/
def readLoop (file : FileContents) (id : CachedFileId) (offset len : Nat) :
    Nat → List Byte → PageCacheState → Option (Except FsError (List Byte) × PageCacheState)
  | 0, _, _ => none
  | turns + 1, copied, state =>
    if copied.length < len then
      let absolute := offset + copied.length
      if Word.size ≤ absolute then some (.error .invalidInput, state)
      else
        let key : PageCacheKey := ⟨id, absolute / pageSize⟩
        match state.copyCached key (absolute % pageSize) (len - copied.length) with
        | (some (chunk, shortPage), state) =>
          if chunk = [] then some (.ok copied, state)
          else if shortPage then some (.ok (copied ++ chunk), state)
          else readLoop file id offset len turns (copied ++ chunk) state
        | (none, state) =>
          match loadPage file key state with
          | (false, state) => some (.ok copied, state)
          | (true, state) => readLoop file id offset len turns copied state
    else
      some (.ok copied, state)

/-- `page_cache::read`; two turns for each byte and one more are enough. -/
def pageCacheRead (id : CachedFileId) (offset len : Nat)
    (state : PageCacheState) : Option (Except FsError (List Byte) × PageCacheState) :=
  if len = 0 then some (.ok [], state)
  else readLoop file id offset len (2 * len + 2) [] state

/-- `prefetch_range`: pages that are not cached are loaded, a bounded number. -/
def prefetchRange (id : CachedFileId) (offset len : Nat)
    (state : PageCacheState) : PageCacheState :=
  let count := min ((len + pageSize - 1) / pageSize) pagePrefetchLimit
  (List.range count).foldl (fun state page =>
      let key : PageCacheKey := ⟨id, offset / pageSize + page⟩
      if state.contains key then state else (loadPage file key state).2) state

/-! ## Operations on an open file -/

inductive FileAdvice where
  | normal
  | random
  | sequential
  | willNeed
  | dontNeed
  | noReuse
  deriving DecidableEq

/-- An open file description of the file; the position is a `usize`. -/
structure VfsFile where
  position : Nat
  canRead : Bool
  canWrite : Bool
  append : Bool
  position_lt : position < Word.size

/-- The position moves on, up to `usize::MAX`. -/
def VfsFile.advance (handle : VfsFile) (count : Nat) : VfsFile :=
  { handle with
    position := min (handle.position + count) (Word.size - 1)
    position_lt := (Nat.min_le_right _ _).trans_lt (by decide) }

/-- A file and the cache over it. -/
structure CachedFile where
  id : CachedFileId
  file : FileContents
  cache : PageCacheState

namespace CachedFile

/-- `VfsFile::read`. -/
def read (state : CachedFile) (handle : VfsFile) (len : Nat) :
    Option (Except FsError (List Byte) × VfsFile × CachedFile) :=
  if handle.canRead then
    match pageCacheRead state.file state.id handle.position len state.cache with
    | none => none
    | some (.ok data, cache) =>
      some (.ok data, handle.advance data.length, { state with cache := cache })
    | some (.error error, cache) => some (.error error, handle, { state with cache := cache })
  else
    some (.error .invalidInput, handle, state)

/-- The description with the position that `VfsFile::write` writes at. -/
def positioned (state : CachedFile) (handle : VfsFile) : VfsFile :=
  if handle.append then
    { handle with position := state.file.size, position_lt := state.file.size_lt }
  else
    handle

/-- `VfsFile::write`, where `data` is what the file system writes of the buffer. -/
def write (state : CachedFile) (handle : VfsFile) (data : List Byte) :
    Except FsError Nat × VfsFile × CachedFile :=
  if handle.canWrite then
    let handle := state.positioned handle
    let writeOffset := handle.position
    match state.file.write writeOffset data with
    | none => (.error .io, handle, state)
    | some file =>
      (.ok data.length, handle.advance data.length, { state with
          file := file
          cache := state.cache.invalidateFileRange state.id writeOffset data.length })
  else
    (.error .invalidInput, handle, state)

end CachedFile

/-- Everything that happens to the file and to the cache. -/
inductive FileOperation where
  | read (handle : VfsFile) (len : Nat)
  | write (handle : VfsFile) (data : List Byte)
  | truncate (size : Nat) (fits : size < Word.size)
  /-- `fallocate` may change the contents in any way. -/
  | fallocate (file : FileContents)
  | advise (offset len : Nat) (advice : FileAdvice)
  | evict
  | reclaim
  /-- Another file has a page of its own loaded. -/
  | loadOther (key : PageCacheKey) (frame : List Byte) (len : Nat)

def FileOperation.perform (operation : FileOperation) (state : CachedFile) : Option CachedFile :=
  match operation with
  | .read handle len => (state.read handle len).map fun result => result.2.2
  | .write handle data => some (state.write handle data).2.2
  | .truncate size fits =>
    some { state with
      file := state.file.truncate size fits
      cache := state.cache.invalidateAll state.id }
  | .fallocate file =>
    some { state with file := file, cache := state.cache.invalidateAll state.id }
  | .advise offset len advice =>
    match advice with
    | .dontNeed =>
      some { state with
        cache := state.cache.invalidateFileRange state.id (min offset (Word.size - 1))
          (min len (Word.size - 1)) }
    | .willNeed =>
      some { state with
        cache := prefetchRange state.file state.id (min offset (Word.size - 1))
          (min len (Word.size - 1)) state.cache }
    | _ => some state
  | .evict => some { state with cache := state.cache.evictOne.2 }
  | .reclaim => some { state with cache := PageCacheState.new }
  | .loadOther key frame len =>
    if key.file = state.id then none
    else some { state with cache := state.cache.insertPage key frame len }

end AetherKernel.Vfs
