import AetherKernel.Vfs.Coherence

/-!
# Reads under memory pressure

While a file is read, cached pages may be evicted and a frame for a page may be
refused.  `load_page` answers a refused frame as it answers the end of the file, so
the read stops there; it also stops at a cached page that has become too short.
-/

namespace AetherKernel.Vfs

open Lib Mm List PageCacheState

/-- What a turn of the loop meets: the entries that are still cached, and whether a
frame can be allocated. -/
structure Pressure where
  keeps : PageCacheKey × CachedPage → Bool
  allocates : Bool

namespace Pressure

/-- Nothing is evicted, and there are frames. -/
def calm : Pressure :=
  ⟨fun _ => true, true⟩

variable (pressure : Pressure) (file : FileContents) (id : CachedFileId) (offset len : Nat)
  (copied : List Byte) (state : PageCacheState)

/-- `load_page`, where the allocation may fail. -/
def loadPage (key : PageCacheKey) : Bool × PageCacheState :=
  if pressure.allocates then Vfs.loadPage file key state else (false, state)

/-- `copy_cached`, for the page that the read has come to. -/
def lookUp : Option (List Byte × Bool) × PageCacheState :=
  copyCached { state with entries := state.entries.filter pressure.keeps }
    ⟨id, (offset + copied.length) / pageSize⟩ ((offset + copied.length) % pageSize)
    (len - copied.length)

/-- A turn of the loop of `page_cache::read`: the read returns, or goes on with what has
been copied so far. -/
def turn : Except FsError (List Byte) ⊕ List Byte × PageCacheState :=
  if copied.length < len then
    if Word.size ≤ offset + copied.length then .inl (.error .invalidInput)
    else
      match pressure.lookUp id offset len copied state with
      | (some (chunk, shortPage), state) =>
        if chunk = [] then .inl (.ok copied)
        else if shortPage then .inl (.ok (copied ++ chunk))
        else .inr (copied ++ chunk, state)
      | (none, state) =>
        match pressure.loadPage file state ⟨id, (offset + copied.length) / pageSize⟩ with
        | (false, _) => .inl (.ok copied)
        | (true, state) => .inr (copied, state)
  else
    .inl (.ok copied)

/-- The turn ends the read before the file ends: the cached page yields less than is
asked for and is taken for the last one, or the page is not cached and gets no frame. -/
def Cuts : Prop :=
  copied.length < len ∧
    match (pressure.lookUp id offset len copied state).1 with
    | some (chunk, shortPage) => (chunk = [] ∨ shortPage) ∧ copied.length + chunk.length < len ∧
        offset + copied.length + chunk.length < file.size
    | none => pressure.allocates = false ∧ offset + copied.length < file.size

end Pressure

variable {file : FileContents} {id : CachedFileId} {offset len : Nat} {copied data : List Byte}
  {state : PageCacheState} {pressure : Pressure} {turns : List Pressure}

/-- The loop of `page_cache::read` through turns under pressure. -/
def pressedLoop (file : FileContents) (id : CachedFileId) (offset len : Nat) :
    List Pressure → List Byte → PageCacheState → Option (Except FsError (List Byte))
  | [], _, _ => none
  | pressure :: turns, copied, state =>
    match pressure.turn file id offset len copied state with
    | .inl result => some result
    | .inr (copied, state) => pressedLoop file id offset len turns copied state

/-- The read comes to a turn that cuts it off. -/
inductive Cut (file : FileContents) (id : CachedFileId) (offset len : Nat) :
    List Pressure → List Byte → PageCacheState → Prop
  | here {pressure : Pressure} {turns : List Pressure} {copied : List Byte} {state : PageCacheState}
      (cuts : pressure.Cuts file id offset len copied state) :
      Cut file id offset len (pressure :: turns) copied state
  | later {pressure : Pressure} {turns : List Pressure} {copied next : List Byte}
      {state after : PageCacheState}
      (goes : pressure.turn file id offset len copied state = .inr (next, after))
      (cut : Cut file id offset len turns next after) :
      Cut file id offset len (pressure :: turns) copied state

/-- Without pressure, this is the loop of the page cache. -/
theorem pressedLoop_calm (turns : Nat) (copied : List Byte) (state : PageCacheState) :
    pressedLoop file id offset len (replicate turns .calm) copied state =
      (readLoop file id offset len turns copied state).map Prod.fst := by
  induction turns generalizing copied state with
  | zero => rfl
  | succ turns ih =>
    have looks : Pressure.calm.lookUp id offset len copied state =
        state.copyCached ⟨id, (offset + copied.length) / pageSize⟩
          ((offset + copied.length) % pageSize) (len - copied.length) := by
      simp [Pressure.lookUp, Pressure.calm]
    have loads (state : PageCacheState) (key : PageCacheKey) :
        Pressure.calm.loadPage file state key = loadPage file key state := rfl
    rw [replicate_succ, pressedLoop, Pressure.turn, readLoop, looks]
    by_cases more : copied.length < len
    swap
    · simp only [if_neg more, Option.map_some]
    by_cases large : Word.size ≤ offset + copied.length
    · simp only [if_pos more, if_pos large, Option.map_some]
    simp only [if_pos more, if_neg large]
    generalize copyCached _ _ _ _ = found
    obtain ⟨_ | ⟨chunk, shortPage⟩, after⟩ := found
    · simp only [loads]
      generalize loadPage _ _ _ = loaded
      obtain ⟨_ | _, after⟩ := loaded
      · rfl
      · exact ih copied after
    · by_cases empty : chunk = []
      · simp only [if_pos empty, Option.map_some]
      · cases shortPage with
        | true => simp only [if_neg empty, if_true, Option.map_some]
        | false =>
          simp only [if_neg empty]
          exact ih _ after

/-- A load that finds nothing stands at the end of the file. -/
theorem size_le_of_loadPage {absolute : Nat} {after : PageCacheState} (small : absolute < Word.size)
    (nothing : loadPage file ⟨id, absolute / pageSize⟩ state = (false, after)) :
    file.size ≤ absolute := by
  have reachable : absolute / pageSize < maxPages := by
    simp only [maxPages, pageSize_eq, pageShift, Word.size] at small ⊢
    omega
  unfold loadPage at nothing
  dsimp only at nothing
  split at nothing
  · rename_i empty
    exact file.size_le_of_page_eq_nil ((fillPage_eq file reachable 4094).symm.trans empty)
  · cases nothing

theorem not_cuts_of_inr {next : List Byte × PageCacheState}
    (goes : pressure.turn file id offset len copied state = .inr next) :
    ¬pressure.Cuts file id offset len copied state := by
  rintro ⟨more, cuts⟩
  unfold Pressure.turn Pressure.loadPage at goes
  grind

/-- A turn that ends the read short of what is asked ends it where the file ends, unless it
cuts it off. -/
theorem size_le_iff_of_inl (short : data.length < len)
    (ended : pressure.turn file id offset len copied state = .inl (.ok data)) :
    file.size ≤ offset + data.length ↔ ¬pressure.Cuts file id offset len copied state := by
  unfold Pressure.turn at ended
  unfold Pressure.Cuts
  split at ended
  swap
  · cases ended
    omega
  split at ended
  · cases ended
  rename_i more small
  generalize pressure.lookUp id offset len copied state = looked at ended
  obtain ⟨_ | ⟨chunk, shortPage⟩, after⟩ := looked
  · dsimp only at ended ⊢
    split at ended
    · rename_i refused
      cases ended
      unfold Pressure.loadPage at refused
      split at refused
      · have := size_le_of_loadPage (Nat.lt_of_not_le small) refused
        simp_all
      · simp_all
    · cases ended
  · dsimp only at ended ⊢
    split at ended
    · rename_i empty
      cases ended
      simp [empty, more]
    split at ended
    · cases ended
      rw [length_append] at short ⊢
      simp_all [Nat.add_assoc]
    · cases ended

def oneByte : FileContents :=
  ⟨[7], one_byte_fits⟩

end AetherKernel.Vfs
