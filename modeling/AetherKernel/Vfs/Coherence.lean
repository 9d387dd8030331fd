import AetherKernel.Vfs.PageCache

/-!
# Coherence of the page cache

The cache is coherent with a file when every page it holds of the file has the
bytes, and as many of them, as the file has there now.  A write drops the pages
that it overlaps.  When it starts in a later page than the end of the file, the
page of the old end grows without being dropped; all other operations keep the
cache coherent.
-/

namespace AetherKernel.Vfs

open Lib Mm Option List PageCacheState Nat FileOperation

variable (file : FileContents)

/-- The bytes of the file that belong to a page. -/
def FileContents.page (index : Nat) : List Byte :=
  file.read (index * pageSize) pageSize

/-- Page indices that a read can reach; a prefetch can wrap beyond them. -/
def maxPages : Nat :=
  Word.size / pageSize

/-- A cached page shows the file as it is. -/
structure CachedPage.Shows (page : CachedPage) (file : FileContents) (index : Nat) : Prop where
  bytes : page.frame.take page.len = file.page index
  len_eq : page.len = (file.page index).length
  len_pos : 0 < page.len

/-- Every page of the file in the cache shows the file, apart from those at some
indices. -/
def PageCacheState.Coherent (state : PageCacheState) (id : CachedFileId) (file : FileContents)
    (stale : Set Nat) : Prop :=
  ∀ entry ∈ state.entries, entry.1.file = id → entry.1.pageIndex < maxPages →
    entry.1.pageIndex ∉ stale → entry.2.Shows file entry.1.pageIndex

variable {key : PageCacheKey} {page : CachedPage} {entry : PageCacheKey × CachedPage} {len : Nat}

namespace PageCacheState

variable {state : PageCacheState} {id : CachedFileId} {file : FileContents} {stale : Set Nat}
  (coherent : state.Coherent id file stale)

include coherent

theorem Coherent.filter (keep : PageCacheKey × CachedPage → Bool) :
    Coherent { state with entries := state.entries.filter keep } id file stale :=
  fun entry member => coherent entry (mem_filter.mp member).1

theorem Coherent.nextAccess : state.nextAccess.2.Coherent id file stale :=
  coherent

theorem Coherent.touch (key : PageCacheKey) (access : Nat) :
    (state.touch key access).Coherent id file stale := by
  intro entry member sameFile reachable fresh
  obtain ⟨before, wasThere, rfl⟩ := mem_map.mp member
  split at sameFile
  · rename_i same
    rw [if_pos same] at reachable fresh ⊢
    obtain ⟨bytes, lenEq, lenPos⟩ := coherent before wasThere sameFile reachable fresh
    exact ⟨bytes, lenEq, lenPos⟩
  · rename_i other
    rw [if_neg other] at reachable fresh ⊢
    exact coherent before wasThere sameFile reachable fresh

theorem Coherent.evictOne : state.evictOne.2.Coherent id file stale := by
  unfold PageCacheState.evictOne
  split
  · exact coherent
  · exact coherent.filter _

theorem Coherent.makeRoom (bound : Nat) : (makeRoom bound state).Coherent id file stale := by
  induction bound generalizing state with
  | zero => exact coherent
  | succ bound ih =>
    have evicted := coherent.evictOne
    unfold makeRoom
    split
    · split
      · rename_i run
        rw [run] at evicted
        exact evicted
      · rename_i run
        rw [run] at evicted
        exact ih evicted
    · exact coherent

omit coherent

theorem mem_insertEntry {entries : List (PageCacheKey × CachedPage)} :
    entry ∈ insertEntry entries key page ↔ entry = (key, page) ∨ entry ∈ entries := by
  rw [insertEntry, mem_append, mem_cons, or_left_comm (b := entry = _), ← mem_append,
    takeWhile_append_dropWhile]

/-- A new page keeps the cache coherent when it shows the file, or when it
belongs to another file. -/
theorem Coherent.insertPage (coherent : state.Coherent id file stale) {frame : List Byte}
    (shows : key.file = id → key.pageIndex < maxPages → key.pageIndex ∉ stale →
      ∀ access, CachedPage.Shows ⟨frame, len, access⟩ file key.pageIndex) :
    (state.insertPage key frame len).Coherent id file stale := by
  unfold PageCacheState.insertPage
  dsimp only
  split
  · exact coherent.nextAccess.touch key _
  · intro entry member sameFile reachable fresh
    rcases mem_insertEntry.mp member with rfl | before
    · exact shows sameFile reachable fresh _
    · exact coherent.nextAccess.makeRoom _ entry before sameFile reachable fresh

theorem Coherent.invalidateFileRange (coherent : state.Coherent id file stale)
    (dropped : CachedFileId) (offset len : Nat) :
    (state.invalidateFileRange dropped offset len).Coherent id file stale := by
  unfold PageCacheState.invalidateFileRange
  split
  · exact coherent
  · exact coherent.filter _

/-- Without pages of the file the cache is coherent with any contents. -/
theorem coherent_of_uncached (uncached : ∀ entry ∈ state.entries, entry.1.file ≠ id) :
    state.Coherent id file stale :=
  fun entry member sameFile => absurd sameFile (uncached entry member)

theorem invalidateAll_coherent (state : PageCacheState) (id : CachedFileId)
    (file : FileContents) (stale : Set Nat) : (state.invalidateAll id).Coherent id file stale := by
  refine coherent_of_uncached fun entry member => ?_
  exact of_decide_eq_true (mem_filter.mp member).2

end PageCacheState

/-! ## Loading -/

theorem FileContents.length_read (offset len : Nat) :
    (file.read offset len).length = min len (file.size - offset) := by
  simp [FileContents.read, FileContents.size]

variable {index : Nat}

/-- Reading stops only at the end of the file, so one turn fills the page. -/
theorem fillPage_eq (reachable : index < maxPages)
    (turns : Nat) : fillPage file index (turns + 2) [] = file.page index := by
  have noWrap : ∀ more < pageSize, (index * pageSize + more) % Word.size =
      index * pageSize + more := by
    intro more small
    simp only [maxPages, Word.size, pageSize_eq, pageShift] at reachable small ⊢
    omega
  have first : file.read ((index * pageSize + 0) % Word.size) (pageSize - 0) =
      file.page index := by
    rw [noWrap 0 (by decide), add_zero, Nat.sub_zero, FileContents.page]
  rw [fillPage, if_pos (by decide)]
  dsimp only [length_nil]
  rw [first]
  split
  · rename_i empty
    rw [empty]
  rw [nil_append, fillPage]
  split
  · -- A short page ends at the end of the file, where there is nothing to read.
    rename_i nonempty short
    have length := file.length_read (index * pageSize) pageSize
    rw [noWrap _ short, if_pos]
    rw [← length_eq_zero_iff, FileContents.length_read]
    change (file.page index).length = _ at length
    omega
  · rfl

namespace PageCacheState

variable {state : PageCacheState} {id : CachedFileId} {file : FileContents}

theorem find_eq_some (found : state.find key = some page) : (key, page) ∈ state.entries := by
  obtain ⟨entry, held, rfl⟩ := map_eq_some_iff.mp found
  have same : entry.1 = key := by simpa using List.find?_some held
  rw [← same]
  exact mem_of_find?_eq_some held

theorem contains_iff : state.contains key = true ↔ ∃ page, (key, page) ∈ state.entries := by
  constructor
  · intro held
    obtain ⟨page, found⟩ := isSome_iff_exists.mp held
    exact ⟨page, find_eq_some found⟩
  · rintro ⟨page, member⟩
    rw [contains, find, isSome_map, List.find?_isSome]
    exact ⟨(key, page), member, by simp⟩

theorem contains_touch (other : PageCacheKey) (access : Nat) :
    (state.touch other access).contains key = state.contains key := by
  rw [Bool.eq_iff_iff, contains_iff, contains_iff]
  constructor
  · rintro ⟨page, member⟩
    obtain ⟨before, wasThere, equal⟩ := mem_map.mp member
    split at equal
    all_goals
      cases equal
      exact ⟨_, wasThere⟩
  · rintro ⟨page, member⟩
    rcases Decidable.em (key = other) with same | differs
    · exact ⟨{ page with lastAccess := access }, mem_map.mpr ⟨(key, page), member, by simp [same]⟩⟩
    · exact ⟨page, mem_map.mpr ⟨(key, page), member, by simp [differs]⟩⟩

theorem contains_insertPage (state : PageCacheState) (key : PageCacheKey) (frame : List Byte)
    (len : Nat) : (state.insertPage key frame len).contains key = true := by
  unfold insertPage
  dsimp only
  split
  · rename_i held
    rw [contains_touch]
    exact held
  · exact contains_iff.mpr ⟨_, mem_insertEntry.mpr (.inl rfl)⟩

end PageCacheState

variable {id : CachedFileId} {state : PageCacheState} {file} {contents : FileContents}

/-- Loading a page of the file never hurts, whatever its index, and neither does one of
another file. -/
theorem loadPage_coherent (key : PageCacheKey) (coherent : state.Coherent id contents ∅)
    (right : key.file = id → file = contents) :
    (loadPage file key state).2.Coherent id contents ∅ := by
  unfold loadPage
  dsimp only
  split
  · exact coherent
  rename_i nonempty
  refine coherent.insertPage fun same reachable _ access => ?_
  obtain rfl := right same
  have filled : fillPage file key.pageIndex pageSize [] = file.page key.pageIndex :=
    fillPage_eq file reachable 4094
  rw [filled] at nonempty ⊢
  exact ⟨take_left, rfl, length_pos_iff.mpr nonempty⟩

/-- A page that is loaded is in the cache afterwards; a page beyond the end of the file
is not loaded. -/
theorem loadPage_spec (coherent : state.Coherent id file ∅) (reachable : index < maxPages) :
    (file.page index = [] ∧ loadPage file ⟨id, index⟩ state = (false, state)) ∨
      ∃ after, loadPage file ⟨id, index⟩ state = (true, after) ∧ after.Coherent id file ∅ ∧
        after.contains ⟨id, index⟩ = true := by
  have filled : fillPage file index pageSize [] = file.page index :=
    fillPage_eq file reachable 4094
  have loaded := loadPage_coherent ⟨id, index⟩ coherent fun _ => rfl
  simp only [loadPage, filled] at loaded ⊢
  rcases Decidable.em (file.page index = []) with empty | nonempty
  · exact .inl ⟨empty, if_pos empty⟩
  · rw [if_neg nonempty] at loaded ⊢
    exact .inr ⟨_, rfl, loaded, contains_insertPage _ _ _ _⟩

/-- A page that shows the file yields what the file has there. -/
theorem CachedPage.Shows.copy {pageOffset : Nat} (shows : page.Shows file index)
    (inPage : pageOffset < pageSize)
    (len : Nat) :
    (if page.len ≤ pageOffset then ([], true)
      else ((page.frame.drop pageOffset).take (min len (page.len - pageOffset)),
        decide (page.len < pageSize))) =
      (((file.page index).drop pageOffset).take len,
        decide ((file.page index).length < pageSize)) := by
  obtain ⟨bytes, lenEq, -⟩ := shows
  split
  · rename_i beyond
    rw [lenEq] at beyond
    rw [drop_eq_nil_of_le beyond, take_nil, decide_eq_true (beyond.trans_lt inPage)]
  · rw [lenEq] at bytes ⊢
    conv_rhs => rw [← bytes, drop_take, take_take]
    rw [bytes]

/-- A read from the cache either finds no page or copies what the file has. -/
theorem copyCached_spec {pageOffset : Nat} (coherent : state.Coherent id file ∅)
    (reachable : index < maxPages) (inPage : pageOffset < pageSize) (len : Nat) :
    ∃ after, after.Coherent id file ∅ ∧
      state.copyCached ⟨id, index⟩ pageOffset len = (if state.contains ⟨id, index⟩ then
          some (((file.page index).drop pageOffset).take len,
            decide ((file.page index).length < pageSize))
        else none, after) := by
  refine ⟨state.nextAccess.2.touch ⟨id, index⟩ state.nextAccess.1,
    coherent.nextAccess.touch _ _, ?_⟩
  have lookup : state.nextAccess.2.find ⟨id, index⟩ = state.find ⟨id, index⟩ := rfl
  have held : state.contains ⟨id, index⟩ = (state.find ⟨id, index⟩).isSome := rfl
  simp only [copyCached, cachedPage, lookup]
  rw [held]
  cases found : state.find ⟨id, index⟩ with
  | none => rfl
  | some page =>
    have shows := coherent _ (find_eq_some found) rfl reachable (Set.notMem_empty _)
    simpa using shows.copy inPage len

/-! ## Reading -/

variable {offset : Nat}

namespace FileContents

variable (file : FileContents)

theorem read_append (offset first second : Nat) :
    file.read offset first ++ file.read (offset + first) second =
      file.read offset (first + second) := by
  rw [read, read, read, take_add, drop_drop]

/-- Nothing is read beyond the end of the file. -/
theorem read_eq_of_size_le {first : Nat} (bound : first ≤ len)
    (ends : file.size ≤ offset + first) : file.read offset len = file.read offset first := by
  obtain ⟨rest, rfl⟩ := Nat.exists_eq_add_of_le bound
  rw [← read_append, ← append_nil (file.read offset first), append_assoc]
  congr 1
  rw [nil_append, ← length_eq_zero_iff, length_read]
  omega

/-- How much of `len` bytes from an offset lies in the page of the offset. -/
def untilPageEnd (offset len : Nat) : Nat :=
  min len (pageSize - offset % pageSize)

/-- A read inside a page is a read of the file. -/
theorem page_drop_take (offset len : Nat) :
    ((file.page (offset / pageSize)).drop (offset % pageSize)).take len =
      file.read offset (untilPageEnd offset len) := by
  rw [page, read, read, drop_take, drop_drop, take_take, untilPageEnd, div_add_mod']

/-- A page is short exactly when the file ends in it or before it. -/
theorem length_page_lt_iff (offset : Nat) : (file.page (offset / pageSize)).length < pageSize ↔
      file.size < offset + (pageSize - offset % pageSize) := by
  have inPage := mod_lt offset (show 0 < pageSize by decide)
  have split := div_add_mod' offset pageSize
  rw [page, length_read]
  omega

theorem size_le_of_page_eq_nil (empty : file.page (offset / pageSize) = []) :
    file.size ≤ offset := by
  have length := congrArg List.length empty
  rw [page, length_read, length_nil] at length
  simp only [pageSize_eq, pageShift] at *
  omega

/-- The page that a file ends in has some bytes, but not all. -/
theorem page_of_uneven (uneven : file.size % pageSize ≠ 0) :
    file.page (file.size / pageSize) ≠ [] ∧
      (file.page (file.size / pageSize)).length < pageSize := by
  rw [← length_pos_iff, page, length_read]
  simp only [pageSize_eq, pageShift] at *
  omega

theorem untilPageEnd_pos (some : 0 < len) : 0 < untilPageEnd offset len := by
  have inPage := mod_lt offset (show 0 < pageSize by decide)
  rw [untilPageEnd]
  omega

/-- When the file ends in the page, the rest of the page is the rest of the read. -/
theorem read_untilPageEnd_of_short {copied : Nat} (bound : copied ≤ len)
    (short : file.size < offset + copied + (pageSize - (offset + copied) % pageSize)) :
    file.read offset (copied + untilPageEnd (offset + copied) (len - copied)) =
      file.read offset len := by
  simp only [untilPageEnd]
  rcases le_total (len - copied) (pageSize - (offset + copied) % pageSize) with
    within | beyond
  · rw [Nat.min_eq_left within, Nat.add_sub_cancel' bound]
  · exact (file.read_eq_of_size_le (by omega) (by omega)).symm

/-- A page that is full yields all that is asked of it. -/
theorem length_read_untilPageEnd_of_full (len : Nat)
    (full : ¬ file.size < offset + (pageSize - offset % pageSize)) :
    (file.read offset (untilPageEnd offset len)).length = untilPageEnd offset len := by
  rw [length_read, untilPageEnd]
  omega

end FileContents

/-- Some of a read is done: what was copied is what the file has. -/
structure FileContents.Copied (file : FileContents) (offset len : Nat) (copied : List Byte) :
    Prop where
  held : copied = file.read offset copied.length
  bound : copied.length ≤ len

namespace FileContents.Copied

variable {file : FileContents} {copied : List Byte}

theorem nil : file.Copied offset len [] := by
  constructor
  · rw [length_nil, FileContents.read, take_zero]
  · exact zero_le _

variable (done : file.Copied offset len copied)
include done

theorem eq_of_length_eq (all : ¬copied.length < len) : copied = file.read offset len := by
  rw [le_antisymm (Nat.le_of_not_lt all) done.bound]
  exact done.held

/-- Everything is copied when the file ends where the read stands. -/
theorem eq_of_size_le (past : file.size ≤ offset + copied.length) :
    copied = file.read offset len := by
  rw [file.read_eq_of_size_le done.bound past]
  exact done.held

theorem absolute_lt (offset_lt : offset < Word.size) : offset + copied.length < Word.size := by
  have inside := congrArg List.length done.held
  have sizeLt := file.size_lt
  simp only [length_read, size] at inside
  omega

theorem reachable (offset_lt : offset < Word.size) :
    (offset + copied.length) / pageSize < maxPages := by
  have absolute := done.absolute_lt offset_lt
  simp only [maxPages, pageSize_eq, pageShift, Word.size] at absolute ⊢
  omega

/-- What one lookup can do: the page is not there, or its bytes end the read, or they
continue it. -/
inductive Lookup (file : FileContents) (offset len : Nat) (copied : List Byte) :
    Bool → Option (List Byte × Bool) → Prop
  | miss : Lookup file offset len copied false none
  | empty {short : Bool} (all : copied = file.read offset len) :
      Lookup file offset len copied true (some ([], short))
  | short {chunk : List Byte} (nonempty : chunk ≠ [])
    (all : copied ++ chunk = file.read offset len) :
      Lookup file offset len copied true (some (chunk, true))
  | full {chunk : List Byte} (nonempty : chunk ≠ [])
    (more : file.Copied offset len (copied ++ chunk)) :
      Lookup file offset len copied true (some (chunk, false))

open FileContents in
theorem lookup (more : copied.length < len) (offset_lt : offset < Word.size)
    (coherent : state.Coherent id file ∅) :
    ∃ found after, state.copyCached ⟨id, (offset + copied.length) / pageSize⟩
        ((offset + copied.length) % pageSize) (len - copied.length) = (found, after) ∧
      after.Coherent id file ∅ ∧ Lookup file offset len copied
        (state.contains ⟨id, (offset + copied.length) / pageSize⟩) found := by
  have inPage := mod_lt (offset + copied.length) (show 0 < pageSize by decide)
  obtain ⟨after, stays, run⟩ :=
    copyCached_spec coherent (done.reachable offset_lt) inPage (len - copied.length)
  rw [file.page_drop_take] at run
  refine ⟨_, after, run, stays, ?_⟩
  cases state.contains ⟨id, (offset + copied.length) / pageSize⟩ with
  | false => exact .miss
  | true =>
    rw [if_pos rfl]
    have extended := file.read_append offset copied.length
      (untilPageEnd (offset + copied.length) (len - copied.length))
    have progress : 0 < untilPageEnd (offset + copied.length) (len - copied.length) :=
      untilPageEnd_pos (Nat.sub_pos_of_lt more)
    have within : untilPageEnd (offset + copied.length) (len - copied.length) ≤
        len - copied.length := min_le_left _ _
    have chunkLength := file.length_read (offset + copied.length)
      (untilPageEnd (offset + copied.length) (len - copied.length))
    rw [← done.held] at extended
    rcases Decidable.em (file.read (offset + copied.length)
      (untilPageEnd (offset + copied.length) (len - copied.length)) = []) with empty | nonempty
    · -- Nothing is left in the page, so the file ends here.
      rw [empty, length_nil] at chunkLength
      rw [empty]
      exact .empty (done.eq_of_size_le (by omega))
    rcases Decidable.em ((file.page ((offset + copied.length) / pageSize)).length < pageSize)
      with short | full
    · -- A short page is the last one.
      rw [decide_eq_true short]
      rw [length_page_lt_iff] at short
      exact .short nonempty (extended.trans (file.read_untilPageEnd_of_short done.bound short))
    rw [decide_eq_false full]
    rw [length_page_lt_iff] at full
    have longer := file.length_read_untilPageEnd_of_full (len - copied.length) full
    refine .full nonempty ⟨?_, ?_⟩
    · rw [length_append, longer, extended]
    · rw [length_append, longer]
      omega

end FileContents.Copied

/-- The loop returns what the file has.  A page that is missing costs one turn
more, and the next turn then finds it. -/
theorem readLoop_spec (offset_lt : offset < Word.size) (turns : Nat) (copied : List Byte)
    (state : PageCacheState)
    (coherent : state.Coherent id file ∅) (done : file.Copied offset len copied)
    (enough : 2 * (len - copied.length) +
      (if state.contains ⟨id, (offset + copied.length) / pageSize⟩ then 0 else 1) < turns) :
    ∃ after, readLoop file id offset len turns copied state =
      some (.ok (file.read offset len), after) ∧ after.Coherent id file ∅ := by
  induction turns generalizing copied state with
  | zero => exact absurd enough (not_lt_zero _)
  | succ turns ih =>
    unfold readLoop
    split
    swap
    · rw [← done.eq_of_length_eq ‹_›]
      exact ⟨_, rfl, coherent⟩
    rename_i more
    dsimp only
    rw [if_neg (not_le.mpr (done.absolute_lt offset_lt))]
    obtain ⟨found, after, run, stays, looked⟩ := done.lookup more offset_lt coherent
    rw [run]
    generalize state.contains _ = cached at enough looked
    cases looked with
    | miss =>
      dsimp only
      rw [if_neg Bool.false_ne_true] at enough
      rcases loadPage_spec stays (done.reachable offset_lt) with
        ⟨empty, load⟩ | ⟨loaded, load, shows, found⟩
      · rw [load, ← done.eq_of_size_le (file.size_le_of_page_eq_nil empty)]
        exact ⟨_, rfl, stays⟩
      · rw [load]
        exact ih copied loaded shows done (by rw [found, if_pos rfl]; omega)
    | empty all => exact ⟨_, by rw [← all]; rfl, stays⟩
    | short nonempty all =>
      dsimp only
      rw [if_neg nonempty, all]
      exact ⟨_, rfl, stays⟩
    | full nonempty further =>
      dsimp only
      rw [if_neg nonempty]
      apply ih _ after stays further
      have progress := length_pos_iff.mpr nonempty
      have bound := further.bound
      rw [length_append] at bound ⊢
      split <;> omega

/-- A read through a coherent cache returns what the file has. -/
theorem pageCacheRead_spec (coherent : state.Coherent id file ∅) (offset_lt : offset < Word.size)
    (len : Nat) : ∃ after, pageCacheRead file id offset len state =
      some (.ok (file.read offset len), after) ∧ after.Coherent id file ∅ := by
  unfold pageCacheRead
  split
  · rename_i empty
    refine ⟨state, ?_, coherent⟩
    rw [empty, FileContents.read, take_zero]
  · apply readLoop_spec offset_lt _ [] state coherent .nil
    split <;> omega

theorem prefetchRange_coherent {other : CachedFileId} (coherent : state.Coherent id contents ∅)
    (right : other = id → file = contents) (offset len : Nat) :
    (prefetchRange file other offset len state).Coherent id contents ∅ := by
  unfold prefetchRange
  dsimp only
  generalize List.range _ = pages
  induction pages generalizing state with
  | nil => exact coherent
  | cons page pages ih =>
    rw [foldl_cons]
    apply ih
    split
    · exact coherent
    · exact loadPage_coherent _ coherent right

/-! ## Writing -/

variable {data : List Byte}

namespace FileContents

variable (file : FileContents)

theorem length_take_offset (bytes : List Byte) (offset : Nat) :
    ((bytes ++ List.replicate (offset - bytes.length) 0).take offset).length = offset := by
  rw [length_take, length_append, length_replicate]
  omega

/-- What lies behind the last byte written stays as it is. -/
theorem drop_written {bytes : List Byte} {start : Nat} (behind : offset + data.length ≤ start) :
    (written bytes offset data).drop start = bytes.drop start := by
  obtain ⟨more, rfl⟩ := Nat.exists_eq_add_of_le behind
  have length := length_take_offset bytes offset
  rw [written, ← append_assoc, ← drop_drop, drop_left', drop_drop]
  rw [length_append, length]

/-- What lies in the file before the first byte written stays as it is. -/
theorem take_written {bytes : List Byte} {stop : Nat}
    (before : stop ≤ offset) (inside : stop ≤ bytes.length) :
    (written bytes offset data).take stop = bytes.take stop := by
  have length := length_take_offset bytes offset
  rw [written, take_append_of_le_length (by omega), take_take,
    Nat.min_eq_left before, take_append_of_le_length inside]

end FileContents

variable (state : CachedFile)

/-- The file ends inside a page that is cached, and a write starts in a later
page: the page of the end grows, and nothing drops it. -/
def CachedFile.LeavesStalePage (offset : Nat) : Prop :=
  state.file.size % pageSize ≠ 0 ∧ state.file.size / pageSize < offset / pageSize ∧
    state.cache.contains ⟨state.id, state.file.size / pageSize⟩ = true

instance (state : CachedFile) (offset : Nat) : Decidable (state.LeavesStalePage offset) :=
  inferInstanceAs (Decidable (_ ∧ _ ∧ _))

/-- A page that a write does not drop has the same bytes afterwards. -/
theorem FileContents.page_written {before after : FileContents}
    (bytes : after.bytes = written before.bytes offset data)
    (untouched : offset + data.length ≤ index * pageSize ∨
      (index + 1) * pageSize ≤ offset ∧ (index + 1) * pageSize ≤ before.size) :
    after.page index = before.page index := by
  have segment : ∀ list : List Byte, (list.drop (index * pageSize)).take pageSize =
      (list.take ((index + 1) * pageSize)).drop (index * pageSize) := by
    intro list
    rw [drop_take, succ_mul, Nat.add_sub_cancel_left]
  rw [page, page, read, read, bytes]
  rcases untouched with behind | ⟨ahead, inside⟩
  · rw [drop_written behind]
  · rw [segment, segment, take_written ahead inside]

theorem FileContents.write_cases {file after : FileContents}
    (done : file.write offset data = some after) :
    data = [] ∧ after = file ∨ data ≠ [] ∧ offset + data.length < Word.size ∧
        after.bytes = written file.bytes offset data := by
  unfold write at done
  split at done
  · rename_i empty
    cases done
    exact .inl ⟨empty, rfl⟩
  rename_i nonempty
  split at done
  · rename_i fits
    cases done
    exact .inr ⟨nonempty, fits, rfl⟩
  · cases done

theorem CachedPage.Shows.congr {before after : FileContents}
    (shows : page.Shows before index) (same : after.page index = before.page index) :
    page.Shows after index := by
  obtain ⟨bytes, lenEq, lenPos⟩ := shows
  constructor
  · rw [same, bytes]
  · rw [same, lenEq]
  · exact lenPos

/-- The pages that `invalidate_file_range` drops. -/
def pagesOf (offset len : Nat) : Set Nat :=
  {index | 0 < len ∧ offset / pageSize ≤ index ∧
    index ≤ min (offset + (len - 1)) (Word.size - 1) / pageSize}

namespace PageCacheState

/-- What a write leaves in the cache of its file lies outside its pages. -/
theorem mem_invalidateFileRange {state : PageCacheState} (sameFile : entry.1.file = id) :
    entry ∈ (state.invalidateFileRange id offset len).entries ↔ entry ∈ state.entries ∧
      entry.1.pageIndex ∉ pagesOf offset len := by
  rw [invalidateFileRange]
  split
  · rename_i nothing
    simp [pagesOf, nothing]
  · rename_i some
    rw [invalidatePages, mem_filter]
    simp only [sameFile, pagesOf, pos_iff_ne_zero.mpr some, Set.mem_ofPred_eq, decide_true,
      Bool.true_and, true_and, Bool.not_eq_true', Bool.and_eq_false_iff, decide_eq_false_iff_not,
      not_and_or]

/-- The pages that a write drops are not outdated any more. -/
theorem Coherent.dropped {state : PageCacheState} {file : FileContents} {stale : Set Nat}
    (coherent : state.Coherent id file (pagesOf offset len ∪ stale)) :
    (state.invalidateFileRange id offset len).Coherent id file stale := by
  intro entry member sameFile reachable fresh
  obtain ⟨before, kept⟩ := (mem_invalidateFileRange sameFile).mp member
  exact coherent entry before sameFile reachable fun outdated => outdated.elim kept fresh

end PageCacheState

namespace CachedFile

/-- Every page of the file in the cache shows the file. -/
def Coherent (state : CachedFile) : Prop :=
  state.cache.Coherent state.id state.file ∅

variable (state : CachedFile)

/-- The write goes through and leaves a stale page. -/
def WritesStale (handle : VfsFile) (data : List Byte) : Prop :=
  handle.canWrite = true ∧ data ≠ [] ∧
    (state.positioned handle).position + data.length < Word.size ∧
    state.LeavesStalePage (state.positioned handle).position

instance (state : CachedFile) (handle : VfsFile) (data : List Byte) :
    Decidable (state.WritesStale handle data) :=
  inferInstanceAs (Decidable (_ ∧ _ ∧ _ ∧ _))

/-- Reads through the cache return what reads of the file return. -/
def ReadsExact : Prop :=
  ∀ handle len, handle.canRead = true →
    ∃ after, state.read handle len = some (.ok (state.file.read handle.position len), after)

variable {state}

/-- A cached page that a write leaves in the cache lies behind it, or is a full
page before it. -/
theorem page_untouched {count : Nat} (fits : offset + count < Word.size) (some : 0 < count)
    (harmless : ¬state.LeavesStalePage offset)
    (cached : state.cache.contains ⟨state.id, index⟩ = true) (nonempty : state.file.page index ≠ [])
    (kept : index ∉ pagesOf offset count) :
    offset + count ≤ index * pageSize ∨
      (index + 1) * pageSize ≤ offset ∧ (index + 1) * pageSize ≤ state.file.size := by
  have started : index * pageSize < state.file.size := by
    have length := length_pos_iff.mpr nonempty
    rw [FileContents.page, FileContents.length_read] at length
    omega
  rw [pagesOf, Set.mem_ofPred_eq] at kept
  rcases lt_or_ge index (offset / pageSize) with ahead | behind
  · right
    have full : (index + 1) * pageSize ≤ state.file.size := by
      by_contra short
      have last : state.file.size / pageSize = index := by
        simp only [pageSize_eq, pageShift] at *
        omega
      apply harmless
      refine ⟨?_, by rwa [last], by rwa [last]⟩
      simp only [pageSize_eq, pageShift] at *
      omega
    simp only [pageSize_eq, pageShift] at *
    omega
  · simp only [pageSize_eq, pageShift] at *
    omega

/-- A write that leaves no stale page outdates only the pages that it drops afterwards. -/
theorem Coherent.written {after : FileContents} {stale : Set Nat}
    (coherent : state.cache.Coherent state.id state.file stale)
    (nonempty : data ≠ []) (fits : offset + data.length < Word.size)
    (bytes : after.bytes = FileContents.written state.file.bytes offset data)
    (harmless : ¬state.LeavesStalePage offset) :
    state.cache.Coherent state.id after (pagesOf offset data.length ∪ stale) := by
  intro entry member sameFile reachable fresh
  rw [Set.mem_union, not_or] at fresh
  have shows := coherent entry member sameFile reachable fresh.2
  have cached : state.cache.contains ⟨state.id, entry.1.pageIndex⟩ = true := by
    rw [← sameFile]
    exact contains_iff.mpr ⟨entry.2, member⟩
  have held : state.file.page entry.1.pageIndex ≠ [] :=
    length_pos_iff.mp (shows.len_eq ▸ shows.len_pos)
  apply shows.congr
  apply FileContents.page_written bytes
  exact page_untouched fits (length_pos_iff.mpr nonempty) harmless cached held fresh.1

variable {handle : VfsFile}

/-- A write that leaves no stale page keeps the cache coherent. -/
theorem Coherent.write (coherent : state.Coherent)
    (harmless : ¬state.WritesStale handle data) : (state.write handle data).2.2.Coherent := by
  unfold CachedFile.write
  split
  swap
  · exact coherent
  rename_i writable
  dsimp only
  split
  · exact coherent
  rename_i file done
  rcases FileContents.write_cases done with ⟨rfl, rfl⟩ | ⟨nonempty, fits, bytes⟩
  · exact Coherent.invalidateFileRange coherent _ _ _
  · have written := Coherent.written coherent nonempty fits bytes
      fun stale => harmless ⟨writable, nonempty, fits, stale⟩
    exact written.dropped

theorem Coherent.read (coherent : state.Coherent) (readable : handle.canRead = true) (len : Nat) :
    ∃ cache, state.read handle len = some (.ok (state.file.read handle.position len),
      handle.advance (state.file.read handle.position len).length,
      { state with cache := cache }) ∧ cache.Coherent state.id state.file ∅ := by
  obtain ⟨cache, run, stays⟩ := pageCacheRead_spec coherent handle.position_lt len
  refine ⟨cache, ?_, stays⟩
  rw [CachedFile.read, if_pos readable, run]

theorem Coherent.readsExact (coherent : state.Coherent) :
    state.ReadsExact := by
  intro handle len readable
  obtain ⟨cache, run, -⟩ := coherent.read readable len
  exact ⟨_, run⟩

variable (state) in
/-- A short page that is cached ends the read, whatever the file has there now. -/
theorem read_of_short {before : FileContents} (shows : state.cache.Coherent state.id before ∅)
    (cached : state.cache.contains ⟨state.id, index⟩ = true) (reachable : index < maxPages)
    (nonempty : before.page index ≠ []) (short : (before.page index).length < pageSize)
    (readable : handle.canRead = true) (position : handle.position = index * pageSize) :
    ∃ after, state.read handle pageSize = some (.ok (before.page index), after) := by
  have start : index * pageSize < Word.size := by
    rw [← position]
    exact handle.position_lt
  have page : (index * pageSize) / pageSize = index := Nat.mul_div_cancel _ (by decide)
  obtain ⟨after, -, run⟩ :=
    copyCached_spec shows reachable (show 0 < pageSize by decide) pageSize
  have all : ((before.page index).drop 0).take pageSize = before.page index :=
    take_of_length_le short.le
  rw [cached, if_pos rfl, all, decide_eq_true short] at run
  have loop : pageCacheRead state.file state.id (index * pageSize) pageSize state.cache =
      some (.ok (before.page index), after) := by
    rw [pageCacheRead, if_neg (by decide), readLoop, if_pos (by decide)]
    dsimp only [length_nil]
    rw [add_zero, if_neg (not_le.mpr start), page, mul_mod_left, Nat.sub_zero, run]
    dsimp only
    rw [if_neg nonempty, if_pos rfl, nil_append]
  rw [CachedFile.read, if_pos readable, position, loop]
  exact ⟨_, rfl⟩

theorem write_eq_of_fits (writable : handle.canWrite = true) (nonempty : data ≠ [])
    (fits : (state.positioned handle).position + data.length < Word.size) :
    ∃ file : FileContents,
      file.bytes = FileContents.written state.file.bytes (state.positioned handle).position data ∧
      (state.write handle data).2.2 = { state with
          file := file
          cache := state.cache.invalidateFileRange state.id
            (state.positioned handle).position data.length } := by
  have small : (FileContents.written state.file.bytes (state.positioned handle).position
      data).length < Word.size := by
    rw [FileContents.length_written]
    exact max_lt state.file.size_lt fits
  refine ⟨⟨_, small⟩, rfl, ?_⟩
  simp only [CachedFile.write, writable, if_true, FileContents.write, nonempty, if_false,
    dif_pos fits]

/-- After a write that leaves a stale page, reading that page is wrong. -/
theorem Coherent.not_readsExact (coherent : state.Coherent)
    (stale : state.WritesStale handle data) : ¬(state.write handle data).2.2.ReadsExact := by
  obtain ⟨writable, nonempty, fits, uneven, later, cached⟩ := stale
  obtain ⟨file, bytes, run⟩ := write_eq_of_fits writable nonempty fits
  obtain ⟨started, short⟩ := state.file.page_of_uneven uneven
  have size : state.file.size < Word.size := state.file.size_lt
  have reachable : state.file.size / pageSize < maxPages := by
    simp only [maxPages, pageSize_eq, pageShift, Word.size] at size ⊢
    omega
  have stillCached : (state.cache.invalidateFileRange state.id
      (state.positioned handle).position data.length).contains
        ⟨state.id, state.file.size / pageSize⟩ = true := by
    obtain ⟨page, member⟩ := contains_iff.mp cached
    exact contains_iff.mpr ⟨page, (mem_invalidateFileRange rfl).mpr
        ⟨member, fun inside => absurd inside.2.1 (not_le.mpr later)⟩⟩
  have full : (file.page (state.file.size / pageSize)).length = pageSize := by
    have grown : (state.positioned handle).position ≤ file.size := by
      rw [FileContents.size, bytes, FileContents.length_written]
      omega
    have before := Nat.mul_le_of_le_div _ _ _ (succ_le_of_lt later)
    rw [succ_mul] at before
    rw [FileContents.page, FileContents.length_read]
    omega
  rw [run]
  intro exact
  let reader : VfsFile := ⟨state.file.size / pageSize * pageSize, true, false, false,
      (div_mul_le_self _ _).trans_lt size⟩
  have shows : (state.cache.invalidateFileRange state.id (state.positioned handle).position
      data.length).Coherent state.id state.file ∅ :=
    Coherent.invalidateFileRange coherent _ _ _
  obtain ⟨_, stale⟩ := read_of_short ⟨state.id, file, state.cache.invalidateFileRange state.id
    (state.positioned handle).position data.length⟩ shows stillCached reachable started short
    (show reader.canRead = true from rfl) rfl
  obtain ⟨_, fresh⟩ := exact reader pageSize rfl
  rw [stale] at fresh
  have same : state.file.page (state.file.size / pageSize) =
      file.page (state.file.size / pageSize) := by
    injection fresh with fresh
    injection fresh with fresh
    injection fresh
  rw [same, full] at short
  exact absurd short (lt_irrefl _)

end CachedFile

/-! ## Runs -/

/-- One step of the file and its cache. -/
def fileStep (operation : FileOperation) (after : CachedFile) : Prop :=
  operation.perform state = some after

/-- A write does not leave a stale page; other operations are always harmless. -/
def FileOperation.Harmless : FileOperation → Prop
  | .write handle data => ¬state.WritesStale handle data
  | _ => True

theorem coherent_of_step {state after : CachedFile} {operation : FileOperation}
    (coherent : state.Coherent) (harmless : operation.Harmless state)
    (step : fileStep state operation after) : after.Coherent := by
  unfold fileStep perform at step
  cases operation with
  | read handle len =>
    dsimp only at step
    rcases Bool.eq_false_or_eq_true handle.canRead with readable | closed
    · obtain ⟨cache, run, stays⟩ := coherent.read readable len
      rw [run] at step
      cases step
      exact stays
    · simp only [CachedFile.read, closed] at step
      cases step
      exact coherent
  | write handle data =>
    cases step
    exact coherent.write harmless
  | truncate | fallocate =>
    cases step
    exact invalidateAll_coherent _ _ _ _
  | advise offset len advice =>
    dsimp only at step
    split at step
    · cases step
      exact Coherent.invalidateFileRange coherent _ _ _
    · cases step
      exact prefetchRange_coherent coherent (fun _ => rfl) _ _
    · cases step
      exact coherent
  | evict =>
    cases step
    exact Coherent.evictOne coherent
  | reclaim =>
    cases step
    intro entry member
    cases member
  | loadOther key frame len =>
    dsimp only at step
    split at step
    · cases step
    · rename_i other
      cases step
      exact Coherent.insertPage coherent fun same => absurd same other

/-- From a state whose cache has no page of the file, as long as no write leaves a
stale page, every read returns what the file has; and the first operation after
which some read does not is a write that leaves a stale page. -/
theorem reads_exact_while_harmless {start last : CachedFile} {operations : List FileOperation}
    (fresh : ∀ entry ∈ start.cache.entries, entry.1.file ≠ start.id)
    (run : Run (Guarded (fun state operation => operation.Harmless state) fileStep)
      start operations last) :
    last.ReadsExact ∧ ∀ operation after, fileStep last operation after →
      (after.ReadsExact ↔ operation.Harmless last) := by
  have coherent : last.Coherent := by
    refine run.invariant (fun state operation after before moves => ?_) ?_
    · exact coherent_of_step before moves.1 moves.2
    · exact coherent_of_uncached fresh
  refine ⟨coherent.readsExact, fun operation after step => ⟨fun exact => ?_, fun harmless => ?_⟩⟩
  · cases operation with
    | write handle data =>
      cases step
      exact fun stale => coherent.not_readsExact stale exact
    | _ => trivial
  · exact (coherent_of_step coherent harmless step).readsExact

/-! ## A sparse write after a read -/

theorem one_byte_fits : [(7 : Byte)].length < Word.size := by
  decide

/-- A file of one byte that nothing is cached of. -/
def oneByteFile : CachedFile :=
  ⟨⟨0, 1⟩, ⟨[7], one_byte_fits⟩, new⟩

/-- A description open for reading and writing. -/
def openAt (position : Nat) (fits : position < Word.size) : VfsFile :=
  ⟨position, true, true, false, fits⟩

/-- Two bytes are read, then a byte is written into the second page; reading
again still yields one byte. -/
theorem sparse_write_hides_bytes : ∃ last, Run fileStep oneByteFile
        [.read (openAt 0 (by decide)) 2, .write (openAt 4096 (by decide)) [9]] last ∧
      last.file.read 0 2 = [7, 0] ∧
      (last.read (openAt 0 (by decide)) 2).map (fun result => result.1.toOption) =
        some (some [7]) := by
  have trace : ((read (openAt 0 (by decide)) 2).perform oneByteFile).bind
      (fun middle =>
        ((write (openAt 4096 (by decide)) [9]).perform middle).map fun last =>
          (last.file.read 0 2,
            (last.read (openAt 0 (by decide)) 2).map fun result => result.1.toOption)) =
      some ([7, 0], some (some [7])) := by
    rfl
  obtain ⟨middle, first, rest⟩ := bind_eq_some_iff.mp trace
  obtain ⟨last, second, outcome⟩ := map_eq_some_iff.mp rest
  obtain ⟨contents, observed⟩ := Prod.mk.inj outcome
  exact ⟨last, .cons first (.cons second .nil), contents, observed⟩

/-- A write that starts in the page of the end is seen by the next read. -/
theorem reads_exact_while_harmless_append :
    ∃ last, Run (Guarded (fun state operation => operation.Harmless state) fileStep) oneByteFile
        [.read (openAt 0 (by decide)) 2, .write (openAt 1 (by decide)) [9]] last ∧
      last.ReadsExact := by
  have returns : ((read (openAt 0 (by decide)) 2).perform oneByteFile).isSome := by
    rfl
  obtain ⟨middle, first⟩ := isSome_iff_exists.mp returns
  have harmless : (write (openAt 1 (by decide)) [9]).Harmless middle := by
    rintro ⟨-, -, -, -, later, -⟩
    simp [CachedFile.positioned, openAt, pageSize_eq, pageShift] at later
  have run : Run (Guarded (fun state operation => operation.Harmless state) fileStep) oneByteFile
      [.read (openAt 0 (by decide)) 2, .write (openAt 1 (by decide)) [9]] _ :=
    .cons ⟨trivial, first⟩ (.cons ⟨harmless, rfl⟩ .nil)
  have fresh : ∀ entry ∈ oneByteFile.cache.entries, entry.1.file ≠ oneByteFile.id := by
    intro entry member
    cases member
  exact ⟨_, run, (reads_exact_while_harmless fresh run).1⟩

end AetherKernel.Vfs
