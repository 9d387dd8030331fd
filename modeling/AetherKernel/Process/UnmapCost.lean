import AetherKernel.Process.Build

/-!
# The work of unmapping

`munmap` takes a turn for every page of the rounded length, whether the page is
mapped or not, and then one for every area.
-/

namespace AetherKernel.Process

open Lib Mm Exec Word Vmas

/-! ## Unmapping a page returns -/

variable {A α : Type}

theorem withFrames_total (call : A → Except FrameAllocError α × A) : (withFrames call).Total := by
  intro state
  rcases run : call state.frames with ⟨_ | _, frames⟩ <;> simp [withFrames, run]

theorem withMapper_total {call : MapperM A α} (returns : call.Total) : (withMapper call).Total := by
  intro state
  rcases Option.isSome_iff_exists.mp (returns ⟨state.frames, state.table⟩) with
    ⟨result, run⟩
  simp [withMapper, run]

variable [FrameAllocator A]

theorem pruneEmptyTables_total (virt level : Nat) :
    (pruneEmptyTables (A := A) virt level).Total := by
  induction level with
  | zero => exact fun _ => rfl
  | succ level ih =>
    refine .bind (fun _ => rfl) fun state => ?_
    split
    · split
      · exact .bind (fun _ => rfl) fun _ => (withFrames_total _).bind fun _ => ih
      · exact fun _ => rfl
    · exact fun _ => rfl

theorem unmapFrom_total (virt : Nat) (releaseFrame : Bool) (levels level : Nat) :
    (unmapFrom (A := A) virt releaseFrame levels level).Total := by
  induction levels generalizing level with
  | zero => exact fun _ => rfl
  | succ levels ih =>
    have prunes (frame : PhysFrame) :
        (do pruneEmptyTables (A := A) virt level; return frame).Total :=
      (pruneEmptyTables_total virt level).bind fun _ _ => rfl
    refine .bind (fun _ => rfl) fun entry => ?_
    cases entry with
    | absent => exact fun _ => rfl
    | table frame user => exact ih (level + 1)
    | leaf frame flags =>
      refine .bind (fun _ => rfl) fun _ => ?_
      split
      · exact (withFrames_total _).bind fun _ => prunes frame
      · exact prunes frame

theorem unmapPage_total (addr : Nat) : (unmapPage (A := A) addr).Total := by
  refine .bind (fun _ => rfl) fun space => ?_
  split
  · exact fun _ => rfl
  split
  · rename_i index found _ missing
    unfold mappingIndex at found
    split at found
    · rename_i search
      cases found
      obtain ⟨mapping, listed, -⟩ := binarySearchByKey_found search
      nomatch missing.symm.trans listed
    · cases found
  · refine .bind (fun _ => rfl) fun _ => ?_
    unfold dropMapping
    split
    · exact (withMapper_total (unmapFrom_total _ _ _ _)).bind fun _ _ => rfl
    · refine (withMapper_total (unmapFrom_total _ _ _ _)).bind fun _ => ?_
      split
      all_goals exact fun _ => rfl

/-! ## The number of turns -/

/-- `forEach` with the number of turns taken. -/
def forEachTurn {σ ε : Type} (body : α → Exec σ ε Unit) : List α → Exec σ ε Nat
  | [] => return 0
  | x :: rest => do
      body x
      let turns ← forEachTurn body rest
      return turns + 1

theorem forEachTurn_of_ok {σ ε : Type} {body : α → Exec σ ε Unit} {xs : List α} {state after : σ}
    (run : forEach body xs state = some (.ok (), after)) :
    forEachTurn body xs state = some (.ok xs.length, after) := by
  induction xs generalizing state with
  | nil =>
    cases run
    rfl
  | cons x rest ih =>
    change (body x >>= fun _ => forEach body rest) state = _ at run
    rcases turn : body x state with _ | ⟨_ | _, middle⟩
    · simp [Bind.bind, Exec.bind, turn] at run
    · cases (bind_error turn).symm.trans run
    · rw [bind_ok turn] at run
      exact (bind_ok turn).trans (bind_ok (ih run))

/-- `munmap` with the turns of its loop over the pages and of the loop over the
areas in `remove_vma_range`. -/
def munmapTurns (addr len : Nat) : SpaceM A Nat := do
  if len = 0 ∨ isAligned addr pageSize = false then
    throw .addressOverflow
  else
    let alignedLen := alignUp len pageSize
    let pages ← forEachTurn (fun page => do
      let _ ← attempt (unmapPage page)
      return) ((pageOffsets alignedLen).map (wrappingAdd addr))
    let space ← inner
    setVmas fun vmas => removeRange vmas addr (wrappingAdd addr alignedLen)
    return pages + space.vmas.length

/-- The pages of the range that are mapped. -/
def mappedIn (space : UserAddressSpaceInner) (addr len : Nat) : Nat :=
  space.mappings.countP fun mapping => addr ≤ mapping.virt ∧ mapping.virt < addr + len

/-- An accepted call does what `munmap` does, in a turn for each page and area. -/
theorem munmapTurns_eq (space : Space A) (addr len : Nat)
    (accepted : ¬(len = 0 ∨ isAligned addr pageSize = false)) :
    ∃ after, munmap addr len space = some (.ok (), after) ∧ munmapTurns addr len space =
      some (.ok (alignUp len pageSize / pageSize + space.vmas.length), after) := by
  have returns : (unmapPages ((pageOffsets (alignUp len pageSize)).map (wrappingAdd addr)) :
      SpaceM A Unit).Total :=
    .forEach (fun page => (unmapPage_total page).attempt.bind fun _ _ => rfl) _
  obtain ⟨⟨_, middle⟩, run⟩ := Option.isSome_iff_exists.mp (returns space)
  have paged : Paged (fun _ _ => .absent) False (areas space) space := ⟨rfl, False.elim⟩
  obtain ⟨rfl, kept⟩ := unmapPages_paged paged _ _ _ run
  have same : middle.vmas = space.vmas :=
    (congrArg UserAddressSpaceInner.vmas kept.areas :)
  rw [munmap, munmapTurns, if_neg accepted, if_neg accepted]
  refine ⟨_, bind_ok run, (bind_ok (forEachTurn_of_ok run)).trans ?_⟩
  simp [pageOffsets, ← same]
  rfl

/-- `munmap`, and with it `mmap` at a fixed address, takes at most `factor` turns for
each mapped page of the range, each area and the call itself, exactly if the call is
refused, the length wraps to zero when it is rounded, or it is small enough. -/
theorem munmap_turns_le_iff (space : Space A) (addr len factor : Nat) (word : len < Word.size)
    (positive : 0 < factor) :
    ((munmapTurns addr len).Returns space (fun outcome after =>
      munmap addr len space = some (outcome.map fun _ => (), after) ∧ ∀ turns, outcome = .ok turns →
        turns ≤ factor * (mappedIn space.inner addr len + space.vmas.length + 1)) ↔
      len = 0 ∨ isAligned addr pageSize = false ∨ Word.size - pageSize < len ∨
        len + pageSize * space.vmas.length ≤
          pageSize * (factor * (mappedIn space.inner addr len + space.vmas.length + 1))) ∧
    ∀ flags, hasFlag flags mapFixedNoreplace = false → hasFlag flags mapFixed = true →
      isAligned addr pageSize = true → prepareMappingBase (A := A) addr len flags = do
        let _ ← attempt (munmap addr len)
        return addr := by
  constructor
  · by_cases refused : len = 0 ∨ isAligned addr pageSize = false
    · refine iff_of_true ?_ (or_assoc.mp (.inl refused))
      rw [munmapTurns, if_pos refused, munmap, if_pos refused]
      exact .throw ⟨rfl, nofun⟩
    obtain ⟨after, plain, counted⟩ := munmapTurns_eq space addr len refused
    have areas := Nat.le_mul_of_pos_left
      (mappedIn space.inner addr len + space.vmas.length + 1) positive
    generalize factor * _ = bound at areas ⊢
    have pages : alignUp len pageSize / pageSize + space.vmas.length ≤ bound ↔
        Word.size - pageSize < len ∨
          len + pageSize * space.vmas.length ≤ pageSize * bound := by
      rw [alignUp_pageSize]
      simp only [pageSize_eq, pageShift, Word.size] at *
      omega
    rw [← or_assoc, or_iff_right refused, ← pages]
    constructor
    · intro returns
      exact (returns.of_run counted).2 _ rfl
    · intro few
      refine ⟨_, _, counted, plain, fun turns same => ?_⟩
      cases same
      exact few
  · intro flags free fixed aligned
    simp [prepareMappingBase, free, fixed, aligned]

/-- An address space in which nothing is mapped. -/
def emptySpace : Space FramePool :=
  ⟨bareMachine, .new ⟨.fromStartAddress 0, fun _ _ => .absent⟩⟩

/-- One of two pages of a device is unmapped, which are one area. -/
theorem munmap_turns_le_one_page : ∃ space,
    mmapPhysical 0x1000 0x2000 mapFixed .empty 0x5000 emptySpace = some (.ok 0x1000, space) ∧
      mappedIn space.inner 0x1000 0x1000 = 1 ∧ space.vmas.length = 1 ∧
      (munmapTurns 0x1000 0x1000).Returns space fun outcome after =>
        munmap 0x1000 0x1000 space = some (outcome.map fun _ => (), after) ∧
          ∀ turns, outcome = .ok turns → turns ≤ 3 := by
  have mapped : (mmapPhysical 0x1000 0x2000 mapFixed .empty 0x5000 emptySpace).map (fun done =>
      (done.1.toOption, mappedIn done.2.inner 0x1000 0x1000, done.2.vmas.length)) =
        some (some 0x1000, 1, 1) := by
    decide +kernel
  obtain ⟨⟨outcome, space⟩, run, seen⟩ := Option.map_eq_some_iff.mp mapped
  simp only [Prod.mk.injEq] at seen
  obtain ⟨ok, pages, areas⟩ := seen
  cases eq_ok_of_toOption ok
  refine ⟨space, run, pages, areas, ?_⟩
  have bound := (munmap_turns_le_iff space 0x1000 0x1000 1 (by decide) (by decide)).1
  rw [pages, areas] at bound
  exact bound.mpr (by decide)

/-- With nothing mapped, one call takes a turn for every page of the address space
but one. -/
theorem munmap_walks_nothing : mappedIn emptySpace.inner 0 (2 ^ 64 - 0x1000) = 0 ∧
    emptySpace.vmas.length = 0 ∧ ∃ after,
      munmapTurns 0 (2 ^ 64 - 0x1000) emptySpace = some (.ok (2 ^ 52 - 1), after) := by
  obtain ⟨after, -, counted⟩ := munmapTurns_eq emptySpace 0 (2 ^ 64 - 0x1000) (by decide)
  exact ⟨rfl, rfl, after, counted⟩

end AetherKernel.Process
