import AetherKernel.Mm.UpperHalf
import AetherKernel.Process.AddressSpace
import AetherKernel.Process.VmaOrder
import Mathlib.Data.List.InsertIdx

/-!
# Pages of an address space

Pages come and go without touching the areas.  Where areas and mappings lie in the
lower half of the address space, so do all pages that are mapped for them, and the
entries of the upper half stay those of the kernel.
-/

namespace AetherKernel.Process

open Lib Mm Word List

/-! ## What the machine does alone -/

section Machine

variable {A α : Type}

theorem keepsInner_callFrames (call : A → Except FrameAllocError α × A) :
    (callFrames call).Keeps Space.inner := by
  intro value state holds outcome after run
  cases run
  exact holds

variable (frame : PhysFrame)
include frame

theorem keepsInner_setMemory (contents : Nat → Byte) :
    (setMemory (A := A) frame contents).Keeps Space.inner :=
  .modify fun _ => rfl

theorem keepsInner_writeFrame (offset : Nat) (bytes : List Byte) :
    (writeFrame (A := A) frame offset bytes).Keeps Space.inner :=
  .bind .get fun _ => keepsInner_setMemory _ _

theorem keepsInner_fillFrom (destOffset : Nat) (read : Except ImageError (List Byte)) :
    (fillFrom (A := A) frame destOffset read).Keeps Space.inner := by
  cases read with
  | ok bytes => exact keepsInner_writeFrame _ _ _
  | error error => exact .throw _

theorem keepsInner_fillLazyPageFromVma (pageBase pageEnd : Nat) (vma : UserVma) :
    (fillLazyPageFromVma (A := A) frame pageBase pageEnd vma).Keeps Space.inner := by
  unfold fillLazyPageFromVma
  split
  · dsimp only
    split
    · exact .pure _
    · split
      · exact .throw _
      · exact keepsInner_fillFrom _ _ _
  · split
    · exact .throw _
    dsimp only
    split
    · exact .pure _
    · split
      · exact .throw _
      · exact keepsInner_fillFrom _ _ _
  · exact .pure _

variable [FrameAllocator A]

omit frame

theorem keepsInner_allocateZeroedOwnedFrame :
    (allocateZeroedOwnedFrame (A := A)).Keeps Space.inner :=
  .bind (keepsInner_callFrames _) fun _ => .bind (keepsInner_setMemory _ _) fun _ => .pure _

end Machine

/-! ## Areas -/

namespace Vmas

/-- All areas lie in the lower half. -/
def Low (vmas : List UserVma) : Prop :=
  ∀ vma ∈ vmas, vma.start ≤ lowerHalfEnd ∧ vma.stop ≤ lowerHalfEnd

variable {vmas : List UserVma} {vma : UserVma} {lower base len upper : Nat}

theorem Low.merges {after : List UserVma} (merges : Relation.ReflTransGen MergeStep vmas after)
    (low : Low vmas) : Low after :=
  forall_mem_of_merges (fun _ _ _ left right => ⟨left.1, right.2⟩) merges low

theorem Low.record (low : Low vmas) (start : vma.start ≤ lowerHalfEnd)
    (stop : vma.stop ≤ lowerHalfEnd) : Low (record vmas vma) := by
  apply Low.merges (mergeNeighborsAround_merges _ _)
  intro other member
  rcases eq_or_mem_of_mem_insertIdx member with rfl | old
  · exact ⟨start, stop⟩
  · exact low other old

theorem Low.append {other : List UserVma} (first : Low vmas) (second : Low other) :
    Low (vmas ++ other) :=
  forall_mem_append.mpr ⟨first, second⟩

theorem Low.cons (start : vma.start ≤ lowerHalfEnd)
    (stop : vma.stop ≤ lowerHalfEnd) (rest : Low vmas) : Low (vma :: vmas) :=
  forall_mem_cons.mpr ⟨⟨start, stop⟩, rest⟩

theorem Low.nil : Low [] :=
  forall_mem_nil _

/-- A piece that is only there under a condition. -/
theorem low_optional {condition : Prop} [Decidable condition]
    (start : condition → vma.start ≤ lowerHalfEnd) (stop : condition → vma.stop ≤ lowerHalfEnd) :
    Low (if condition then [vma] else []) := by
  split
  · rename_i holds
    exact .cons (start holds) (stop holds) .nil
  · exact .nil

theorem low_cutAll {cut : UserVma → List UserVma} (pieces : ∀ vma ∈ vmas, Low (cut vma)) :
    Low (coalesce (vmas.flatMap cut)) := by
  apply Low.merges (coalesce_merges _)
  exact forall_mem_flatMap.mpr pieces

theorem Low.removeRange (low : Low vmas) (start stop : Nat) :
    Low (removeRange vmas start stop) := by
  apply low_cutAll
  intro vma member
  obtain ⟨starts, stops⟩ := low vma member
  unfold remainingPieces
  split
  · exact .cons starts stops .nil
  · have before : start ≤ lowerHalfEnd := by omega
    exact .append (low_optional (fun _ => starts) fun _ => before)
      (low_optional (fun later => (Nat.le_of_lt later).trans stops) fun _ => stops)

theorem Low.updateFlags (low : Low vmas) (start stop : Nat) (flags : MapFlags) :
    Low (updateFlags vmas start stop flags) := by
  apply low_cutAll
  intro vma member
  obtain ⟨starts, stops⟩ := low vma member
  unfold flagPieces
  split
  · exact .cons starts stops .nil
  · have before : start ≤ lowerHalfEnd := by omega
    exact .append (low_optional (fun _ => starts) fun _ => before)
      (.cons (Nat.max_le.mpr ⟨starts, before⟩) ((Nat.min_le_left _ _).trans stops)
        (low_optional (fun later => (Nat.le_of_lt later).trans stops) fun _ => stops))

theorem Low.updateHeapEnd (low : Low vmas) {stop : Nat} (bound : stop ≤ lowerHalfEnd) :
    Low (updateHeapEnd vmas stop) := by
  rcases updateHeapEnd_cases vmas stop with same | ⟨front, vma, back, rfl, -, run, -⟩
  · rw [same]
    exact low
  rw [run]
  simp only [Low, forall_mem_append, forall_mem_cons] at low ⊢
  exact ⟨low.1, ⟨low.2.1.1, bound⟩, low.2.2⟩

/-- A place is taken below the upper bound, whatever the list of areas is. -/
theorem placeBelow_le {gapEnd : Nat} (run : placeBelow lower gapEnd len = some base) :
    base + len ≤ gapEnd := by
  obtain ⟨found, -⟩ := Option.filter_eq_some_iff.mp run
  obtain ⟨candidate, fits, rfl⟩ := Option.map_eq_some_iff.mp found
  unfold checkedSub at fits
  split at fits
  · cases fits
    have rounded : alignDown (gapEnd - len) pageSize ≤ gapEnd - len := Nat.and_le_left
    omega
  · cases fits

theorem gapLoop_le (vmas : List UserVma) (gapEnd : Nat)
    (below : gapEnd ≤ upper) (run : gapLoop lower upper len gapEnd vmas = some base) :
    base + len ≤ upper := by
  induction vmas generalizing gapEnd with
  | nil => exact (placeBelow_le run).trans below
  | cons vma rest ih =>
    unfold gapLoop at run
    split at run
    · exact ih gapEnd below run
    split at run
    · exact (placeBelow_le run).trans below
    split at run
    · rename_i found
      cases run
      exact (placeBelow_le (Option.filter_eq_some_iff.mp found).1).trans below
    · dsimp only at run
      split at run
      · cases run
      · have rounded : alignDown vma.start pageSize ≤ vma.start := Nat.and_le_left
        exact ih _ (by omega) run

theorem findTopDownGap_le (run : findTopDownGap vmas lower upper len = some base) :
    base + alignUp len pageSize ≤ upper := by
  unfold findTopDownGap at run
  dsimp only at run
  split at run
  · cases run
  · exact gapLoop_le _ _ le_rfl run

end Vmas

/-! ## Pages -/

/-- What the calls keep: the areas and the mappings are in the lower half, and the
upper half is the kernel's. -/
structure Confined (kernel : Nat → Nat → Entry) (space : UserAddressSpaceInner) : Prop where
  vmas : Vmas.Low space.vmas
  mappings : ∀ mapping ∈ space.mappings, mapping.virt < lowerHalfEnd
  upper : ∀ level path, inUpperHalf level path → space.table.entry level path = kernel level path
  limit_le : space.brkLimit ≤ lowerHalfEnd
  top_le : space.mmapTop ≤ lowerHalfEnd

/-- The address space without its pages. -/
def areas {A : Type} (state : Space A) : UserAddressSpaceInner :=
  { state.inner with table := ⟨⟨0⟩, fun _ _ => .absent⟩, mappings := [] }

/-- The areas are those of `space`, and the address space is confined if it was to
be. -/
structure Paged {A : Type} (kernel : Nat → Nat → Entry) (low : Prop)
    (space : UserAddressSpaceInner) (state : Space A) : Prop where
  areas : areas state = space
  confined : low → Confined kernel state.inner

section Pages

variable {A α : Type} {kernel : Nat → Nat → Entry} {low : Prop} {space : UserAddressSpaceInner}
  {mapping : UserMapping}

/-- The routine works on pages only. -/
abbrev OnlyPages (A : Type) (kernel : Nat → Nat → Entry) (low : Prop)
    (space : UserAddressSpaceInner) (routine : SpaceM A α) : Prop :=
  routine.Preserves (Paged kernel low space)

theorem paged_of_inner {routine : SpaceM A α} (keeps : routine.Keeps Space.inner) :
    OnlyPages A kernel low space routine := by
  intro state paged outcome after run
  have same := keeps _ state rfl outcome after run
  constructor
  · rw [areas, same]
    exact paged.areas
  · rw [same]
    exact paged.confined

theorem paged_withMapper {call : MapperM A α} (keeps : low → call.Keeps upperHalfOf) :
    OnlyPages A kernel low space (withMapper call) := by
  rintro state ⟨rfl, confined⟩ outcome after run
  unfold withMapper at run
  split at run
  · cases run
  rename_i result mapper called
  cases run
  refine ⟨rfl, fun held => ?_⟩
  have before := confined held
  refine ⟨before.vmas, before.mappings, ?_, before.limit_le, before.top_le⟩
  intro level path upper
  have same := congrFun (congrFun (keeps held _ _ rfl _ _ called) level) path
  simp only [upperHalfOf, PageTable.upperHalf, if_pos upper] at same
  exact same.trans (before.upper level path upper)

/-- A change of the mappings only. -/
theorem paged_setMappings {update : UserAddressSpaceInner → List UserMapping}
    (step : low → ∀ space, Confined kernel space → ∀ mapping ∈ update space,
      mapping.virt < lowerHalfEnd) :
    OnlyPages A kernel low space
      (modifyInner fun space => { space with mappings := update space }) := by
  refine .modify fun state ⟨same, confined⟩ => ⟨same, fun held => ?_⟩
  have before := confined held
  exact ⟨before.vmas, step held _ before, before.upper, before.limit_le, before.top_le⟩

theorem paged_insertMapping (virt : low → mapping.virt < lowerHalfEnd) :
    OnlyPages A kernel low space (modifyInner fun space =>
      { space with mappings := insertMapping space.mappings mapping }) := by
  apply paged_setMappings
  intro held space confined other member
  rcases eq_or_mem_of_mem_insertIdx member with rfl | old
  · exact virt held
  · exact confined.mappings other old

theorem paged_replaceMapping (virt : low → mapping.virt < lowerHalfEnd) (index : Nat)
    (frame : PhysFrame) (flags : MapFlags) :
    OnlyPages A kernel low space (modifyInner fun space =>
      { space with
        mappings := space.mappings.set index
          { mapping with frame := frame, flags := flags, cow := false } }) := by
  apply paged_setMappings
  intro held space confined other member
  rcases mem_or_eq_of_mem_set member with old | rfl
  · exact confined.mappings other old
  · exact virt held

/-- A mapping that is found is where the others are. -/
theorem Paged.virt_lt {state : Space A} (paged : Paged kernel low space state) {index : Nat}
    (found : state.mappings[index]? = some mapping) : low → mapping.virt < lowerHalfEnd :=
  fun held => (paged.confined held).mappings mapping (mem_of_getElem? found)

theorem paged_protectMapping (flags : MapFlags) (index : Nat) :
    OnlyPages A kernel low space (protectMapping flags index) := by
  refine .get fun state paged => ?_
  split
  · exact .stuck
  · rename_i mapping found
    have virt := paged.virt_lt found
    exact .bind (paged_withMapper fun held => keeps_protectFrom (virt held) _ _ _) fun _ =>
      paged_replaceMapping virt _ _ _

variable [FrameAllocator A] {addr : Nat}

theorem paged_map (virt : low → addr < lowerHalfEnd) (frame : PhysFrame) (flags : MapFlags) :
    OnlyPages A kernel low space (withMapper (map addr frame 3 flags)) :=
  paged_withMapper fun held => keeps_map (virt held) _ _ _

theorem paged_releaseFrame (frame : PhysFrame) :
    OnlyPages A kernel low space (releaseFrame frame) :=
  paged_of_inner (.bind (keepsInner_callFrames _).attempt fun _ => .pure _)

variable (virt : low → addr < lowerHalfEnd) (frame : PhysFrame) (flags : MapFlags)
include virt

theorem paged_mapOwnedFrame :
    OnlyPages A kernel low space (mapOwnedFrame addr frame flags) := by
  refine .bind (paged_map virt _ _).attempt fun result => ?_
  cases result with
  | error error => exact .bind (paged_releaseFrame _) fun _ => .throw _
  | ok value => exact paged_insertMapping virt

theorem paged_mapPhysicalPage :
    OnlyPages A kernel low space (mapPhysicalPage addr frame flags) :=
  .bind (paged_map virt _ _) fun _ => paged_insertMapping virt

theorem paged_mapSharedPage :
    OnlyPages A kernel low space (mapSharedPage addr frame flags) :=
  .bind (paged_of_inner (keepsInner_callFrames _)) fun _ =>
    .bind (paged_map virt _ _) fun _ => paged_insertMapping virt

omit virt

theorem paged_dropMapping (virt : low → mapping.virt < lowerHalfEnd) :
    OnlyPages A kernel low space (dropMapping mapping) := by
  unfold dropMapping
  split
  · exact .bind (paged_withMapper fun held => keeps_unmapFrom (virt held) _ _ _) fun _ => .pure _
  · refine .bind (paged_withMapper fun held => keeps_unmapFrom (virt held) _ _ _) fun _ => ?_
    split
    · exact paged_releaseFrame _
    · exact .pure _

theorem paged_unmapPage (addr : Nat) : OnlyPages A kernel low space (unmapPage addr) := by
  refine .get fun state paged => ?_
  split
  · exact .throw _
  split
  · exact .stuck
  · rename_i mapping found
    refine .bind ?_ fun _ => paged_dropMapping (paged.virt_lt found)
    apply paged_setMappings
    intro _ space confined other member
    exact confined.mappings other (mem_of_mem_eraseIdx member)

end Pages

/-! ## Faults -/

section Faults

variable {A : Type} [FrameAllocator A] {kernel : Nat → Nat → Entry} {low : Prop}
  {space : UserAddressSpaceInner} {pageBase pageEnd : Nat}

theorem alignDown_alignDown (address : Nat) :
    alignDown (alignDown address pageSize) pageSize = alignDown address pageSize := by
  rw [alignDown, alignDown, Nat.and_assoc, Nat.and_self]

/-- The page of a mapping that is found is the page that was looked for. -/
theorem low_of_mappingIndex (confined : Confined kernel space)
    {index : Nat} (aligned : alignDown pageBase pageSize = pageBase)
    (found : mappingIndex space.mappings pageBase = some index) : pageBase < lowerHalfEnd := by
  unfold mappingIndex at found
  split at found
  · rename_i run
    obtain ⟨mapping, member, same⟩ := binarySearchByKey_found run
    rw [← aligned, ← same]
    exact confined.mappings mapping (mem_of_getElem? member)
  · cases found

/-- A page is only filled when an area reaches beyond its start. -/
theorem low_of_contributors (confined : Confined kernel space)
    (nonempty : ((Vmas.lazyWindow space.vmas pageBase pageEnd).getD []).filter
      (fun vma => vma.lazy && decide (pageBase < vma.stop)) ≠ []) : pageBase < lowerHalfEnd := by
  obtain ⟨vma, member⟩ := exists_mem_of_ne_nil _ nonempty
  obtain ⟨inWindow, reaches⟩ := mem_filter.mp member
  cases run : Vmas.lazyWindow space.vmas pageBase pageEnd with
  | none =>
    rw [run] at inWindow
    cases inWindow
  | some window =>
    rw [run] at inWindow
    unfold Vmas.lazyWindow at run
    dsimp only at run
    split at run
    · cases run
    cases run
    have bound := (confined.vmas vma (mem_of_mem_drop (mem_of_mem_take inWindow))).2
    have before := (Bool.and_eq_true_iff.mp reaches).2
    exact (of_decide_eq_true before).trans_le bound

theorem paged_mapLazyPageFrom (virt : low → pageBase < lowerHalfEnd) (pageEnd : Nat)
    (contributors : List UserVma) :
    OnlyPages A kernel low space (mapLazyPageFrom pageBase pageEnd contributors) := by
  have fills : ∀ frame, (Exec.forEach (fillLazyPageFromVma (A := A) frame pageBase pageEnd)
      contributors).Keeps Space.inner :=
    fun frame => .forEach fun _ _ => keepsInner_fillLazyPageFromVma _ _ _ _
  refine .bind (paged_of_inner keepsInner_allocateZeroedOwnedFrame) fun frame =>
    .bind (paged_of_inner (fills frame).attempt) fun result => ?_
  cases result with
  | error error => exact .bind (paged_releaseFrame _) fun _ => .throw _
  | ok value => exact paged_mapOwnedFrame virt _ _

theorem paged_mapLazyPage (pageBase : Nat) (write : Bool) :
    OnlyPages A kernel low space (mapLazyPage pageBase write) := by
  unfold mapLazyPage
  split
  · exact .throw _
  refine .get fun state paged => ?_
  split
  · exact .pure _
  rename_i nonempty
  have virt := fun held => low_of_contributors (paged.confined held) nonempty
  split
  · exact .pure _
  · split
    all_goals exact .bind (paged_mapLazyPageFrom virt _ _) fun _ => .pure _

theorem paged_resolveCowFault (aligned : alignDown pageBase pageSize = pageBase) :
    OnlyPages A kernel low space (resolveCowFault pageBase) := by
  refine .get fun state paged => ?_
  split
  · exact .throw _
  rename_i index found
  have virt := fun held => low_of_mappingIndex (paged.confined held) aligned found
  split
  · exact .stuck
  rename_i mapping held
  have replaced := paged.virt_lt held
  refine .get fun state _ => ?_
  dsimp only
  split
  · exact .bind (paged_of_inner (keepsInner_callFrames _)) fun _ =>
      .bind (paged_of_inner (keepsInner_setMemory _ _)) fun _ =>
      .bind (paged_withMapper fun held => keeps_unmapFrom (virt held) _ _ _) fun _ =>
      .bind (paged_map virt _ _) fun _ => paged_replaceMapping replaced _ _ _
  · exact .bind (paged_withMapper fun held => keeps_protectFrom (virt held) _ _ _) fun _ =>
      paged_replaceMapping replaced _ _ _

theorem paged_handlePageFault (address errorCode : Nat) :
    OnlyPages A kernel low space (handlePageFault address errorCode) := by
  refine .get fun state _ => ?_
  split
  · split
    · exact .bind (paged_resolveCowFault (alignDown_alignDown _)) fun _ => .pure _
    · split
      all_goals exact .pure _
  · refine .bind (paged_mapLazyPage _ _) fun mapped => ?_
    split
    all_goals exact .pure _

theorem paged_ensureAccess (address : Nat) (write : Bool) :
    OnlyPages A kernel low space (ensureAccess address write) := by
  refine .get fun state _ => ?_
  split
  · split
    · exact paged_resolveCowFault (alignDown_alignDown _)
    · split
      · exact .throw _
      · exact .pure _
  · refine .bind (paged_mapLazyPage _ _) fun mapped => ?_
    split
    · exact .pure _
    · exact .throw _

theorem paged_accessPage (current remaining : Nat) (write : Bool) :
    OnlyPages A kernel low space (accessPage current remaining write) :=
  .bind (paged_ensureAccess _ _) fun _ => .get fun _ _ => .pure _

theorem paged_readLoop (turns current remaining : Nat) (copied : List Byte) :
    OnlyPages A kernel low space (readLoop turns current remaining copied) := by
  induction turns generalizing current remaining copied with
  | zero => exact .pure _
  | succ turns ih =>
    unfold readLoop
    split
    · exact .pure _
    refine .bind (paged_accessPage _ _ _) fun place => ?_
    split
    · exact .pure _
    · refine .get fun state _ => ?_
      split
      · exact .throw _
      · exact ih _ _ _

theorem paged_writeLoop (turns current : Nat) (bytes : List Byte) (copied : Nat) :
    OnlyPages A kernel low space (writeLoop turns current bytes copied) := by
  induction turns generalizing current bytes copied with
  | zero => exact .pure _
  | succ turns ih =>
    unfold writeLoop
    split
    · exact .pure _
    refine .bind (paged_accessPage _ _ _) fun place => ?_
    split
    · exact .pure _
    · refine .bind (paged_of_inner (keepsInner_writeFrame _ _ _)) fun _ => ?_
      split
      · exact .throw _
      · exact ih _ _ _

end Faults

end AetherKernel.Process
