import AetherKernel.Process.Pages

/-!
# Requests to an address space

Everything that a running program can ask of its address space, as one type, and
what each request does to the list of areas.
-/

namespace AetherKernel.Process

open Lib Mm Exec Word List Vmas Ensures

/-- A call of a public method; the words are arbitrary. -/
inductive Request where
  | mmapAnonymous (addr len flags : BitVec 64) (pageFlags : MapFlags)
  | mmapLazyImage (addr len flags : BitVec 64) (pageFlags : MapFlags)
      (image : ProgramImageSource) (imageOffset imageLen : BitVec 64)
  | mmapPhysical (addr len flags : BitVec 64) (pageFlags : MapFlags)
      (physicalAddress : BitVec 64)
  | mmapSharedPhysical (addr len flags : BitVec 64) (pageFlags : MapFlags)
      (physicalPages : List (BitVec 64))
  | munmap (addr len : BitVec 64)
  | mprotect (addr len : BitVec 64) (flags : MapFlags)
  | brk (newBrk : BitVec 64)
  | pageFault (address errorCode : BitVec 64)
  | read (address : BitVec 64) (len : Nat)
  | write (address : BitVec 64) (bytes : List Byte)

section Perform

variable {A α : Type} [FrameAllocator A]

/-- Drop the value. -/
def discard (call : SpaceM A α) : SpaceM A Unit := do
  let _ ← call
  return

def Request.perform : Request → SpaceM A Unit
  | .mmapAnonymous addr len flags pageFlags =>
    discard (Process.mmapAnonymous addr.toNat len.toNat flags.toNat pageFlags)
  | .mmapLazyImage addr len flags pageFlags image imageOffset imageLen =>
    discard (Process.mmapLazyImage addr.toNat len.toNat flags.toNat pageFlags image
      imageOffset.toNat imageLen.toNat)
  | .mmapPhysical addr len flags pageFlags physicalAddress =>
    discard (Process.mmapPhysical addr.toNat len.toNat flags.toNat pageFlags physicalAddress.toNat)
  | .mmapSharedPhysical addr len flags pageFlags physicalPages =>
    discard (Process.mmapSharedPhysical addr.toNat len.toNat flags.toNat pageFlags
      (physicalPages.map BitVec.toNat))
  | .munmap addr len => Process.munmap addr.toNat len.toNat
  | .mprotect addr len flags => Process.mprotect addr.toNat len.toNat flags
  | .brk newBrk => discard (Process.brk newBrk.toNat)
  | .pageFault address errorCode => discard (handlePageFault address.toNat errorCode.toNat)
  | .read address len => discard (Process.read address.toNat len)
  | .write address bytes => discard (Process.write address.toNat bytes)

end Perform

/-! ## What requests do to the areas -/

/-- The areas after `munmap`. -/
def Vmas.afterMunmap (vmas : List UserVma) (addr len : Nat) : List UserVma :=
  if len = 0 ∨ isAligned addr pageSize = false then vmas
  else removeRange vmas addr (wrappingAdd addr (alignUp len pageSize))

/-- What a request maps: the page-rounded length, and the area to record. -/
structure Placement where
  addr : Nat
  len : Nat
  flags : Nat
  pageFlags : MapFlags
  kind : UserVmaKind
  lazy : Bool

namespace Placement

variable (place : Placement)

/-- The area over the range that starts at `base`. -/
def vma (base : Nat) : UserVma :=
  ⟨base, wrappingAdd base place.len, place.pageFlags, place.kind, place.lazy⟩

/-- The areas once the place has been prepared. -/
def prepared (vmas : List UserVma) : List UserVma :=
  if hasFlag place.flags mapFixedNoreplace then vmas
  else if hasFlag place.flags mapFixed then afterMunmap vmas place.addr place.len
  else vmas

/-- Whether the caller names the address. -/
def isFixed : Bool :=
  hasFlag place.flags mapFixedNoreplace || hasFlag place.flags mapFixed

/-- The base that `prepare_mapping_base` returns. -/
inductive Base (place : Placement) (space : UserAddressSpaceInner) : Nat → Prop
  | noreplace (flag : hasFlag place.flags mapFixedNoreplace = true)
      (aligned : isAligned place.addr pageSize = true)
      (free : isRangeFree space.vmas place.addr place.len = true) :
      Base place space place.addr
  | fixed (other : hasFlag place.flags mapFixedNoreplace = false)
      (flag : hasFlag place.flags mapFixed = true)
      (aligned : isAligned place.addr pageSize = true) : Base place space place.addr
  | gap (base : Nat) (free : place.isFixed = false)
      (found : findTopDownGap space.vmas (alignUp space.brkLimit pageSize)
        (alignDown space.mmapTop pageSize) place.len = some base) :
      Base place space base

/-- The areas after the request: nothing happened, or the place was prepared and
then perhaps used. -/
def Edits (space : UserAddressSpaceInner) (vmas : List UserVma) : Prop :=
  vmas = space.vmas ∨ vmas = place.prepared space.vmas ∨
    ∃ base, place.Base space base ∧ vmas = record (place.prepared space.vmas) (place.vma base)

end Placement

/-- What a request maps, if it does. -/
def Request.placement : Request → Option Placement
  | .mmapAnonymous addr len flags pageFlags =>
    some ⟨addr.toNat, alignUp len.toNat pageSize, flags.toNat, pageFlags, .anonymous, true⟩
  | .mmapLazyImage addr len flags pageFlags image imageOffset imageLen =>
    some ⟨addr.toNat, alignUp len.toNat pageSize, flags.toNat, pageFlags,
      .pagedImage image imageOffset.toNat imageLen.toNat, true⟩
  | .mmapPhysical addr len flags pageFlags physicalAddress =>
    some ⟨addr.toNat, alignUp (saturatingAdd len.toNat
        (physicalAddress.toNat - alignDown physicalAddress.toNat pageSize)) pageSize,
      flags.toNat, pageFlags, .device, false⟩
  | .mmapSharedPhysical addr len flags pageFlags _ =>
    some ⟨addr.toNat, alignUp len.toNat pageSize, flags.toNat, pageFlags, .shared, false⟩
  | _ => none

/-- The areas after a request, whether it fails or not. -/
def Request.Edits (request : Request) (space after : UserAddressSpaceInner) : Prop :=
  match request with
  | .munmap addr len =>
    after = { space with vmas := afterMunmap space.vmas addr.toNat len.toNat }
  | .mprotect addr len flags =>
    after = space ∨ ∃ stop, isAligned addr.toNat pageSize = true ∧
      checkedAdd addr.toNat (alignUp len.toNat pageSize) = some stop ∧
      after = { space with vmas := updateFlags space.vmas addr.toNat stop flags }
  | .brk newBrk =>
    after = space ∨ newBrk.toNat ≤ space.brkLimit ∧ space.brkStart ≤ newBrk.toNat ∧
      after = { space with
        brkCurrent := newBrk.toNat, vmas := updateHeapEnd space.vmas newBrk.toNat }
  | .pageFault _ _ | .read _ _ | .write _ _ => after = space
  | request =>
    ∃ place vmas, request.placement = some place ∧ place.Edits space vmas ∧
      after = { space with vmas := vmas }

/-- A range that the caller names ends in the lower half. -/
def EndsLow (addr len flags : Nat) : Prop :=
  (hasFlag flags mapFixedNoreplace || hasFlag flags mapFixed) = true → addr + len ≤ lowerHalfEnd

/-- The base of a mapping leaves room for it in the lower half. -/
theorem Placement.Base.inside {place : Placement} {space : UserAddressSpaceInner} {base : Nat}
    (isBase : place.Base space base) (ends : EndsLow place.addr place.len place.flags)
    (rounded : alignUp place.len pageSize = place.len)
    (top : space.mmapTop ≤ lowerHalfEnd) : base + place.len ≤ lowerHalfEnd := by
  cases isBase with
  | noreplace flag aligned free => exact ends (by rw [flag, Bool.true_or])
  | fixed other flag aligned => exact ends (by rw [flag, Bool.or_true])
  | gap _ free found =>
    have below : alignDown space.mmapTop pageSize ≤ space.mmapTop := Nat.and_le_left
    have room := findTopDownGap_le found
    rw [rounded] at room
    exact room.trans (below.trans top)

section Effects

variable {A α : Type} {kernel : Nat → Nat → Entry} {low : Prop} {space : UserAddressSpaceInner}
  {state : Space A}

/-- The areas are those after some edit. -/
def Edited (kernel : Nat → Nat → Entry) (low : Prop) (edit : UserAddressSpaceInner → Prop)
    (after : Space A) : Prop :=
  ∃ space, edit space ∧ Paged kernel low space after

variable (paged : Paged kernel low space state) {place : Placement}

include paged

/-- A change of the list of areas only. -/
theorem setVmas_paged {update : List UserVma → List UserVma}
    (step : low → Vmas.Low space.vmas → Vmas.Low (update space.vmas)) :
    (setVmas update).Ensures state fun outcome after => outcome = .ok () ∧
      Paged kernel low { space with vmas := update space.vmas } after := by
  obtain ⟨rfl, confined⟩ := paged
  refine modify ⟨rfl, rfl, fun held => ?_⟩
  have before := confined held
  exact ⟨step held before.vmas, before.mappings, before.upper, before.limit_le, before.top_le⟩

theorem setBrk_paged {newBrk : Nat} (below : newBrk ≤ space.brkLimit) :
    (modifyInner (A := A) fun space =>
      { space with brkCurrent := newBrk, vmas := updateHeapEnd space.vmas newBrk }).Ensures
        state fun outcome after => outcome = .ok () ∧
      Paged kernel low { space with
        brkCurrent := newBrk, vmas := updateHeapEnd space.vmas newBrk } after := by
  obtain ⟨rfl, confined⟩ := paged
  refine modify ⟨rfl, rfl, fun held => ?_⟩
  have before := confined held
  exact ⟨before.vmas.updateHeapEnd (below.trans before.limit_le), before.mappings, before.upper,
    before.limit_le, before.top_le⟩

/-- The areas after a request that maps. -/
def Placement.Edit (place : Placement) (space after : UserAddressSpaceInner) : Prop :=
  ∃ vmas, place.Edits space vmas ∧ after = { space with vmas := vmas }

theorem Placement.edited_of_same : Edited kernel low (place.Edit space) state :=
  ⟨space, ⟨_, .inl rfl, rfl⟩, paged⟩

/-- What is left once a place is asked for. -/
def Placement.Ready (place : Placement) (kernel : Nat → Nat → Entry) (low : Prop)
    (space : UserAddressSpaceInner) (after : Space A) : Except BuildError Nat → Prop
  | .ok base => place.Base space base ∧
      Paged kernel low { space with vmas := place.prepared space.vmas } after
  | .error _ => Paged kernel low space after

omit paged

theorem allocateMmapBase_paged (free : place.isFixed = false)
    (paged : Paged kernel low space state) :
    (allocateMmapBase (A := A) place.len).Ensures state
      fun outcome after => place.Ready kernel low space after outcome := by
  have flags := Bool.or_eq_false_iff.mp free
  have same : place.prepared space.vmas = space.vmas := by
    rw [Placement.prepared, flags.1, flags.2]
    rfl
  refine get ?_
  split
  · rename_i base found
    rw [← paged.areas] at same ⊢
    refine pure ⟨.gap base free found, ?_⟩
    rw [same]
    exact ⟨rfl, paged.confined⟩
  · exact throw paged

include paged

theorem mprotect_paged (addr len : Nat) (flags : MapFlags) :
    (mprotect (A := A) addr len flags).Ensures state fun _ => Edited kernel low fun after =>
      after = space ∨ ∃ stop, isAligned addr pageSize = true ∧
        checkedAdd addr (alignUp len pageSize) = some stop ∧
        after = { space with vmas := updateFlags space.vmas addr stop flags } := by
  unfold mprotect
  split
  · exact throw ⟨_, .inl rfl, paged⟩
  rename_i accepted
  split
  · exact throw ⟨_, .inl rfl, paged⟩
  rename_i stop sum
  refine get ?_
  split
  · exact stuck
  have protects : ∀ indices, OnlyPages A kernel low space (forEach (protectMapping flags)
      indices) :=
    fun indices => .forEach fun _ _ => paged_protectMapping _ _
  refine (protects _ state paged).bind (fun _ _ kept => ⟨_, .inl rfl, kept⟩) ?_
  intro _ middle kept
  split
  · refine (setVmas_paged kept fun _ areas => areas.updateFlags _ _ _).mono ?_
    intro _ _ updated
    exact ⟨_, .inr ⟨stop, by simpa using (not_or.mp accepted).2, sum, rfl⟩, updated.2⟩
  · exact throw ⟨_, .inl rfl, kept⟩

variable [FrameAllocator A]

theorem unmapPages_paged (pages : List Nat) :
    (unmapPages (A := A) pages).Ensures state fun outcome after =>
      outcome = .ok () ∧ Paged kernel low space after := by
  refine forEach ⟨rfl, paged⟩ fun page _ before holds => ?_
  refine (paged_unmapPage page before holds.2).attempt fun outcome after kept => ?_
  exact pure ⟨rfl, kept⟩

theorem munmap_paged (addr len : Nat) : (munmap (A := A) addr len).Ensures state fun _ after =>
      Paged kernel low { space with vmas := afterMunmap space.vmas addr len } after := by
  unfold munmap afterMunmap
  split
  · exact throw paged
  · refine (unmapPages_paged paged _).bind (fun _ _ holds => nomatch holds.1) ?_
    intro _ middle holds
    exact (setVmas_paged holds.2 fun _ areas => areas.removeRange _ _).mono
      fun _ _ removed => removed.2

omit paged

theorem prepareMappingBase_paged (place : Placement) (paged : Paged kernel low space state) :
    (prepareMappingBase (A := A) place.addr place.len place.flags).Ensures state
      fun outcome after => place.Ready kernel low space after outcome := by
  unfold prepareMappingBase
  split
  · rename_i noreplace
    have same : place.prepared space.vmas = space.vmas := if_pos noreplace
    split
    · exact throw paged
    rename_i aligned
    refine get ?_
    split
    · rename_i free
      rw [← paged.areas] at same ⊢
      refine pure ⟨.noreplace noreplace (by simpa using aligned) free, ?_⟩
      rw [same]
      exact ⟨rfl, paged.confined⟩
    · exact throw paged
  · rename_i replace
    split
    · rename_i fixed
      have same : place.prepared space.vmas =
          afterMunmap space.vmas place.addr place.len := by
        rw [Placement.prepared, if_neg replace, if_pos fixed]
      split
      · exact throw paged
      rename_i aligned
      refine (munmap_paged paged _ _).attempt fun outcome after removed => ?_
      refine pure ⟨.fixed (by simpa using replace) fixed (by simpa using aligned), ?_⟩
      rw [same]
      exact removed
    · rename_i notFixed
      refine allocateMmapBase_paged ?_ paged
      rw [Bool.not_eq_true] at replace notFixed
      rw [Placement.isFixed, replace, notFixed]
      rfl

/-- Every request that maps prepares its place, maps pages and records the area. -/
theorem mapAt_paged (place : Placement) {body : Nat → SpaceM A Unit} (result : Nat → Nat)
    (paged : Paged kernel low space state) (ends : low → EndsLow place.addr place.len place.flags)
    (rounded : alignUp place.len pageSize = place.len)
    (maps : ∀ base space, (low → base + place.len ≤ lowerHalfEnd) →
      OnlyPages A kernel low space (body base)) :
    Ensures (do
      let base ← prepareMappingBase place.addr place.len place.flags
      body base
      recordVma base (wrappingAdd base place.len) place.pageFlags place.kind place.lazy
      return result base) state fun _ => Edited kernel low (place.Edit space) := by
  refine (prepareMappingBase_paged place paged).bind
    (fun _ _ same => Placement.edited_of_same same) ?_
  rintro base prepared ⟨isBase, ready⟩
  have inside : low → base + place.len ≤ lowerHalfEnd := by
    intro held
    have top := (paged.confined held).top_le
    rw [← paged.areas] at isBase
    exact isBase.inside (ends held) rounded top
  refine (maps base _ inside prepared ready).bind
    (fun _ _ kept => ⟨_, ⟨_, .inr (.inl rfl), rfl⟩, kept⟩) ?_
  intro _ mapped kept
  have records : low → ∀ vmas, Vmas.Low vmas → Vmas.Low (record vmas (place.vma base)) :=
    fun held _ areas => areas.record ((Nat.le_add_right _ _).trans (inside held))
      ((Nat.mod_le _ _).trans (inside held))
  refine (setVmas_paged kept fun held => records held _).bind (fun _ _ holds => nomatch holds.1) ?_
  intro _ after recorded
  exact pure ⟨_, ⟨_, .inr (.inr ⟨base, isBase, rfl⟩), rfl⟩, recorded.2⟩

theorem alignUp_alignUp (len : Nat) :
    alignUp (alignUp len pageSize) pageSize = alignUp len pageSize :=
  alignUp_of_dvd (alignUp_lt _) (pageSize_dvd_alignUp _)

variable {addr len flags : Nat} (ends : low → EndsLow addr (alignUp len pageSize) flags)
include paged ends

theorem mmapLazy_paged (pageFlags : MapFlags) (kind : UserVmaKind) :
    (mmapLazy (A := A) addr len flags pageFlags kind).Ensures state fun _ =>
      Edited kernel low
        (Placement.Edit ⟨addr, alignUp len pageSize, flags, pageFlags, kind, true⟩ space) :=
  mapAt_paged ⟨addr, alignUp len pageSize, flags, pageFlags, kind, true⟩ id paged ends
    (alignUp_alignUp _) fun _ _ _ => .pure ()

theorem mmapAnonymous_paged (pageFlags : MapFlags) :
    (mmapAnonymous (A := A) addr len flags pageFlags).Ensures state fun _ =>
      Edited kernel low (Placement.Edit
        ⟨addr, alignUp len pageSize, flags, pageFlags, .anonymous, true⟩ space) := by
  unfold mmapAnonymous
  split
  · exact throw (Placement.edited_of_same paged)
  · exact mmapLazy_paged paged ends pageFlags _

theorem mmapLazyImage_paged (pageFlags : MapFlags) (image : ProgramImageSource)
    (imageOffset imageLen : Nat) :
    (mmapLazyImage (A := A) addr len flags pageFlags image imageOffset imageLen).Ensures state
      fun _ => Edited kernel low (Placement.Edit ⟨addr, alignUp len pageSize, flags, pageFlags,
        .pagedImage image imageOffset imageLen, true⟩ space) := by
  unfold mmapLazyImage
  split
  · exact throw (Placement.edited_of_same paged)
  · exact mmapLazy_paged paged ends pageFlags _

omit paged ends

/-- An offset in a range that ends in the lower half. -/
theorem wrappingAdd_lt_of_le {base offset : Nat} (inside : base + len ≤ lowerHalfEnd)
    (within : offset < len) : wrappingAdd base offset < lowerHalfEnd :=
  (Nat.mod_le _ _).trans_lt (by omega)

theorem lt_of_mem_pageOffsets {page : Nat} (member : page ∈ pageOffsets len) : page < len := by
  obtain ⟨index, small, rfl⟩ := mem_map.mp member
  have inside : (index + 1) * pageSize ≤ len / pageSize * pageSize :=
    Nat.mul_le_mul_right _ (mem_range.mp small)
  have exact_ : len / pageSize * pageSize ≤ len := Nat.div_mul_le_self _ _
  have positive : 0 < pageSize := by decide
  rw [Nat.succ_mul] at inside
  omega

include paged

theorem mmapPhysical_paged {physicalAddress : Nat}
    (ends : low → EndsLow addr (alignUp
      (saturatingAdd len (physicalAddress - alignDown physicalAddress pageSize)) pageSize) flags)
    (pageFlags : MapFlags) :
    (mmapPhysical (A := A) addr len flags pageFlags physicalAddress).Ensures state fun _ =>
      Edited kernel low (Placement.Edit ⟨addr, alignUp (saturatingAdd len
        (physicalAddress - alignDown physicalAddress pageSize)) pageSize, flags, pageFlags,
        .device, false⟩ space) := by
  unfold mmapPhysical
  split
  · exact throw (Placement.edited_of_same paged)
  · exact mapAt_paged ⟨addr, _, flags, pageFlags, .device, false⟩ _ paged ends
      (alignUp_alignUp _) fun base _ inside => .forEach fun page member =>
        paged_mapPhysicalPage (fun held =>
          wrappingAdd_lt_of_le (inside held) (lt_of_mem_pageOffsets member)) _ _

theorem mmapSharedPhysical_paged (ends : low → EndsLow addr (alignUp len pageSize) flags)
    (pageFlags : MapFlags) (physicalPages : List Nat) :
    (mmapSharedPhysical (A := A) addr len flags pageFlags physicalPages).Ensures state
      fun _ => Edited kernel low (Placement.Edit
        ⟨addr, alignUp len pageSize, flags, pageFlags, .shared, false⟩ space) := by
  unfold mmapSharedPhysical
  split
  · exact throw (Placement.edited_of_same paged)
  dsimp only
  split
  · exact throw (Placement.edited_of_same paged)
  refine mapAt_paged ⟨addr, _, flags, pageFlags, .shared, false⟩ id paged ends
    (alignUp_alignUp _) fun base _ inside => .forEach fun page member =>
      paged_mapSharedPage (fun held => ?_) _ _
  refine wrappingAdd_lt_of_le (inside held) (lt_of_mem_pageOffsets ?_)
  have index := snd_lt_of_mem_zipIdx member
  rw [length_take] at index
  exact mem_map.mpr ⟨page.2, mem_range.mpr (index.trans_le (Nat.min_le_left _ _)), rfl⟩

theorem brk_paged (newBrk : Nat) :
    (brk (A := A) newBrk).Ensures state fun _ => Edited kernel low fun after =>
      after = space ∨ newBrk ≤ space.brkLimit ∧ space.brkStart ≤ newBrk ∧ after = { space with
          brkCurrent := newBrk, vmas := updateHeapEnd space.vmas newBrk } := by
  obtain ⟨rfl, confined⟩ := paged
  refine get ?_
  split
  · exact pure ⟨_, .inl rfl, rfl, confined⟩
  rename_i accepted
  obtain ⟨-, above, below⟩ : _ ∧ _ ∧ _ := by simpa only [not_or, Nat.not_lt] using accepted
  refine (unmapPages_paged ⟨rfl, confined⟩ _).bind (fun _ _ holds => nomatch holds.1) ?_
  intro _ middle holds
  refine (setBrk_paged holds.2 below).bind (fun _ _ updated => nomatch updated.1) ?_
  intro _ after updated
  exact pure ⟨_, .inr ⟨below, above, rfl⟩, updated.2⟩

omit paged

theorem Request.perform_edits (request : Request) :
    (request.perform (A := A)).Ensures state fun _ after =>
      request.Edits (areas state) (areas after) := by
  have paged : Paged (fun _ _ => .absent) False (areas state) state := ⟨rfl, False.elim⟩
  have faults : ∀ {α : Type} {call : SpaceM A α},
      call.Preserves (Paged (fun _ _ => .absent) False (areas state)) →
      (discard call).Ensures state fun _ after => areas after = areas state :=
    fun kept => ((kept state paged).mono fun _ _ same => same.areas).discard
  -- A request that maps edits the areas at its place.
  have maps : ∀ {call : SpaceM A Nat} {place : Placement}, request.placement = some place →
      (call.Ensures state fun _ => Edited (fun _ _ => .absent) False (place.Edit (areas state))) →
      (discard call).Ensures state fun _ after => ∃ place vmas,
        request.placement = some place ∧ place.Edits (areas state) vmas ∧
        areas after = { areas state with vmas := vmas } := by
    intro call place isPlace runs
    refine (runs.mono ?_).discard
    rintro _ after ⟨_, ⟨vmas, edits, rfl⟩, same⟩
    exact ⟨place, vmas, isPlace, edits, same.areas⟩
  cases request with
  | mmapAnonymous addr len flags pageFlags =>
    exact maps rfl (mmapAnonymous_paged paged False.elim _)
  | mmapLazyImage addr len flags pageFlags image imageOffset imageLen =>
    exact maps rfl (mmapLazyImage_paged paged False.elim _ _ _ _)
  | mmapPhysical addr len flags pageFlags physicalAddress =>
    exact maps rfl (mmapPhysical_paged paged False.elim _)
  | mmapSharedPhysical addr len flags pageFlags physicalPages =>
    exact maps rfl (mmapSharedPhysical_paged paged False.elim _ _)
  | munmap addr len => exact (munmap_paged paged _ _).mono fun _ _ same => same.areas
  | mprotect addr len flags =>
    refine (mprotect_paged paged _ _ _).mono ?_
    rintro _ after ⟨_, edits, rfl, -⟩
    exact edits
  | brk newBrk =>
    refine ((brk_paged paged _).mono ?_).discard
    rintro _ after ⟨_, edits, rfl, -⟩
    exact edits
  | pageFault address errorCode => exact faults (paged_handlePageFault _ _)
  | read address len => exact faults (paged_readLoop _ _ _ _)
  | write address bytes => exact faults (paged_writeLoop _ _ _ _)

end Effects

end AetherKernel.Process
