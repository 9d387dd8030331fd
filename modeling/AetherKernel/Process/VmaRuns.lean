import AetherKernel.Lib.Transition
import AetherKernel.Process.Build

/-!
# Runs of requests keep the areas apart

No request checks that the area it records or resizes stays clear of the others.
As long as every request does, and the program is built from areas that are apart,
the list of areas stays in order.
-/

namespace AetherKernel.Process

open Lib Mm Word Option Vmas List Nat

namespace Vmas

/-- The areas are sorted by their starts, none ends before it starts, and no
address is in two of them. -/
structure Separate (vmas : List UserVma) : Prop where
  sorted : vmas.Pairwise fun a b => a.start ≤ b.start
  valid : ∀ vma ∈ vmas, vma.start ≤ vma.stop
  disjoint : vmas.Pairwise Span.Disjoint

variable {limit : Nat} {vmas : List UserVma}

theorem Arranged.separate (arranged : Arranged limit vmas) : Separate vmas :=
  ⟨arranged.ordered.sorted, arranged.ordered.valid, arranged.ordered.disjoint⟩

/-! ## Recording many areas -/

/-- A merge keeps areas apart from one that is not in the list. -/
theorem apart_merged {lhs rhs vma : UserVma} (fits : lhs.mergeable rhs)
    (left : Span.Apart lhs vma) (right : Span.Apart rhs vma) : Span.Apart (lhs.merged rhs) vma := by
  have touch := (mergeable_iff.mp fits).1
  rcases left with first | first
  · rcases right with second | second
    · exact .inl ⟨first.1, second.2⟩
    · -- The area would start where the two touch, and after that.
      have starts : lhs.stop ≤ vma.start := first.2
      have behind : vma.start < rhs.start := second.1
      omega
  · exact .inr first

theorem apart_record {new vma : UserVma}
    (apart : ∀ other ∈ vmas, Span.Apart other vma) (newApart : Span.Apart new vma) :
    ∀ other ∈ record vmas new, Span.Apart other vma := by
  refine forall_mem_of_merges (fun _ _ => apart_merged) (mergeNeighborsAround_merges _ _) ?_
  intro other member
  rcases eq_or_mem_of_mem_insertIdx member with rfl | old
  · exact newApart
  · exact apart other old

/-- Areas that are apart from each other can be recorded one after the other. -/
theorem Arranged.recordAll (arranged : Arranged limit vmas)
    (added : List UserVma) (valid : ∀ vma ∈ added, vma.start ≤ vma.stop)
    (placed : ∀ vma ∈ added, WellPlaced limit vma) (apart : added.Pairwise Span.Apart)
    (clear : ∀ vma ∈ added, ∀ other ∈ vmas, Span.Apart other vma) :
    Arranged limit (added.foldl Vmas.record vmas) := by
  induction added generalizing vmas with
  | nil => exact arranged
  | cons vma rest ih =>
    obtain ⟨first, others⟩ := pairwise_cons.mp apart
    have here := mem_cons_self (a := vma) (l := rest)
    apply ih (arranged.record (valid vma here) (placed vma here) (clear vma here))
    · exact fun other member => valid other (mem_cons_of_mem _ member)
    · exact fun other member => placed other (mem_cons_of_mem _ member)
    · exact others
    · intro other member
      exact apart_record (clear other (mem_cons_of_mem _ member)) (first other member)

end Vmas

/-! ## Requests that fit -/

/-- The range is not empty; one that the caller names does not wrap, and no empty
area starts with it. -/
def Placement.Fits (place : Placement) (vmas : List UserVma) : Prop :=
  place.len ≠ 0 ∧ (place.isFixed = true →
    place.addr + place.len < Word.size ∧ NoneEmptyAt vmas place.addr)

/-- The request leaves room between the areas.  A range must not wrap or round to
nothing, and the heap must not grow into the next area. -/
def Request.Fits (request : Request) (space : UserAddressSpaceInner) : Prop :=
  match request with
  | .munmap addr len => addr.toNat + alignUp len.toNat pageSize < Word.size
  | .mprotect _ len _ => alignUp len.toNat pageSize ≠ 0
  | .brk newBrk => space.brkStart ≤ newBrk.toNat → newBrk.toNat ≤ space.brkLimit →
      HeapFits space.vmas newBrk.toNat
  | .pageFault _ _ | .read _ _ | .write _ _ => True
  | request => ∀ place ∈ request.placement, place.Fits space.vmas

instance (place : Placement) (vmas : List UserVma) : Decidable (place.Fits vmas) :=
  inferInstanceAs (Decidable (_ ≠ _ ∧ (_ → _ < _ ∧ NoneEmptyAt _ _)))

instance decidablePlaced (request : Request) (vmas : List UserVma) :
    Decidable (∀ place ∈ request.placement, place.Fits vmas) :=
  inferInstance

instance : ∀ (request : Request) (space : UserAddressSpaceInner), Decidable (request.Fits space)
  | .munmap _ _, _ => inferInstanceAs (Decidable (_ < _))
  | .mprotect _ _ _, _ => inferInstanceAs (Decidable (_ ≠ _))
  | .brk _, _ => inferInstanceAs (Decidable (_ → _ → HeapFits _ _))
  | .pageFault _ _, _ | .read _ _, _ | .write _ _, _ => isTrue trivial
  | .mmapAnonymous .., space | .mmapLazyImage .., space
  | .mmapPhysical .., space | .mmapSharedPhysical .., space => decidablePlaced _ space.vmas

/-- What all requests that fit keep. -/
structure Sound (space : UserAddressSpaceInner) : Prop where
  arranged : Arranged space.brkLimit space.vmas
  limit_aligned : pageSize ∣ space.brkLimit
  limit_lt : space.brkLimit < Word.size
  top_lt : space.mmapTop < Word.size

variable {space : UserAddressSpaceInner} {vmas : List UserVma} {request : Request}

theorem Sound.replace (sound : Sound space) (arranged : Arranged space.brkLimit vmas)
    (brkCurrent : Nat) : Sound { space with brkCurrent := brkCurrent, vmas := vmas } :=
  ⟨arranged, sound.limit_aligned, sound.limit_lt, sound.top_lt⟩

/-- The search goes from the top of the mapping area to the limit of the heap. -/
theorem Sound.gap (sound : Sound space) {len base : Nat}
    (found : findTopDownGap space.vmas (alignUp space.brkLimit pageSize)
      (alignDown space.mmapTop pageSize) len = some base) :
    space.brkLimit ≤ base ∧ base + alignUp len pageSize ≤ space.mmapTop ∧
      pageSize ∣ base ∧ Clear space.vmas base (base + alignUp len pageSize) := by
  have upper := alignDown_pageSize sound.top_lt
  have below : alignDown space.mmapTop pageSize ≤ space.mmapTop := by
    rw [upper]
    exact div_mul_le_self _ _
  obtain ⟨bound, room, aligned, clear⟩ := findTopDownGap_clear sound.arranged
    (below.trans_lt sound.top_lt) (upper ▸ dvd_mul_left _ _) found
  rw [alignUp_of_dvd sound.limit_lt sound.limit_aligned] at bound
  exact ⟨bound, room.trans below, aligned, clear⟩

theorem arranged_afterMunmap {limit : Nat} (arranged : Arranged limit vmas) {addr len : Nat}
    (inside : addr + alignUp len pageSize < Word.size) :
    Arranged limit (afterMunmap vmas addr len) := by
  unfold afterMunmap
  split
  · exact arranged
  rename_i accepted
  have aligned : pageSize ∣ addr :=
    isAligned_pageSize_iff.mp (by simpa using (not_or.mp accepted).2)
  rw [wrappingAdd, mod_eq_of_lt inside]
  exact arranged.removeRange (Nat.dvd_add aligned (pageSize_dvd_alignUp _)) (le_add_right _ _)

namespace Placement

variable {place : Placement} {base : Nat}

/-- What is known of a place once it has been prepared. -/
structure Open (place : Placement) (vmas : List UserVma) (base : Nat) : Prop where
  aligned : pageSize ∣ base
  inside : base + place.len < Word.size
  clear : Clear vmas base (base + place.len)
  none : NoneEmptyAt vmas base

theorem Open.record {limit : Nat} (opened : place.Open vmas base)
    (arranged : Arranged limit vmas) (nonempty : place.len ≠ 0)
    (notHeap : place.kind.isHeap = false) : Arranged limit (Vmas.record vmas (place.vma base)) := by
  have stop : (place.vma base).stop = base + place.len := mod_eq_of_lt opened.inside
  have range : (place.vma base).start < (place.vma base).stop := by
    rw [stop]
    exact Nat.lt_add_of_pos_right (pos_of_ne_zero nonempty)
  have clear : Clear vmas (place.vma base).start (place.vma base).stop := by
    rw [stop]
    exact opened.clear
  have other : ∀ {P : Prop}, (place.vma base).kind.isHeap = true → P :=
    fun heap => absurd heap (by simpa [vma] using notHeap)
  apply arranged.record range.le
  · exact ⟨opened.aligned, stop ▸ opened.inside, fun empty => absurd empty range.ne, other, other⟩
  · exact apart_of_clear arranged range clear opened.none

variable (rounded : alignUp place.len pageSize = place.len) (sound : Sound space)
  (fits : place.Fits space.vmas)
include rounded sound fits

theorem prepared_arranged : Arranged space.brkLimit (place.prepared space.vmas) := by
  unfold prepared
  split
  · exact sound.arranged
  split
  · rename_i flag
    apply arranged_afterMunmap sound.arranged
    rw [rounded]
    exact (fits.2 (by rw [isFixed, flag, Bool.or_true])).1
  · exact sound.arranged

/-- Nothing is where a mapping goes: a fixed place has been cleared, and the search
starts at the limit of the heap, where no area is empty. -/
theorem open_of_base (isBase : place.Base space base) :
    place.Open (place.prepared space.vmas) base := by
  cases isBase with
  | noreplace flag aligned free =>
    obtain ⟨inside, none⟩ := fits.2 (by rw [isFixed, flag, Bool.true_or])
    rw [prepared, if_pos flag]
    refine ⟨isAligned_pageSize_iff.mp aligned, inside, ?_, none⟩
    unfold isRangeFree at free
    split at free
    · cases free
    rw [rounded] at free
    split at free
    · cases free
    rename_i stop sum
    obtain ⟨-, rfl⟩ := checkedAdd_eq_some_iff.mp sum
    intro vma member
    rw [Bool.not_eq_true', rangeOverlaps, List.any_eq_false] at free
    have apart := free vma member
    rw [Bool.and_eq_true, decide_eq_true_iff, decide_eq_true_iff] at apart
    omega
  | fixed other flag aligned =>
    obtain ⟨inside, none⟩ := fits.2 (by rw [isFixed, flag, Bool.or_true])
    have start := isAligned_pageSize_iff.mp aligned
    have stop : pageSize ∣ place.addr + place.len :=
      Nat.dvd_add start (rounded ▸ pageSize_dvd_alignUp _)
    have removed : place.prepared space.vmas =
        removeRange space.vmas place.addr (place.addr + place.len) := by
      rw [prepared, if_neg (by simp [other]), if_pos flag, afterMunmap,
        if_neg (by simp [fits.1, aligned]), rounded, wrappingAdd, mod_eq_of_lt inside]
    rw [removed]
    exact ⟨start, inside,
      clear_removeRange sound.arranged stop (Nat.lt_add_of_pos_right (pos_of_ne_zero fits.1)),
      noneEmptyAt_removeRange sound.arranged stop (le_add_right _ _) none⟩
  | gap _ free found =>
    obtain ⟨other, notFixed⟩ := Bool.or_eq_false_iff.mp free
    have same : place.prepared space.vmas = space.vmas := by
      rw [prepared, other, notFixed]
      rfl
    obtain ⟨bound, room, aligned, clear⟩ := sound.gap found
    rw [rounded] at room clear
    rw [same]
    refine ⟨aligned, room.trans_lt sound.top_lt, clear, ?_⟩
    intro vma member starts empty
    have placed := sound.arranged.placed vma member
    have below := placed.heap_lt (placed.heap_of_empty empty)
    omega

theorem edits_arranged (notHeap : place.kind.isHeap = false) (edits : place.Edits space vmas) :
    Arranged space.brkLimit vmas := by
  have prepared := prepared_arranged rounded sound fits
  rcases edits with rfl | rfl | ⟨base, isBase, rfl⟩
  · exact sound.arranged
  · exact prepared
  · exact (open_of_base rounded sound fits isBase).record prepared fits.1 notHeap

end Placement

/-- Every request maps a page-rounded length, and none maps heap. -/
theorem Request.placement_spec {place : Placement} (maps : request.placement = some place) :
    alignUp place.len pageSize = place.len ∧ place.kind.isHeap = false := by
  cases request <;> cases maps <;>
    exact ⟨alignUp_of_dvd (alignUp_lt _) (pageSize_dvd_alignUp _), rfl⟩

theorem Sound.edits {after : UserAddressSpaceInner}
    (sound : Sound space) (fits : request.Fits space) (edits : request.Edits space after) :
    Sound after := by
  have mapped : ∀ {vmas : List UserVma} {place : Placement}, request.placement = some place →
      place.Fits space.vmas → place.Edits space vmas → Sound { space with vmas := vmas } := by
    intro vmas place maps fits edits
    obtain ⟨rounded, notHeap⟩ := Request.placement_spec maps
    exact sound.replace (place.edits_arranged rounded sound fits notHeap edits) _
  cases request with
  | munmap addr len =>
    obtain rfl := edits
    exact sound.replace (arranged_afterMunmap sound.arranged fits) _
  | mprotect addr len flags =>
    rcases edits with rfl | ⟨stop, aligned, sum, rfl⟩
    · exact sound
    obtain ⟨-, rfl⟩ := checkedAdd_eq_some_iff.mp sum
    have start := isAligned_pageSize_iff.mp aligned
    apply sound.replace
    exact sound.arranged.updateFlags flags start (Nat.dvd_add start (pageSize_dvd_alignUp _))
      (Nat.lt_add_of_pos_right (pos_of_ne_zero fits))
  | brk newBrk =>
    rcases edits with rfl | ⟨below, above, rfl⟩
    · exact sound
    · apply sound.replace
      exact sound.arranged.updateHeapEnd (fits above below) below newBrk.isLt
  | pageFault | read | write =>
    obtain rfl := edits
    exact sound
  | mmapAnonymous | mmapLazyImage | mmapPhysical | mmapSharedPhysical =>
    obtain ⟨place, vmas, maps, edits, rfl⟩ := edits
    exact mapped maps (fits place maps) edits

/-! ## Programs that are built from separate areas -/

/-- The areas are apart, and only the heap may be empty. -/
structure Vmas.Spread (vmas : List UserVma) : Prop where
  apart : vmas.Pairwise Span.Apart
  nonempty : ∀ vma ∈ vmas, vma.kind.isHeap = false → vma.start < vma.stop

instance (a b : UserVma) : Decidable (Span.Apart a b) :=
  inferInstanceAs (Decidable ((a.start < _ ∧ a.stop ≤ _) ∨ b.start < _ ∧ b.stop ≤ _))

instance (vmas : List UserVma) : Decidable (Vmas.Spread vmas) :=
  decidable_of_iff (vmas.Pairwise Span.Apart ∧
    ∀ vma ∈ vmas, vma.kind.isHeap = false → vma.start < vma.stop)
    ⟨fun ⟨apart, nonempty⟩ => ⟨apart, nonempty⟩, fun ⟨apart, nonempty⟩ => ⟨apart, nonempty⟩⟩

namespace ElfProgramBuilder

/-- The segments of the program, the stack and the start of the heap are apart. -/
def Spread (builder : ElfProgramBuilder) : Prop :=
  ∀ images ∈ builder.images.toOption, Vmas.Spread (builder.recorded images)

instance (builder : ElfProgramBuilder) : Decidable builder.Spread :=
  inferInstanceAs (Decidable (∀ images ∈ builder.images.toOption, _))

variable {builder : ElfProgramBuilder} {images : List (ProgramImageSource × ElfImage × Nat)}

/-- What holds of the areas that are recorded, whatever the headers say. -/
structure Rounded (limit : Nat) (vma : UserVma) : Prop where
  aligned : pageSize ∣ vma.start
  stop_lt : vma.stop < Word.size
  heap : vma.kind.isHeap = true → vma.start < limit ∧ vma.stop = vma.start

theorem recorded_rounded {vma : UserVma} (member : vma ∈ builder.recorded images) :
    Rounded (UserAddressSpaceLayout.current.regionBase +
      UserAddressSpaceLayout.current.brkReserve) vma := by
  rcases mem_append.mp member with segment | other
  · obtain ⟨image, -, inImage⟩ := mem_flatMap.mp segment
    obtain ⟨entry, -, found⟩ := mem_filterMap.mp inImage
    split at found
    · cases found
      refine ⟨?_, alignUp_lt _, nofun⟩
      change pageSize ∣ alignDown _ pageSize
      rw [alignDown_pageSize (wrappingAdd_lt _ _)]
      exact dvd_mul_left _ _
    · cases found
  · rcases mem_cons.mp other with rfl | heap
    · have stack : pageSize ∣ builder.stackLen :=
        (dvd_mod_iff (by decide)).mpr (dvd_mul_left _ _)
      exact ⟨dvd_sub (by decide) stack, wrappingAdd_lt _ _, nofun⟩
    · rw [mem_singleton.mp heap]
      exact ⟨by decide, by decide, fun _ => ⟨by decide, rfl⟩⟩

theorem LaidOut.sound (laidOut : builder.LaidOut images space)
    (spread : Vmas.Spread (builder.recorded images)) : Sound space := by
  have valid : ∀ vma ∈ builder.recorded images, vma.start ≤ vma.stop := by
    intro vma member
    cases kind : vma.kind.isHeap with
    | true => exact ((recorded_rounded member).heap kind).2.ge
    | false => exact (spread.nonempty vma member kind).le
  have placed : ∀ vma ∈ builder.recorded images, WellPlaced space.brkLimit vma := by
    intro vma member
    have rounded := recorded_rounded member
    rw [laidOut.brkLimit]
    refine ⟨rounded.aligned, rounded.stop_lt, ?_, fun heap => (rounded.heap heap).1, ?_⟩
    · intro empty
      cases kind : vma.kind.isHeap with
      | true => rfl
      | false => exact absurd empty (spread.nonempty vma member kind).ne
    · intro heap
      obtain ⟨below, ends⟩ := rounded.heap heap
      exact ends ▸ below.le
  constructor
  · rw [laidOut.vmas]
    exact Arranged.recordAll ⟨.nil, forall_mem_nil _⟩ _ valid placed spread.apart
      fun _ _ _ other => nomatch other
  · rw [laidOut.brkLimit]
    decide
  · rw [laidOut.brkLimit]
    decide
  · rw [laidOut.mmapTop]
    decide

end ElfProgramBuilder

/-! ## Runs -/

section Runs

variable {A : Type} [FrameAllocator A] {space : Space A}

/-- A request returns, with or without an error. -/
def Moves (space : Space A) (request : Request) (after : Space A) : Prop :=
  ∃ outcome, request.perform space = some (outcome, after)

def FitsIn (space : Space A) (request : Request) : Prop :=
  request.Fits space.inner

theorem Sound.moves {after : Space A} (sound : Sound space.inner)
    (fits : FitsIn space request) (moves : Moves space request after) : Sound after.inner := by
  obtain ⟨outcome, run⟩ := moves
  have before : Sound (areas space) := ⟨sound.1, sound.2, sound.3, sound.4⟩
  have kept : Sound (areas after) := before.edits fits (request.perform_edits _ _ run)
  exact ⟨kept.1, kept.2, kept.3, kept.4⟩

/-- The state after requests that are all allowed and return. -/
def performAll (guard : Space A → Request → Bool) (requests : List Request) (space : Space A) :
    Option (Space A) :=
  requests.foldlM (fun space request =>
    if guard space request then (request.perform space).map Prod.snd else none) space

theorem run_of_performAll {guard : Space A → Request → Bool} {requests : List Request}
    {last : Space A} (performed : performAll guard requests space = some last) :
    Run (Guarded (fun space request => guard space request = true) Moves) space requests last := by
  apply (guarded_of_foldlM (fun _ _ allowed => allowed) performed).mono
  rintro before request after ⟨allowed, moved⟩
  obtain ⟨⟨outcome, _⟩, returned, rfl⟩ := map_eq_some_iff.mp moved
  exact ⟨allowed, outcome, returned⟩

/-- Starting from a program whose areas are apart, as long as every request fits,
the areas stay sorted and disjoint. -/
theorem separate_while_requests_fit {builder : ElfProgramBuilder} {machine : Machine A}
    {space last : Space A} {requests : List Request}
    (built : builder.addressSpace machine = .ok space) (spread : builder.Spread)
    (run : Run (Guarded FitsIn Moves) space requests last) : Separate last.vmas := by
  obtain ⟨images, frames, parses, laidOut, -⟩ := ElfProgramBuilder.addressSpace_eq_ok built
  have initially : Sound space.inner := laidOut.sound (spread images (by rw [parses]; rfl))
  have preserved : ∀ (before : Space A) request after, Sound before.inner →
      Guarded FitsIn Moves before request after → Sound after.inner :=
    fun _ _ _ sound guarded => sound.moves guarded.1 guarded.2
  exact (run.invariant preserved initially).arranged.separate

end Runs

/-! ## A heap that grows over its own parts -/

/-- The process after some requests to a new program. -/
def processAfter (builder : ElfProgramBuilder) (guard : Space FramePool → Request → Bool)
    (requests : List Request) : Option (Space FramePool) :=
  (builder.addressSpace bareMachine).toOption.bind (performAll guard requests)

theorem exists_of_processAfter {builder : ElfProgramBuilder}
    {guard : Space FramePool → Request → Bool} {requests : List Request} {last : Space FramePool}
    (reached : processAfter builder guard requests = some last) :
    ∃ space, builder.addressSpace bareMachine = .ok space ∧
      Run (Guarded (fun space request => guard space request = true) Moves) space requests
        last := by
  obtain ⟨space, built, performed⟩ := bind_eq_some_iff.mp reached
  exact ⟨space, eq_ok_of_toOption built, run_of_performAll performed⟩

def ranges (space : Space FramePool) : List (Nat × Nat) :=
  space.vmas.map fun vma => (vma.start, vma.stop)

/-- No address is in two ranges of a list of areas that are separate. -/
theorem Vmas.Separate.ranges {space : Space FramePool} (separate : Separate space.vmas)
    (address : Nat) : (Process.ranges space).Pairwise fun a b =>
      ¬((a.1 ≤ address ∧ address < a.2) ∧ b.1 ≤ address ∧ address < b.2) :=
  pairwise_map.mpr (separate.disjoint.imp fun disjoint => disjoint address)

/-- The first part of a heap that was split grows over the second one. -/
theorem heap_grows_over_its_parts : (programOf 0x400000 0x1000).Spread ∧ ∃ space last,
      (programOf 0x400000 0x1000).addressSpace bareMachine = .ok space ∧
      Run Moves space [.brk 0x40003000, .mprotect 0x40000000 0x1000 .read, .brk 0x40004000] last ∧
      ¬Separate last.vmas := by
  have reached : (processAfter (programOf 0x400000 0x1000) (fun _ _ => true)
      [.brk 0x40003000, .mprotect 0x40000000 0x1000 .read, .brk 0x40004000]).map ranges =
      some [(0x400000, 0x401000), (0x40000000, 0x40004000), (0x40001000, 0x40003000),
        (0x6ffffffc0000, 0x700000000000)] := by
    decide +kernel
  obtain ⟨last, processed, found⟩ := map_eq_some_iff.mp reached
  obtain ⟨space, built, run⟩ := exists_of_processAfter processed
  refine ⟨by decide +kernel, space, last, built, run.mono fun _ _ _ guarded => guarded.2, ?_⟩
  intro separate
  have apart := separate.ranges 0x40001000
  rw [found] at apart
  exact absurd apart (by decide)

/-- Requests that fit: the heap grows, a part of it is protected, a page is mapped
behind the heap and taken away again. -/
def fittingRequests : List Request :=
  [.brk 0x40003000, .mprotect 0x40001000 0x1000 .read,
    .mmapAnonymous 0x50000000 0x1000 0x30 .read, .munmap 0x50000000 0x1000]

theorem separate_while_requests_fit_growing :
    ∃ space last, (programOf 0x400000 0x1000).addressSpace bareMachine = .ok space ∧
      Run (Guarded FitsIn Moves) space fittingRequests last ∧
      ranges last = [(0x400000, 0x401000), (0x40000000, 0x40001000), (0x40001000, 0x40002000),
        (0x40002000, 0x40003000), (0x6ffffffc0000, 0x700000000000)] ∧
      Separate last.vmas := by
  have reached : (processAfter (programOf 0x400000 0x1000)
      (fun space request => request.Fits space.inner) fittingRequests).map ranges =
      some [(0x400000, 0x401000), (0x40000000, 0x40001000), (0x40001000, 0x40002000),
        (0x40002000, 0x40003000), (0x6ffffffc0000, 0x700000000000)] := by
    decide +kernel
  obtain ⟨last, processed, found⟩ := map_eq_some_iff.mp reached
  obtain ⟨space, built, run⟩ := exists_of_processAfter processed
  have guarded : Run (Guarded FitsIn Moves) space fittingRequests last :=
    run.mono fun _ _ _ step => ⟨(of_decide_eq_true step.1 : Request.Fits _ _), step.2⟩
  exact ⟨space, last, built, guarded, found,
    separate_while_requests_fit built (by decide +kernel) guarded⟩

end AetherKernel.Process
