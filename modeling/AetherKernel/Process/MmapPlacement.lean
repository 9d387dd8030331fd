import AetherKernel.Process.VmaRuns

/-!
# Where mappings are placed

Without a fixed address, `mmap_anonymous` and `mmap_lazy_image` search for a gap
between the limit of the heap and the top of the mapping area.  The search ends at
the first area that ends below the limit of the heap; what it finds is free as
long as no area that starts before that one reaches beyond it.
-/

namespace AetherKernel.Process

open Lib Mm Word Option

/-- The range of the page-rounded length lies in the mapping area, does not wrap,
and shares no address with an area. -/
structure WellChosen (space : UserAddressSpaceInner) (len base : Nat) : Prop where
  whole : len ≤ alignUp len pageSize
  lower : space.brkLimit ≤ base
  upper : base + alignUp len pageSize ≤ space.mmapTop
  inside : base + alignUp len pageSize < Word.size
  clear : ∀ vma ∈ space.vmas, ∀ address, vma.start ≤ address → address < vma.stop →
    ¬(base ≤ address ∧ address < base + alignUp len pageSize)

section Calls

variable {A : Type} [FrameAllocator A] {space after : Space A} {len flags : BitVec 64}
  {call : SpaceM A Nat} {base : Nat}

/-- The calls that record an area and map its pages later. -/
inductive MapsLazily (len flags : BitVec 64) : SpaceM A Nat → Prop
  | anonymous (addr : BitVec 64) (pageFlags : MapFlags) :
      MapsLazily len flags (mmapAnonymous addr.toNat len.toNat flags.toNat pageFlags)
  | image (addr : BitVec 64) (pageFlags : MapFlags) (image : ProgramImageSource)
      (imageOffset imageLen : BitVec 64) :
      MapsLazily len flags (mmapLazyImage addr.toNat len.toNat flags.toNat pageFlags image
        imageOffset.toNat imageLen.toNat)

/-- A request returns, or the process goes on after a fork, in the parent or in the
child: the areas are the same, the pages may not be. -/
inductive Continues (space : Space A) : Option Request → Space A → Prop
  | request {request : Request} {after : Space A} (moves : Moves space request after) :
      Continues space (some request) after
  | fork {after : Space A} (same : areas after = areas space) : Continues space none after

def AllFit (space : Space A) (label : Option Request) : Prop :=
  ∀ request ∈ label, FitsIn space request

/-- Without a fixed address the base is the gap that is found. -/
theorem mmapLazy_eq_ok_iff {addr len flags : Nat} (pageFlags : MapFlags) (kind : UserVmaKind)
    (free : (hasFlag flags mapFixedNoreplace || hasFlag flags mapFixed) = false) :
    (∃ after, mmapLazy addr len flags pageFlags kind space = some (.ok base, after)) ↔
      Vmas.findTopDownGap space.vmas (alignUp space.brkLimit pageSize)
        (alignDown space.mmapTop pageSize) (alignUp len pageSize) = some base := by
  obtain ⟨noreplace, fixed⟩ := Bool.or_eq_false_iff.mp free
  have search : prepareMappingBase addr (alignUp len pageSize) flags =
      allocateMmapBase (A := A) (alignUp len pageSize) := by
    simp [prepareMappingBase, noreplace, fixed]
  have looked : inner space = some (.ok space.inner, space) := rfl
  unfold mmapLazy
  rw [search]
  cases found : Vmas.findTopDownGap space.vmas (alignUp space.brkLimit pageSize)
      (alignDown space.mmapTop pageSize) (alignUp len pageSize) with
  | none =>
    have failed : allocateMmapBase (alignUp len pageSize) space =
        some (.error (.frame .outOfMemory), space) := by
      rw [allocateMmapBase, Exec.bind_ok looked, found]
      rfl
    rw [Exec.bind_error failed]
    simp
  | some gap =>
    have placed : allocateMmapBase (alignUp len pageSize) space = some (.ok gap, space) := by
      rw [allocateMmapBase, Exec.bind_ok looked, found]
      rfl
    rw [Exec.bind_ok placed]
    constructor
    · rintro ⟨after, ⟨⟩⟩
      rfl
    · rintro ⟨⟩
      exact ⟨_, rfl⟩

/-- Where the areas are arranged, the gap is one. -/
theorem wellChosen_of_sound (sound : Sound space.inner) (maps : MapsLazily len flags call)
    (free : (hasFlag flags.toNat mapFixedNoreplace || hasFlag flags.toNat mapFixed) = false)
    (nonzero : alignUp len.toNat pageSize ≠ 0) (returns : call space = some (.ok base, after)) :
    WellChosen space.inner len.toNat base := by
  have found : Vmas.findTopDownGap space.vmas (alignUp space.brkLimit pageSize)
      (alignDown space.mmapTop pageSize) (alignUp len.toNat pageSize) = some base := by
    cases maps with
    | anonymous addr pageFlags =>
      unfold mmapAnonymous at returns
      split at returns
      · nomatch returns
      · exact (mmapLazy_eq_ok_iff pageFlags _ free).mp ⟨after, returns⟩
    | image addr pageFlags image imageOffset imageLen =>
      unfold mmapLazyImage at returns
      split at returns
      · nomatch returns
      · exact (mmapLazy_eq_ok_iff pageFlags _ free).mp ⟨after, returns⟩
  obtain ⟨bound, room, -, clear⟩ := sound.gap found
  rw [alignUp_alignUp] at room clear
  constructor
  · have word := len.isLt
    rw [alignUp_pageSize] at nonzero ⊢
    simp only [pageSize_eq, pageShift, Word.size] at *
    omega
  · exact bound
  · exact room
  · exact room.trans_lt sound.top_lt
  · intro vma member address starts ends taken
    rcases clear vma member with before | behind <;> omega

theorem Sound.continues {label : Option Request} (sound : Sound space.inner)
    (fit : AllFit space label) (continues : Continues space label after) : Sound after.inner := by
  cases continues with
  | request moves => exact sound.moves (fit _ rfl) moves
  | fork same =>
    have kept : Sound (areas after) := same ▸ ⟨sound.1, sound.2, sound.3, sound.4⟩
    exact ⟨kept.1, kept.2, kept.3, kept.4⟩

/-- Starting from a program whose areas are apart, as long as every request fits, a
mapping without a fixed address is placed in a range that is free. -/
theorem mapping_is_placed_in_a_gap {builder : ElfProgramBuilder} {machine : Machine A}
    {last : Space A} {labels : List (Option Request)}
    (built : builder.addressSpace machine = .ok space) (spread : builder.Spread)
    (run : Run (Guarded AllFit Continues) space labels last) (maps : MapsLazily len flags call)
    (free : (hasFlag flags.toNat mapFixedNoreplace || hasFlag flags.toNat mapFixed) = false)
    (nonzero : alignUp len.toNat pageSize ≠ 0) (returns : call last = some (.ok base, after)) :
    WellChosen last.inner len.toNat base := by
  obtain ⟨images, frames, parses, laidOut, -⟩ := ElfProgramBuilder.addressSpace_eq_ok built
  have initially : Sound space.inner := laidOut.sound (spread images (by rw [parses]; rfl))
  have preserved : ∀ (before : Space A) label after, Sound before.inner →
      Guarded AllFit Continues before label after → Sound after.inner :=
    fun _ _ _ sound guarded => sound.continues guarded.1 guarded.2
  have sound := run.invariant preserved initially
  exact wellChosen_of_sound sound maps free nonzero returns

end Calls

/-! ## A segment that reaches over the heap -/

/-- What a mapping of a length returns in a process, with the areas before it. -/
def placedIn (space : Space FramePool) (len : BitVec 64) : Option (Nat × List (Nat × Nat)) :=
  (mmapAnonymous 0 len.toNat 0x22 .read space).bind fun result =>
    result.1.toOption.map fun base => (base, ranges space)

theorem exists_of_placedIn {space : Space FramePool} {len : BitVec 64} {base : Nat}
    {areas : List (Nat × Nat)} (placed : placedIn space len = some (base, areas)) :
    ∃ after, mmapAnonymous (0 : BitVec 64).toNat len.toNat (0x22 : BitVec 64).toNat .read space =
      some (.ok base, after) ∧ ranges space = areas := by
  obtain ⟨⟨outcome, after⟩, returns, found⟩ := bind_eq_some_iff.mp placed
  obtain ⟨value, succeeds, same⟩ := map_eq_some_iff.mp found
  cases same
  obtain rfl := eq_ok_of_toOption succeeds
  exact ⟨after, returns, rfl⟩

/-- The heap starts inside the segment and ends below the limit, so the search ends
there and the mapping is placed over the rest of the segment. -/
theorem mapping_is_placed_over_a_segment :
    ∃ space after, (programOf 0x400000 0x50000000).addressSpace bareMachine = .ok space ∧
      mmapAnonymous (0 : BitVec 64).toNat (0x6fefbde00000 : BitVec 64).toNat
        (0x22 : BitVec 64).toNat .read space = some (.ok 0x42000000, after) ∧
      ranges space = [(0x400000, 0x50400000), (0x40000000, 0x40000000),
        (0x6ffffffc0000, 0x700000000000)] ∧
      ¬WellChosen space.inner 0x6fefbde00000 0x42000000 := by
  have reached : (processAfter (programOf 0x400000 0x50000000) (fun _ _ => true) []).bind
      (placedIn · 0x6fefbde00000) = some (0x42000000, [(0x400000, 0x50400000),
        (0x40000000, 0x40000000), (0x6ffffffc0000, 0x700000000000)]) := by
    decide +kernel
  obtain ⟨space, processed, placed⟩ := bind_eq_some_iff.mp reached
  obtain ⟨start, built, run⟩ := exists_of_processAfter processed
  cases run
  obtain ⟨after, returns, areas⟩ := exists_of_placedIn placed
  refine ⟨space, after, built, returns, areas, fun chosen => ?_⟩
  have member : (0x400000, 0x50400000) ∈ ranges space := by simp [areas]
  obtain ⟨vma, present, same⟩ := List.mem_map.mp member
  obtain ⟨starts, stops⟩ := Prod.mk.inj same
  exact chosen.clear vma present 0x42000000 (by omega) (by omega) ⟨le_rfl, by decide⟩

/-- The heap grows, the process forks, and the child maps two pages. -/
theorem mapping_is_placed_in_a_gap_forked :
    ∃ space last after, (programOf 0x400000 0x1000).addressSpace bareMachine = .ok space ∧
      Run (Guarded AllFit Continues) space [some (.brk 0x40003000), none] last ∧
      mmapAnonymous (0 : BitVec 64).toNat (0x1001 : BitVec 64).toNat (0x22 : BitVec 64).toNat .read
        last = some (.ok 0x6fefffdfe000, after) ∧ WellChosen last.inner 0x1001 0x6fefffdfe000 := by
  have reached : (processAfter (programOf 0x400000 0x1000)
      (fun space request => request.Fits space.inner) [.brk 0x40003000]).bind
      (placedIn · 0x1001) = some (0x6fefffdfe000, [(0x400000, 0x401000), (0x40000000, 0x40003000),
        (0x6ffffffc0000, 0x700000000000)]) := by
    decide +kernel
  obtain ⟨last, processed, placed⟩ := bind_eq_some_iff.mp reached
  obtain ⟨space, built, run⟩ := exists_of_processAfter processed
  obtain ⟨after, returns, -⟩ := exists_of_placedIn placed
  have forked : Run (Guarded AllFit Continues) space [some (.brk 0x40003000), none] last := by
    cases run with
    | cons first rest =>
      cases rest
      have fits := of_decide_eq_true first.1
      refine .cons ⟨?_, .request first.2⟩ (.cons ⟨?_, .fork rfl⟩ .nil)
      · rintro _ ⟨⟩
        exact fits
      · exact fun _ none => nomatch none
  exact ⟨space, last, after, built, forked, returns,
    mapping_is_placed_in_a_gap built (by decide +kernel) forked (.anonymous 0 .read) (by decide)
      (by decide) returns⟩

end AetherKernel.Process
