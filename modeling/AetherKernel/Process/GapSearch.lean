import AetherKernel.Process.MmapPlacement

/-!
# Gaps that the search overlooks

`find_top_down_gap` walks down the areas and compares the place at the end of the
gap above an area with the start of that area, not with its end.  So it passes over
a gap between two areas, and finds only the room below all of them.
-/

namespace AetherKernel.Process

open Lib Mm Word List Vmas

variable {A : Type} [FrameAllocator A] {space : Space A} {addr len flags : Nat}

/-- There is a free range of pages in the mapping area for the length. -/
def HasRoom (space : UserAddressSpaceInner) (len : Nat) : Prop :=
  ∃ base, pageSize ∣ base ∧ WellChosen space len base

/-- The room is at the lower end of the mapping area, below all areas that reach
into it. -/
def RoomAtBottom (space : UserAddressSpaceInner) (len : Nat) : Prop :=
  RoomBelow space.vmas (alignUp space.brkLimit pageSize) (alignDown space.mmapTop pageSize)
    (alignUp len pageSize)

theorem alignUp_le {value bound : Nat} (le : value ≤ bound) (word : bound < Word.size)
    (aligned : pageSize ∣ bound) : alignUp value pageSize ≤ bound := by
  rw [alignUp_pageSize]
  simp only [pageSize_eq, pageShift, Word.size] at *
  omega

/-- `mmap_anonymous` and `mmap_lazy_image` without a fixed address succeed whenever
there is room, exactly if there is none or it is at the bottom. -/
theorem room_is_found_iff (pageFlags : MapFlags) (kind : UserVmaKind)
    (ordered : Span.Ordered space.vmas)
    (aligned : ∀ vma ∈ space.vmas, pageSize ∣ vma.start)
    (top : space.mmapTop < Word.size)
    (free : (hasFlag flags mapFixedNoreplace || hasFlag flags mapFixed) = false)
    (nonzero : len ≠ 0) :
    (HasRoom space.inner len →
      ∃ base after, mmapLazy addr len flags pageFlags kind space = some (.ok base, after)) ↔
    (HasRoom space.inner len → RoomAtBottom space.inner len) := by
  refine imp_congr_right fun room => ?_
  obtain ⟨base, dvd, chosen⟩ := room
  have upper := alignDown_pageSize top
  have below : alignDown space.mmapTop pageSize < Word.size :=
    Nat.and_le_left.trans_lt top
  have search := found_findTopDownGap (alignUp len pageSize)
    (alignUp space.brkLimit pageSize) ordered aligned below (upper ▸ Nat.dvd_mul_left _ _)
  rw [alignUp_alignUp] at search
  constructor
  · rintro ⟨place, after, returns⟩ vma member within
    obtain ⟨bound, -, -, clear⟩ :=
      search.sound place ((mmapLazy_eq_ok_iff pageFlags kind free).mp ⟨after, returns⟩)
    exact (Nat.add_le_add_right bound _).trans (clear vma member within)
  · intro bottom
    have positive : 0 < alignUp len pageSize := (Nat.pos_of_ne_zero nonzero).trans_le chosen.whole
    have starts := alignUp_le chosen.lower (by have := chosen.inside; omega) dvd
    have ends : base + alignUp len pageSize ≤ alignDown space.mmapTop pageSize := by
      have := Nat.dvd_add dvd (pageSize_dvd_alignUp len)
      have := chosen.upper
      rw [upper]
      simp only [pageSize_eq, pageShift] at *
      omega
    obtain ⟨place, found⟩ := Option.isSome_iff_exists.mp
      (search.complete positive ((Nat.add_le_add_right starts _).trans ends) bottom)
    exact ⟨place, (mmapLazy_eq_ok_iff pageFlags kind free).mpr found⟩

/-- An address space with one area. -/
def spaceWith (start stop : Nat) : Space FramePool :=
  ⟨bareMachine, { UserAddressSpaceInner.new ⟨.fromStartAddress 0, fun _ _ => .absent⟩ with
    vmas := [⟨start, stop, .read, .anonymous, true⟩], brkLimit := 0x41000000 }⟩

theorem hasRoom_spaceWith {start stop : Nat} (base : Nat) (dvd : pageSize ∣ base)
    (lower : 0x41000000 ≤ base) (upper : base + 0x1000 ≤ 0x6fefffe00000)
    (clear : stop ≤ base ∨ base + 0x1000 ≤ start) :
    HasRoom (spaceWith start stop).inner 0x1000 := by
  have len : alignUp 0x1000 pageSize = 0x1000 := by decide
  refine ⟨base, dvd, ⟨len.ge, lower, len ▸ upper, ?_, forall_mem_singleton.mpr ?_⟩⟩
  · rw [len]
    exact upper.trans_lt (by decide)
  · rw [len]
    intro address (starts : start ≤ address) (ends : address < stop)
    omega

/-- There is room below the area. -/
theorem room_below_is_found : ∃ base after,
    mmapLazy 0 0x1000 0x22 .read .anonymous (spaceWith 0x50000000 0x50001000) =
      some (.ok base, after) := by
  have ordered : Span.Ordered (spaceWith 0x50000000 0x50001000).vmas :=
    ⟨pairwise_singleton .., forall_mem_singleton.mpr (by decide)⟩
  refine (room_is_found_iff .read .anonymous ordered (forall_mem_singleton.mpr (by decide))
    (by decide) (by decide) (by decide)).mpr (fun _ => forall_mem_singleton.mpr fun _ => ?_) ?_
  · decide
  · exact hasRoom_spaceWith 0x41000000 (by decide) (by decide) (by decide) (.inr (by decide))

/-- All addresses above the area are free, and the search finds none of them. -/
theorem room_above_is_overlooked : HasRoom (spaceWith 0x41000000 0x41001000).inner 0x1000 ∧
    (mmapLazy 0 0x1000 0x22 .read .anonymous (spaceWith 0x41000000 0x41001000)).map
      (fun result => result.1.toOption) = some none := by
  constructor
  · exact hasRoom_spaceWith 0x41001000 (by decide) (by decide) (by decide) (.inl (by decide))
  · decide +kernel

end AetherKernel.Process
