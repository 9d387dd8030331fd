import AetherKernel.Mm.Buddy.Geometry

/-!
# Usable ranges

Collecting the memory map yields ranges that are sorted, not empty and not even
adjacent to one another.  Non-adjacency is what keeps buddy merging inside one
range: a run of usable frames cannot cross from one range into the next.
-/

namespace AetherKernel.Mm.Buddy

open Lib Word List Except

/-- The frame lies in the range. -/
def Within (range : Nat × Nat) (frame : Nat) : Prop :=
  range.1 ≤ frame ∧ frame < range.1 + range.2

/-- The frames of all ranges. -/
def usableFrames : RangeList → Finset Nat
  | [] => ∅
  | range :: rest => Finset.Ico range.1 (range.1 + range.2) ∪ usableFrames rest

variable {frame first : Nat} {ranges : RangeList} {memMap : List MemoryRegion}

theorem not_within_empty : ¬Within (first, 0) frame :=
  fun inside => absurd inside.2 (Nat.not_lt.mpr inside.1)

theorem mem_usableFrames : frame ∈ usableFrames ranges ↔ ∃ range ∈ ranges, Within range frame := by
  induction ranges with
  | nil => simp [usableFrames]
  | cons range rest ih => simp [usableFrames, ih, Within]

theorem mem_usableFrames_cons {range : Nat × Nat} :
    frame ∈ usableFrames (range :: ranges) ↔ Within range frame ∨ frame ∈ usableFrames ranges := by
  simp [usableFrames, Within]

theorem mem_usableFrames_append {first second : RangeList} :
    frame ∈ usableFrames (first ++ second) ↔
      frame ∈ usableFrames first ∨ frame ∈ usableFrames second := by
  simp only [mem_usableFrames, mem_append, or_and_right, exists_or]

/-- The number of frame numbers a 64-bit address space has room for. -/
def frameLimit : Nat :=
  2 ^ 52

/-- Sorted, non-adjacent, non-empty ranges of frames. -/
structure Coalesced (ranges : RangeList) : Prop where
  ordered : ranges.Pairwise fun x y => x.1 + x.2 < y.1
  nonempty : ∀ range ∈ ranges, 0 < range.2
  bounded : ∀ range ∈ ranges, range.1 + range.2 ≤ frameLimit

namespace Coalesced

variable {range : Nat × Nat}

theorem nil : Coalesced [] :=
  ⟨List.Pairwise.nil, by simp, by simp⟩

theorem sublist {some : RangeList} (coalesced : Coalesced ranges) (part : some.Sublist ranges) :
    Coalesced some :=
  ⟨coalesced.ordered.sublist part, fun other member => coalesced.nonempty other (part.mem member),
    fun other member => coalesced.bounded other (part.mem member)⟩

theorem tail (coalesced : Coalesced (range :: ranges)) : Coalesced ranges :=
  coalesced.sublist (sublist_cons_self range ranges)

/-- The first range shares no frame with the others. -/
theorem disjoint_head (coalesced : Coalesced (range :: ranges)) :
    Disjoint (Finset.Ico range.1 (range.1 + range.2)) (usableFrames ranges) := by
  rw [Finset.disjoint_left]
  intro frame first second
  obtain ⟨other, member, inside⟩ := mem_usableFrames.mp second
  have apart := (pairwise_cons.mp coalesced.ordered).1 other member
  rw [Finset.mem_Ico] at first
  unfold Within at inside
  omega

variable (coalesced : Coalesced ranges)
include coalesced

theorem lt_frameLimit (usable : frame ∈ usableFrames ranges) : frame < frameLimit := by
  obtain ⟨range, member, inside⟩ := mem_usableFrames.mp usable
  exact lt_of_lt_of_le inside.2 (coalesced.bounded range member)

theorem card_usableFrames : (usableFrames ranges).card = (ranges.map Prod.snd).sum := by
  induction ranges with
  | nil => rfl
  | cons range rest ih =>
    rw [usableFrames, Finset.card_union_of_disjoint coalesced.disjoint_head, ih coalesced.tail]
    simp

/-- A usable frame right behind a range would belong to an adjacent range. -/
theorem end_not_usable (member : range ∈ ranges) : range.1 + range.2 ∉ usableFrames ranges := by
  intro usable
  obtain ⟨other, otherMember, inside⟩ := mem_usableFrames.mp usable
  obtain ⟨pre, post, rfl⟩ := append_of_mem member
  have ordered := coalesced.ordered
  rw [pairwise_append, pairwise_cons] at ordered
  obtain ⟨_, ⟨behind, _⟩, before⟩ := ordered
  unfold Within at inside
  rcases mem_append.mp otherMember with early | late
  · have := before other early range mem_cons_self
    omega
  · rcases mem_cons.mp late with rfl | late
    · omega
    · have := behind other late
      omega

/-- A run of usable frames lies in one range. -/
theorem one_range {start length : Nat} (positive : 0 < length)
    (usable : Finset.Ico start (start + length) ⊆ usableFrames ranges) :
    ∃ range ∈ ranges, range.1 ≤ start ∧ start + length ≤ range.1 + range.2 := by
  obtain ⟨range, member, inside⟩ :=
    mem_usableFrames.mp (usable (Finset.mem_Ico.mpr ⟨le_rfl, by omega⟩))
  refine ⟨range, member, inside.1, ?_⟩
  by_contra beyond
  apply coalesced.end_not_usable member
  apply usable
  rw [Finset.mem_Ico]
  unfold Within at inside
  omega

end Coalesced

/-! ## Insertion -/

namespace RangeList

variable {len' start len : Nat} {before after : RangeList}

/-- Absorbing the previous range gives a range behind all that are left; the new
range was behind all there were. -/
theorem absorbPrevious_spec {before' : RangeList} {start' : Nat}
    (coalesced : Coalesced before) (positive : 0 < len)
    (absorbed : absorbPrevious before start len = .ok (before', start', len')) :
    Coalesced before' ∧ (∀ range ∈ before', range.1 + range.2 < start') ∧ 0 < len' ∧
      start' + len' = start + len ∧ (∀ range ∈ before, range.1 + range.2 ≤ start) ∧
      ∀ frame, (frame ∈ usableFrames before' ∨ Within (start', len') frame) ↔
        (frame ∈ usableFrames before ∨ Within (start, len) frame) := by
  cases before using List.reverseRecOn with
  | nil =>
    obtain ⟨rfl, rfl, rfl⟩ := absorbed
    exact ⟨coalesced, by simp, positive, rfl, by simp, fun _ => Iff.rfl⟩
  | append_singleton front last =>
    have ordered := pairwise_append.mp coalesced.ordered
    have earlier : ∀ range ∈ front, range.1 + range.2 < last.1 := fun range member =>
      ordered.2.2 range member last (by simp)
    simp only [absorbPrevious, List.getLast?_append, List.getLast?_singleton, Option.some_or]
      at absorbed
    split at absorbed
    · cases absorbed
    rename_i prevEnd fits
    obtain ⟨_, rfl⟩ := checkedAdd_eq_some_iff.mp fits
    split at absorbed
    · cases absorbed
    have clear : ∀ range ∈ front ++ [last], range.1 + range.2 ≤ start := by
      refine forall_mem_append.mpr ⟨fun range member => ?_, by simpa using Nat.not_lt.mp ‹_›⟩
      have := earlier range member
      omega
    split at absorbed
    · split at absorbed
      · cases absorbed
      rename_i merged total
      obtain ⟨_, rfl⟩ := checkedAdd_eq_some_iff.mp total
      simp only [dropLast_concat] at absorbed
      obtain ⟨rfl, rfl, rfl⟩ := absorbed
      refine ⟨coalesced.sublist (sublist_append_left _ _), earlier, by omega, by omega, clear,
        fun frame => ?_⟩
      rw [mem_usableFrames_append, or_assoc]
      apply or_congr_right
      simp only [usableFrames, Finset.union_empty, Finset.mem_Ico, Within]
      omega
    · obtain ⟨rfl, rfl, rfl⟩ := absorbed
      have behind : last.1 + last.2 < start := by omega
      refine ⟨coalesced, forall_mem_append.mpr ⟨fun range member => ?_, by simpa using behind⟩,
        positive, rfl, clear, fun _ => Iff.rfl⟩
      have := earlier range member
      omega

/-- Absorbing the ranges that follow gives a range before all that are left; the
range was before all there were. -/
theorem absorbNext_spec {after' : RangeList}
    (coalesced : Coalesced after) (positive : 0 < len) (bounded : start + len ≤ frameLimit)
    (absorbed : absorbNext start len after = .ok (len', after')) :
    Coalesced after' ∧ (∀ range ∈ after', start + len' < range.1) ∧ 0 < len' ∧
      start + len' ≤ frameLimit ∧ (∀ range ∈ after, start + len ≤ range.1) ∧
      ∀ frame, (frame ∈ usableFrames after' ∨ Within (start, len') frame) ↔
        (frame ∈ usableFrames after ∨ Within (start, len) frame) := by
  induction after generalizing len with
  | nil =>
    obtain ⟨rfl, rfl⟩ := absorbed
    exact ⟨coalesced, by simp, positive, bounded, by simp, fun _ => Iff.rfl⟩
  | cons range rest ih =>
    obtain ⟨nextStart, nextLen⟩ := range
    have later := (pairwise_cons.mp coalesced.ordered).1
    have nextBounded := coalesced.bounded _ mem_cons_self
    rw [absorbNext] at absorbed
    split at absorbed
    · cases absorbed
    rename_i last fits
    obtain ⟨_, rfl⟩ := checkedAdd_eq_some_iff.mp fits
    split at absorbed
    · cases absorbed
    have clear : ∀ range ∈ (nextStart, nextLen) :: rest, start + len ≤ range.1 := by
      refine forall_mem_cons.mpr ⟨Nat.not_lt.mp ‹_›, fun range member => ?_⟩
      have := later range member
      omega
    split at absorbed
    · obtain ⟨rfl, rfl⟩ := absorbed
      refine ⟨coalesced, forall_mem_cons.mpr ⟨?_, fun range member => ?_⟩, positive, bounded,
        clear, fun _ => Iff.rfl⟩
      · omega
      · have := later range member
        omega
    · split at absorbed
      · cases absorbed
      rename_i merged total
      obtain ⟨_, rfl⟩ := checkedAdd_eq_some_iff.mp total
      obtain ⟨coalesced', before, positive', bounded', -, points⟩ :=
        ih coalesced.tail (by omega) (by omega) absorbed
      refine ⟨coalesced', before, positive', bounded', clear, fun frame => ?_⟩
      have joined : Within (start, len + nextLen) frame ↔
          Within (nextStart, nextLen) frame ∨ Within (start, len) frame := by
        simp only [Within]
        omega
      rw [points frame, mem_usableFrames_cons, joined, or_left_comm, ← or_assoc]

theorem coalesced_append (front : Coalesced before) (back : Coalesced after)
    (behind : ∀ range ∈ before, range.1 + range.2 < start)
    (ahead : ∀ range ∈ after, start + len < range.1) (positive : 0 < len)
    (bounded : start + len ≤ frameLimit) : Coalesced (before ++ (start, len) :: after) := by
  refine ⟨?_, forall_mem_append.mpr ⟨front.nonempty, forall_mem_cons.mpr ⟨positive, back.nonempty⟩⟩,
    forall_mem_append.mpr ⟨front.bounded, forall_mem_cons.mpr ⟨bounded, back.bounded⟩⟩⟩
  rw [pairwise_append, pairwise_cons]
  refine ⟨front.ordered, ⟨ahead, back.ordered⟩, fun early member => forall_mem_cons.mpr ?_⟩
  have := behind early member
  refine ⟨this, fun late other => ?_⟩
  have := ahead late other
  omega

/-- Insertion keeps the ranges coalesced and adds exactly the new frames, none of
which was there. -/
theorem insertMergedSorted_spec {cap : Nat} {entries result : RangeList}
    (coalesced : Coalesced entries) (bounded : start + len ≤ frameLimit)
    (inserted : insertMergedSorted cap entries start len = .ok result) :
    Coalesced result ∧ (∀ frame, frame ∈ usableFrames result ↔
        frame ∈ usableFrames entries ∨ Within (start, len) frame) ∧
      ∀ frame ∈ usableFrames entries, ¬Within (start, len) frame := by
  unfold insertMergedSorted at inserted
  split at inserted
  · rename_i empty
    cases inserted
    have nothing (frame : Nat) : ¬Within (start, len) frame := by
      rw [empty]
      exact not_within_empty
    exact ⟨coalesced, fun frame => (or_iff_left (nothing frame)).symm, fun frame _ => nothing frame⟩
  rename_i positive
  set before := entries.takeWhile fun entry => entry.1 < start
  set after := entries.dropWhile fun entry => entry.1 < start
  have split : entries = before ++ after := takeWhile_append_dropWhile.symm
  have front : Coalesced before := coalesced.sublist (takeWhile_sublist _)
  have back : Coalesced after := coalesced.sublist (dropWhile_sublist _)
  obtain ⟨⟨before', start', len'⟩, first, inserted⟩ := exists_of_bind_eq_ok inserted
  obtain ⟨front', behind, positive', total, clear, points⟩ :=
    absorbPrevious_spec front (Nat.pos_of_ne_zero positive) first
  obtain ⟨⟨len'', after'⟩, second, inserted⟩ := exists_of_bind_eq_ok inserted
  obtain ⟨back', ahead, positive'', bounded', clear', points'⟩ :=
    absorbNext_spec back positive' (by omega) second
  dsimp only at inserted
  split at inserted
  · cases inserted
  cases inserted
  rw [split]
  refine ⟨coalesced_append front' back' behind ahead positive'' bounded', fun frame => ?_, ?_⟩
  swap
  · intro frame old inside
    unfold Within at inside
    rcases mem_usableFrames_append.mp old with early | late
    · obtain ⟨range, member, within⟩ := mem_usableFrames.mp early
      exact absurd within.2 (Nat.not_lt.mpr ((clear range member).trans inside.1))
    · obtain ⟨range, member, within⟩ := mem_usableFrames.mp late
      have := clear' range member
      have := within.1
      omega
  calc
    frame ∈ usableFrames (before' ++ (start', len'') :: after') ↔ frame ∈ usableFrames before' ∨
          frame ∈ usableFrames after' ∨ Within (start', len'') frame := by
      rw [mem_usableFrames_append, mem_usableFrames_cons, or_comm (a := Within _ _)]
    _ ↔ (frame ∈ usableFrames before' ∨ Within (start', len') frame) ∨
          frame ∈ usableFrames after := by
      rw [points' frame, or_assoc, or_comm (b := frame ∈ usableFrames after)]
    _ ↔ frame ∈ usableFrames (before ++ after) ∨ Within (start, len) frame := by
      rw [points frame, mem_usableFrames_append, or_right_comm]

theorem insertMergedSorted_nil {cap : Nat} (room : 0 < cap) (positive : 0 < len) :
    insertMergedSorted cap [] start len = .ok [(start, len)] := by
  rw [insertMergedSorted, if_neg positive.ne']
  exact if_neg room.ne

end RangeList

/-! ## Collecting the memory map -/

/-- The frame is one whole page of a USABLE region, wherever the region's start
does not wrap when it is rounded up. -/
def Collected (memMap : List MemoryRegion) (frame : Nat) : Prop :=
  ∃ region ∈ memMap, region.kind = usableKind ∧ alignUp region.start pageSize ≤ frame * pageSize ∧
    (frame + 1) * pageSize ≤ region.start + region.len

/-- A collected frame lies in its USABLE region, unless rounding up the start of
the region wraps. -/
theorem Collected.in_region (collected : Collected memMap frame) :
    ∃ region ∈ memMap, region.kind = usableKind ∧
      (frame + 1) * pageSize ≤ region.start + region.len ∧
      (region.start + pageSize ≤ Word.size → region.start ≤ frame * pageSize) := by
  obtain ⟨region, member, usable, low, high⟩ := collected
  refine ⟨region, member, usable, high, fun room => ?_⟩
  rw [alignUp_pageSize] at low
  simp only [pageSize, pageShift, Word.size, Nat.shiftLeft_eq] at *
  omega

/-- The first frame and the number of frames that a region adds. -/
def MemoryRegion.pages (region : MemoryRegion) : Nat × Nat :=
  (alignUp region.start pageSize >>> pageShift,
    (alignDown (region.start + region.len) pageSize - alignUp region.start pageSize) >>> pageShift)

/-- The frame is among those that a region adds. -/
def MemoryRegion.Gives (region : MemoryRegion) (frame : Nat) : Prop :=
  region.kind = usableKind ∧ alignUp region.start pageSize ≤ frame * pageSize ∧
    (frame + 1) * pageSize ≤ region.start + region.len

/-- What a success says of the map and of the ranges before and after. -/
structure Collects (cap : Nat) (memMap : List MemoryRegion) (ranges result : RangeList) :
    Prop where
  coalesced : Coalesced result
  frames : ∀ frame, frame ∈ usableFrames result ↔
    frame ∈ usableFrames ranges ∨ Collected memMap frame
  fresh : ∀ region ∈ memMap, ∀ frame ∈ usableFrames ranges, ¬region.Gives frame
  apart : memMap.Pairwise fun first second => ∀ frame, first.Gives frame → ¬second.Gives frame
  fits : ∀ region ∈ memMap, region.kind = usableKind → region.start + region.len < Word.size
  full : cap = 0 → ranges = [] → result = []

section Collecting

variable {cap : Nat} {result : RangeList} {region : MemoryRegion} {rest : List MemoryRegion}

variable (usable : region.kind = usableKind) (small : region.start + region.len < Word.size)
include usable small

theorem gives_iff_within : region.Gives frame ↔ Within region.pages frame := by
  rw [MemoryRegion.Gives, and_iff_right usable, MemoryRegion.pages, alignDown_pageSize small,
    alignUp_pageSize]
  simp only [Within, pageShift, pageSize, Nat.shiftLeft_eq, Nat.shiftRight_eq_div_pow]
  omega

omit usable in
theorem pages_le_frameLimit : region.pages.1 + region.pages.2 ≤ frameLimit := by
  rw [MemoryRegion.pages, alignDown_pageSize small, alignUp_pageSize]
  simp only [pageShift, pageSize, frameLimit, Word.size, Nat.shiftLeft_eq] at *
  omega

/-- A turn of the loop for a USABLE region; inserting no frames changes nothing. -/
theorem collect_cons : collectUsableRanges cap (region :: rest) ranges =
      (RangeList.insertMergedSorted cap ranges region.pages.1 region.pages.2 >>=
        collectUsableRanges cap rest) := by
  rw [collectUsableRanges, if_neg (not_not.mpr usable), checkedAdd_eq_some_iff.mpr ⟨small, rfl⟩]
  dsimp only
  split
  · rename_i empty
    rw [RangeList.insertMergedSorted, if_pos (by simp [MemoryRegion.pages, empty])]
    rfl
  · rfl

omit usable small

/-- In one turn a region adds its frames, none of which was there. -/
theorem collect_step (coalesced : Coalesced ranges)
    (collected : collectUsableRanges cap (region :: memMap) ranges = .ok result) :
    ∃ next, collectUsableRanges cap memMap next = .ok result ∧ Coalesced next ∧
      (∀ frame, frame ∈ usableFrames next ↔ frame ∈ usableFrames ranges ∨ region.Gives frame) ∧
      (∀ frame ∈ usableFrames ranges, ¬region.Gives frame) ∧
      (region.kind = usableKind → region.start + region.len < Word.size) ∧
      (cap = 0 → ranges = [] → next = []) := by
  rcases ne_or_eq region.kind usableKind with other | usable
  · rw [collectUsableRanges, if_pos other] at collected
    exact ⟨ranges, collected, coalesced, fun frame => by simp [MemoryRegion.Gives, other],
      fun _ _ gives => other gives.1, fun usable => absurd usable other, fun _ => id⟩
  rcases Nat.lt_or_ge (region.start + region.len) Word.size with small | large
  swap
  · rw [collectUsableRanges, if_neg (not_not.mpr usable), checkedAdd,
      if_neg (by omega)] at collected
    cases collected
  rw [collect_cons usable small] at collected
  obtain ⟨next, inserted, collected⟩ := exists_of_bind_eq_ok collected
  obtain ⟨coalesced', added, clear⟩ :=
    RangeList.insertMergedSorted_spec coalesced (pages_le_frameLimit small) inserted
  simp only [gives_iff_within usable small]
  refine ⟨next, collected, coalesced', added, clear, fun _ => small, ?_⟩
  rintro rfl rfl
  -- There is no room for a first range in a list without any room.
  unfold RangeList.insertMergedSorted at inserted
  split at inserted
  · cases inserted
    rfl
  · cases inserted

/-- Collecting yields coalesced ranges of exactly the collected frames. -/
theorem collectUsableRanges_spec (coalesced : Coalesced ranges)
    (collected : collectUsableRanges cap memMap ranges = .ok result) :
    Collects cap memMap ranges result := by
  induction memMap generalizing ranges with
  | nil =>
    cases collected
    exact ⟨coalesced, by simp [Collected], nofun, .nil, nofun, fun _ => id⟩
  | cons region rest ih =>
    obtain ⟨next, collected, coalesced', added, clear, small, kept⟩ :=
      collect_step coalesced collected
    obtain ⟨final, frames, fresh, apart, fits, full⟩ := ih coalesced' collected
    refine ⟨final, fun frame => ?_, forall_mem_cons.mpr ⟨clear, fun other member frame old => ?_⟩,
      pairwise_cons.mpr ⟨fun other member frame gives => ?_, apart⟩,
      forall_mem_cons.mpr ⟨small, fits⟩, fun none empty => full none (kept none empty)⟩
    · rw [frames frame, added frame, or_assoc]
      simp [Collected, MemoryRegion.Gives]
    · exact fresh other member frame ((added frame).mpr (.inl old))
    · exact fresh other member frame ((added frame).mpr (.inr gives))

/-! ## Exactness -/

/-- The frame lies wholly inside the USABLE region. -/
def MemoryRegion.Holds (region : MemoryRegion) (frame : Nat) : Prop :=
  region.kind = usableKind ∧ region.start ≤ frame * pageSize ∧
    (frame + 1) * pageSize ≤ region.start + region.len

/-- The ranges of a success are the frames inside the USABLE regions; regions with a
frame in common or with an end beyond 64 bits are an error. -/
def CollectsExactly (cap : Nat) (memMap : List MemoryRegion) : Prop :=
  (∀ ranges, collectUsableRanges cap memMap [] = .ok ranges → Coalesced ranges ∧
    ∀ frame, frame ∈ usableFrames ranges ↔ ∃ region ∈ memMap, region.Holds frame) ∧
  ((¬memMap.Pairwise fun first second => ∀ frame, first.Holds frame → ¬second.Holds frame) ∨
    (∃ region ∈ memMap, region.kind = usableKind ∧ Word.size ≤ region.start + region.len) →
    ∃ error, collectUsableRanges cap memMap [] = .error error)

/-- The USABLE region starts behind the last page boundary: rounding it up wraps. -/
def MemoryRegion.Wraps (region : MemoryRegion) : Prop :=
  region.kind = usableKind ∧ Word.size < region.start + pageSize

/-- A region wraps, and it is the only one that gives frames. -/
def Strays (memMap : List MemoryRegion) : Prop :=
  (∃ region ∈ memMap, region.Wraps) ∧
    (∀ region ∈ memMap, region.kind = usableKind → region.start + region.len < Word.size) ∧
    memMap.Pairwise fun first second => ∀ frame, first.Gives frame → ¬second.Gives frame

theorem gives_iff_holds (plain : ¬region.Wraps) : region.Gives frame ↔ region.Holds frame := by
  refine and_congr_right fun usable => and_congr_left fun _ => ?_
  have room : region.start + pageSize ≤ Word.size := not_lt.mp fun wraps => plain ⟨usable, wraps⟩
  rw [alignUp_pageSize]
  simp only [pageSize, pageShift, Word.size, Nat.shiftLeft_eq] at *
  omega

/-- A region whose start wraps gives all frames but the last. -/
theorem gives_of_wraps (wraps : region.Wraps) (small : region.start + region.len < Word.size)
    (frame : Nat) : region.Gives frame ↔ (frame + 1) * pageSize < Word.size := by
  have far := wraps.2
  rw [MemoryRegion.Gives, and_iff_right wraps.1, alignUp_pageSize]
  simp only [pageSize, pageShift, Word.size, Nat.shiftLeft_eq] at *
  omega

theorem collect_append_of_idle
    (small : ∀ region ∈ memMap, region.kind = usableKind → region.start + region.len < Word.size)
    (idle : ∀ region ∈ memMap, ∀ frame, ¬region.Gives frame) :
    collectUsableRanges cap (memMap ++ rest) ranges = collectUsableRanges cap rest ranges := by
  induction memMap with
  | nil => rfl
  | cons region others ih =>
    obtain ⟨fits, small⟩ := forall_mem_cons.mp small
    obtain ⟨nothing, idle⟩ := forall_mem_cons.mp idle
    rw [← ih small idle, cons_append]
    rcases ne_or_eq region.kind usableKind with other | usable
    · rw [collectUsableRanges, if_pos other]
    rw [collect_cons usable (fits usable), RangeList.insertMergedSorted, if_pos]
    · rfl
    · by_contra some
      refine nothing region.pages.1 ((gives_iff_within usable (fits usable)).mpr ⟨le_rfl, ?_⟩)
      exact Nat.lt_add_of_pos_right (Nat.pos_of_ne_zero some)

/-- Collecting is exact unless a region wraps and is collected alone. -/
theorem collectsExactly_iff (cap : Nat) (memMap : List MemoryRegion) :
    CollectsExactly cap memMap ↔ ¬(0 < cap ∧ Strays memMap) := by
  constructor
  · rintro ⟨exactly, -⟩ ⟨room, ⟨region, member, wraps⟩, small, apart⟩
    obtain ⟨before, after, rfl⟩ := append_of_mem member
    obtain ⟨smallBefore, smallRest⟩ := forall_mem_append.mp small
    obtain ⟨fits, smallAfter⟩ := forall_mem_cons.mp smallRest
    have whole := gives_of_wraps wraps (fits wraps.1)
    have silent {other : MemoryRegion}
        (small : other.kind = usableKind → other.start + other.len < Word.size)
        (apart : ∀ frame, other.Gives frame → ¬region.Gives frame) (frame : Nat) :
        ¬other.Gives frame := fun gives =>
      apart frame gives ((whole frame).mpr (gives.2.2.trans_lt (small gives.1)))
    obtain ⟨-, later, earlier⟩ := pairwise_append.mp apart
    have idleBefore : ∀ other ∈ before, ∀ frame, ¬other.Gives frame := fun other early =>
      silent (smallBefore other early) (earlier other early region mem_cons_self)
    have idleAfter : ∀ other ∈ after, ∀ frame, ¬other.Gives frame := fun other late =>
      silent (smallAfter other late) fun frame gives given =>
        rel_of_pairwise_cons later late frame given gives
    have inside := (gives_iff_within wraps.1 (fits wraps.1)).mp ((whole 0).mpr (by decide))
    have done : collectUsableRanges cap (before ++ region :: after) [] = .ok [region.pages] := by
      rw [collect_append_of_idle smallBefore idleBefore, collect_cons wraps.1 (fits wraps.1),
        RangeList.insertMergedSorted_nil room
          (Nat.pos_of_lt_add_right (inside.1.trans_lt inside.2)), ← append_nil after]
      exact collect_append_of_idle smallAfter idleAfter
    have listed := mem_usableFrames.mpr ⟨_, mem_singleton_self _, inside⟩
    obtain ⟨holder, member, holds⟩ := ((exactly _ done).2 0).mp listed
    -- A region that holds the first frame starts with it and does not wrap.
    have plain : ¬holder.Wraps := by
      rintro ⟨-, far⟩
      have start := holds.2.1
      simp only [pageSize, pageShift, Word.size, Nat.shiftLeft_eq] at far start
      omega
    have gives := (gives_iff_holds plain).mpr holds
    rcases mem_append.mp member with early | late
    · exact idleBefore holder early 0 gives
    rcases mem_cons.mp late with rfl | late
    · exact plain wraps
    · exact idleAfter holder late 0 gives
  · intro sound
    unfold CollectsExactly
    cases collected : collectUsableRanges cap memMap [] with
    | error error => exact ⟨nofun, fun _ => ⟨error, rfl⟩⟩
    | ok ranges =>
      have told := collectUsableRanges_spec .nil collected
      have plain : ∀ region ∈ memMap, ¬region.Wraps := by
        intro region member wraps
        have first := (gives_of_wraps wraps (told.fits region member wraps.1) 0).mpr (by decide)
        have listed := (told.frames 0).mpr (.inr ⟨region, member, first⟩)
        refine sound ⟨Nat.pos_of_ne_zero fun none => ?_, ⟨region, member, wraps⟩, told.fits,
          told.apart⟩
        rw [told.full none rfl] at listed
        cases listed
      refine ⟨fun _ same => ?_, fun bad => ?_⟩
      · cases same
        refine ⟨told.coalesced, fun frame => (told.frames frame).trans ?_⟩
        rw [usableFrames, or_iff_right (Finset.notMem_empty frame)]
        exact exists_congr fun region => and_congr_right fun member =>
          gives_iff_holds (plain region member)
      · rcases bad with shared | ⟨region, member, usable, large⟩
        · refine absurd (told.apart.imp_of_mem fun inFirst inSecond apart frame => ?_) shared
          rw [← gives_iff_holds (plain _ inFirst), ← gives_iff_holds (plain _ inSecond)]
          exact apart frame
        · exact absurd (told.fits region member usable) (Nat.not_lt.mpr large)

/-- An empty region behind the last page boundary yields the first frame. -/
theorem empty_region_yields_memory : ¬CollectsExactly 1 [⟨Word.size - 1, 0, usableKind⟩] := by
  rintro ⟨exactly, -⟩
  have listed : 0 ∈ usableFrames [(0, 2 ^ 52 - 1)] :=
    mem_usableFrames.mpr ⟨_, mem_cons_self, le_rfl, by decide⟩
  obtain ⟨region, member, -, start, -⟩ := ((exactly _ rfl).2 0).mp listed
  rw [mem_singleton.mp member] at start
  exact absurd start (by decide)

end Collecting

end AetherKernel.Mm.Buddy
