import AetherKernel.Process.Vma

/-!
# The order of areas

What each function on lists of areas does to a list of areas that follow each
other.
-/

namespace AetherKernel.Process

open Lib Mm Relation Word List

namespace Vmas

/-! ## Arranged lists -/

/-- What holds of each area: it starts at a page, ends at a word, and only areas of
the heap, which lie below the limit, are empty. -/
structure WellPlaced (limit : Nat) (vma : UserVma) : Prop where
  aligned : pageSize ∣ vma.start
  stop_lt : vma.stop < Word.size
  heap_of_empty : vma.start = vma.stop → vma.kind.isHeap = true
  heap_lt : vma.kind.isHeap = true → vma.start < limit
  heap_stop_le : vma.kind.isHeap = true → vma.stop ≤ limit

/-- The areas follow each other and are well placed. -/
structure Arranged (limit : Nat) (vmas : List UserVma) : Prop where
  ordered : Span.Ordered vmas
  placed : ∀ vma ∈ vmas, WellPlaced limit vma

variable {limit stop start : Nat} {vmas after parts : List UserVma} {vma : UserVma}

theorem mergeable_iff {lhs rhs : UserVma} :
    lhs.mergeable rhs = true ↔ lhs.stop = rhs.start ∧ lhs.flags = rhs.flags ∧
      lhs.lazy = rhs.lazy ∧ lhs.kind.canMergeWith rhs.kind = true := by
  simp [UserVma.mergeable, and_assoc]

theorem isHeap_of_canMergeWith {lhs rhs : UserVmaKind} (fits : lhs.canMergeWith rhs = true)
    (heap : lhs.isHeap = true) : rhs.isHeap = true := by
  cases lhs <;> cases rhs <;> simp_all [UserVmaKind.canMergeWith, UserVmaKind.isHeap]

/-- Areas that follow each other are not both empty at one place. -/
theorem start_lt_stop_of_ordered {front back : List UserVma} {lhs rhs : UserVma}
    (ordered : Span.Ordered (front ++ lhs :: rhs :: back)) : lhs.start < rhs.stop := by
  have pairwise := (pairwise_append.mp ordered.pairwise).2.1
  have between : lhs.start < rhs.start := ((pairwise_cons.mp pairwise).1 rhs mem_cons_self).1
  have valid : rhs.start ≤ rhs.stop := ordered.valid rhs (by simp)
  exact between.trans_le valid

theorem Arranged.mergeStep (arranged : Arranged limit vmas)
    (step : MergeStep vmas after) : Arranged limit after := by
  obtain ⟨front, lhs, rhs, back, fits, rfl, rfl⟩ := step
  obtain ⟨ordered, placed⟩ := arranged
  simp only [forall_mem_append, forall_mem_cons] at placed
  obtain ⟨inFront, left, right, inBack⟩ := placed
  refine ⟨ordered.merge rfl rfl, forall_mem_append.mpr ⟨inFront, forall_mem_cons.mpr ⟨?_, inBack⟩⟩⟩
  constructor
  · exact left.aligned
  · exact right.stop_lt
  · exact fun empty => absurd empty (start_lt_stop_of_ordered ordered).ne
  · exact left.heap_lt
  · intro heap
    exact right.heap_stop_le (isHeap_of_canMergeWith (mergeable_iff.mp fits).2.2.2 heap)

theorem Arranged.merges (arranged : Arranged limit vmas)
    (merges : ReflTransGen MergeStep vmas after) : Arranged limit after :=
  kept_of_merges (fun _ _ step before => before.mergeStep step) merges arranged

/-! ## Cutting -/

@[simp]
theorem isHeap_adjusted (kind : UserVmaKind) (delta : Nat) :
    (kind.adjusted delta).isHeap = kind.isHeap := by
  cases kind <;> rfl

/-- The parts of an area follow each other and are well placed. -/
structure CutInto (limit : Nat) (vma : UserVma) (parts : List UserVma) : Prop where
  ordered : Span.Ordered parts
  pieces : ∀ part ∈ parts, Span.Piece vma part
  placed : ∀ part ∈ parts, WellPlaced limit part

theorem CutInto.self (valid : vma.start ≤ vma.stop) (placed : WellPlaced limit vma) :
    CutInto limit vma [vma] where
  ordered := Span.Ordered.cons_iff.mpr ⟨valid, Span.Ordered.nil, forall_mem_nil _⟩
  pieces := forall_mem_singleton.mpr (Span.Piece.refl valid)
  placed := forall_mem_singleton.mpr placed

theorem CutInto.nil : CutInto limit vma [] :=
  ⟨Span.Ordered.nil, forall_mem_nil _, forall_mem_nil _⟩

/-- One more part in front; it ends where the others can start. -/
theorem CutInto.cons {part : UserVma} (rest : CutInto limit vma parts)
    (piece : Span.Piece vma part) (placed : WellPlaced limit part)
    (before : ∀ other ∈ parts, Span.Before part other) : CutInto limit vma (part :: parts) where
  ordered := Span.Ordered.cons_iff.mpr ⟨piece.valid, rest.ordered, before⟩
  pieces := forall_mem_cons.mpr ⟨piece, rest.pieces⟩
  placed := forall_mem_cons.mpr ⟨placed, rest.placed⟩

theorem slice_piece (after : vma.start ≤ start) (nonempty : start < stop)
    (before : stop ≤ vma.stop) : Span.Piece vma (vma.slice start stop) :=
  ⟨after, before, nonempty.le, fun empty => absurd empty nonempty.ne⟩

theorem WellPlaced.slice (placed : WellPlaced limit vma)
    (aligned : pageSize ∣ start) (nonempty : start < stop) (before : stop ≤ vma.stop) :
    WellPlaced limit (vma.slice start stop) := by
  have below : (vma.slice start stop).kind.isHeap = true → stop ≤ limit := by
    intro heap
    exact before.trans (placed.heap_stop_le ((isHeap_adjusted _ _).symm.trans heap))
  constructor
  · exact aligned
  · exact before.trans_lt placed.stop_lt
  · intro empty
    exact absurd empty nonempty.ne
  · intro heap
    exact nonempty.trans_le (below heap)
  · exact below

/-- The part of an area behind a range. -/
def tailPiece (stop : Nat) (vma : UserVma) : List UserVma :=
  if stop < vma.stop then [vma.slice stop vma.stop] else []

theorem tailPiece_cutInto (placed : WellPlaced limit vma)
    (stopAligned : pageSize ∣ stop) (inside : vma.start ≤ stop) :
    CutInto limit vma (tailPiece stop vma) ∧
      ∀ part ∈ tailPiece stop vma, stop ≤ part.start := by
  unfold tailPiece
  split
  · rename_i more
    exact ⟨CutInto.nil.cons (slice_piece inside more le_rfl)
      (placed.slice stopAligned more le_rfl) (forall_mem_nil _),
      forall_mem_singleton.mpr le_rfl⟩
  · exact ⟨.nil, forall_mem_nil _⟩

/-- The part of an area before a range goes in front of parts that start in it. -/
theorem CutInto.front (rest : CutInto limit vma parts)
    (placed : WellPlaced limit vma) (inside : start ≤ vma.stop)
    (behind : ∀ part ∈ parts, start ≤ part.start) :
    CutInto limit vma
      ((if vma.start < start then [vma.slice vma.start start] else []) ++ parts) := by
  split
  · rename_i more
    apply rest.cons (slice_piece le_rfl more inside) (placed.slice placed.aligned more inside)
    intro other member
    exact ⟨more.trans_le (behind other member), behind other member⟩
  · exact rest

/-- Everything outside a range stays, and nothing inside it. -/
theorem remainingPieces_cutInto (arranged : Arranged limit vmas) (member : vma ∈ vmas)
    (stopAligned : pageSize ∣ stop) (range : start ≤ stop) :
    CutInto limit vma (remainingPieces start stop vma) ∧
      ∀ part ∈ remainingPieces start stop vma, part.stop ≤ start ∨ stop ≤ part.start := by
  have placed := arranged.placed vma member
  unfold remainingPieces
  split
  · rename_i outside
    exact ⟨.self (arranged.ordered.valid vma member) placed, forall_mem_singleton.mpr outside.symm⟩
  rename_i inside
  rw [not_or, Nat.not_le, Nat.not_le] at inside
  obtain ⟨cut, behind⟩ := tailPiece_cutInto placed stopAligned inside.1.le
  constructor
  · exact cut.front placed inside.2.le fun part member => range.trans (behind part member)
  refine forall_mem_append.mpr ⟨?_, fun part inBack => .inr (behind part inBack)⟩
  split
  · exact forall_mem_singleton.mpr (.inl le_rfl)
  · exact forall_mem_nil _

section Middle

variable (valid : vma.start ≤ vma.stop) (before : start < vma.stop) (behind : vma.start < stop)
  (range : start < stop) (flags : MapFlags)
include valid before behind range

/-- The part of an area inside a range is not empty, unless the area is. -/
theorem middle_piece :
    Span.Piece vma { vma.slice (max vma.start start) (min vma.stop stop) with flags := flags } := by
  constructor
  · exact le_max_left _ _
  · exact min_le_left _ _
  · exact max_le (le_min valid behind.le) (le_min before.le range.le)
  · intro empty
    change max vma.start start = min vma.stop stop at empty
    change vma.start = vma.stop
    omega

theorem middle_placed (placed : WellPlaced limit vma) (startAligned : pageSize ∣ start) :
    WellPlaced limit
      { vma.slice (max vma.start start) (min vma.stop stop) with flags := flags } := by
  have heap : (vma.kind.adjusted (max vma.start start - vma.start)).isHeap = vma.kind.isHeap :=
    isHeap_adjusted _ _
  constructor
  · rcases max_choice vma.start start with same | same
    · rw [same]
      exact placed.aligned
    · rw [same]
      exact startAligned
  · exact (min_le_left _ _).trans_lt placed.stop_lt
  · intro empty
    change max vma.start start = min vma.stop stop at empty
    exact heap.trans (placed.heap_of_empty (by omega))
  · intro isHeap
    change max vma.start start < limit
    have small := placed.heap_lt (heap.symm.trans isHeap)
    have bound := placed.heap_stop_le (heap.symm.trans isHeap)
    omega
  · intro isHeap
    exact (min_le_left _ _).trans (placed.heap_stop_le (heap.symm.trans isHeap))

end Middle

/-- New flags cut an area at the ends of the range. -/
theorem flagPieces_cutInto (flags : MapFlags) (valid : vma.start ≤ vma.stop)
    (placed : WellPlaced limit vma) (startAligned : pageSize ∣ start)
    (stopAligned : pageSize ∣ stop) (range : start < stop) :
    CutInto limit vma (flagPieces start stop flags vma) := by
  unfold flagPieces
  split
  · exact .self valid placed
  rename_i inside
  rw [not_or, Nat.not_le, Nat.not_le] at inside
  obtain ⟨cut, behind⟩ := tailPiece_cutInto placed stopAligned inside.2.le
  apply CutInto.front _ placed inside.1.le
  · exact forall_mem_cons.mpr
      ⟨le_max_right _ _, fun part later => range.le.trans (behind part later)⟩
  · apply cut.cons (middle_piece valid inside.1 inside.2 range flags)
      (middle_placed valid inside.1 inside.2 range flags placed startAligned)
    · intro other member
      have starts := behind other member
      exact ⟨(max_lt inside.2 range).trans_le starts, (min_le_right _ _).trans starts⟩

variable (arranged : Arranged limit vmas) {value lower base len upper : Nat}

include arranged

/-- Cutting every area and merging what can be merged. -/
theorem Arranged.cutAll {cut : UserVma → List UserVma}
    (cuts : ∀ vma ∈ vmas, CutInto limit vma (cut vma)) : Arranged limit (vmas.flatMap cut) := by
  constructor
  · exact arranged.ordered.flatMap fun vma member =>
      ⟨(cuts vma member).ordered, (cuts vma member).pieces⟩
  · exact forall_mem_flatMap.mpr fun vma member => (cuts vma member).placed

theorem Arranged.updateFlags (flags : MapFlags) (startAligned : pageSize ∣ start)
    (stopAligned : pageSize ∣ stop) (range : start < stop) :
    Arranged limit (updateFlags vmas start stop flags) := by
  apply (arranged.cutAll ?_).merges (coalesce_merges _)
  intro vma member
  exact flagPieces_cutInto flags (arranged.ordered.valid vma member) (arranged.placed vma member)
    startAligned stopAligned range

theorem Arranged.removeRange (stopAligned : pageSize ∣ stop) (range : start ≤ stop) :
    Arranged limit (removeRange vmas start stop) := by
  apply (arranged.cutAll ?_).merges (coalesce_merges _)
  intro vma member
  exact (remainingPieces_cutInto arranged member stopAligned range).1

/-! ## Inserting and resizing -/

/-- A range that no area reaches into, apart from empty areas. -/
def Clear (vmas : List UserVma) (start stop : Nat) : Prop :=
  ∀ vma ∈ vmas, vma.stop ≤ start ∨ stop ≤ vma.start

/-- After the removal of a range nothing is left in it. -/
theorem clear_removeRange (stopAligned : pageSize ∣ stop) (range : start < stop) :
    Clear (removeRange vmas start stop) start stop := by
  refine forall_mem_of_merges (fun lhs rhs fits left right => ?_) (coalesce_merges _)
    (forall_mem_flatMap.mpr fun vma member =>
      (remainingPieces_cutInto arranged member stopAligned range.le).2)
  -- The range is not empty, so the two areas are on the same side of it.
  have touch := (mergeable_iff.mp fits).1
  change rhs.stop ≤ start ∨ stop ≤ lhs.start
  omega

/-- No empty area starts at an address. -/
def NoneEmptyAt (vmas : List UserVma) (address : Nat) : Prop :=
  ∀ vma ∈ vmas, vma.start = address → vma.start ≠ vma.stop

instance (vmas : List UserVma) (address : Nat) : Decidable (NoneEmptyAt vmas address) :=
  inferInstanceAs (Decidable (∀ vma ∈ vmas, _ → _ ≠ _))

/-- Areas that are left of a range are parts of areas that were there, or were made
by a merge and are not empty. -/
theorem noneEmptyAt_removeRange (stopAligned : pageSize ∣ stop) (range : start ≤ stop)
    {address : Nat} (none : NoneEmptyAt vmas address) :
    NoneEmptyAt (removeRange vmas start stop) address := by
  have cuts : ∀ vma ∈ vmas, CutInto limit vma (remainingPieces start stop vma) :=
    fun vma member => (remainingPieces_cutInto arranged member stopAligned range).1
  have step : ∀ before after, MergeStep before after →
      Arranged limit before ∧ NoneEmptyAt before address →
      Arranged limit after ∧ NoneEmptyAt after address := by
    rintro before after merges ⟨ordered, none⟩
    refine ⟨ordered.mergeStep merges, ?_⟩
    obtain ⟨front, lhs, rhs, back, -, rfl, rfl⟩ := merges
    simp only [NoneEmptyAt, forall_mem_append, forall_mem_cons] at none ⊢
    exact ⟨none.1, fun _ => (start_lt_stop_of_ordered ordered.ordered).ne, none.2.2.2⟩
  have cut : NoneEmptyAt (vmas.flatMap (remainingPieces start stop)) address := by
    refine forall_mem_flatMap.mpr fun vma inVmas part inParts starts empty => ?_
    have piece := (cuts vma inVmas).pieces part inParts
    exact none vma inVmas ((piece.lo_eq empty).symm.trans starts) (piece.empty empty)
  exact (kept_of_merges step (coalesce_merges _) ⟨arranged.cutAll cuts, cut⟩).2

/-- A new area that is apart from all others finds its place. -/
theorem Arranged.record (valid : vma.start ≤ vma.stop)
    (placed : WellPlaced limit vma) (apart : ∀ other ∈ vmas, Span.Apart other vma) :
    Arranged limit (record vmas vma) := by
  have absent : ∀ other ∈ vmas, other.start ≠ vma.start := by
    intro other member
    rcases apart other member with before | behind
    · exact before.1.ne
    · exact behind.1.ne'
  have sorted : vmas.Pairwise fun a b => a.start ≤ b.start := arranged.ordered.sorted
  obtain ⟨front, back, rfl, inserted, smaller, larger⟩ := insertIdx_placeOf sorted absent vma
  apply Arranged.merges _ (mergeNeighborsAround_merges _ _)
  rw [inserted]
  constructor
  · apply arranged.ordered.insert valid
    · intro other member
      exact (apart other (mem_append_left _ member)).resolve_right
        fun behind => absurd behind.1 (Nat.lt_asymm (smaller other member))
    · intro other member
      exact (apart other (mem_append_right _ member)).resolve_left
        fun before => absurd before.1 (Nat.lt_asymm (larger other member))
  · obtain ⟨inFront, inBack⟩ := forall_mem_append.mp arranged.placed
    exact forall_mem_append.mpr ⟨inFront, forall_mem_cons.mpr ⟨placed, inBack⟩⟩

/-- The first area of the heap may end at `stop`: it does not start later, and no
area behind it starts earlier. -/
def HeapFits : List UserVma → Nat → Prop
  | [], _ => True
  | vma :: rest, stop =>
    if vma.kind.isHeap then vma.start ≤ stop ∧ ∀ other ∈ rest, stop ≤ other.start
    else HeapFits rest stop

instance decidableHeapFits : ∀ (vmas : List UserVma) (stop : Nat), Decidable (HeapFits vmas stop)
  | [], _ => isTrue trivial
  | vma :: rest, stop =>
    have := decidableHeapFits rest stop
    inferInstanceAs (Decidable (if vma.kind.isHeap then _ ∧ ∀ other ∈ rest, _ ≤ _ else _))

omit arranged

theorem updateHeapEnd_cases (vmas : List UserVma) (stop : Nat) :
    updateHeapEnd vmas stop = vmas ∨ ∃ front vma back, vmas = front ++ vma :: back ∧
      vma.kind.isHeap = true ∧
      updateHeapEnd vmas stop = front ++ { vma with stop := stop } :: back ∧
      (HeapFits vmas stop → vma.start ≤ stop ∧ ∀ other ∈ back, stop ≤ other.start) := by
  induction vmas with
  | nil => exact .inl rfl
  | cons vma rest ih =>
    rw [updateHeapEnd, HeapFits]
    split
    · rename_i heap
      exact .inr ⟨[], vma, rest, rfl, heap, rfl, id⟩
    · rcases ih with same | ⟨front, found, back, rfl, heap, run, fits⟩
      · exact .inl (congrArg _ same)
      · refine .inr ⟨vma :: front, found, back, rfl, heap, ?_, fits⟩
        rw [run]
        rfl

theorem Arranged.updateHeapEnd (arranged : Arranged limit vmas)
    (fits : HeapFits vmas stop) (bound : stop ≤ limit) (word : stop < Word.size) :
    Arranged limit (updateHeapEnd vmas stop) := by
  rcases updateHeapEnd_cases vmas stop with same | ⟨front, vma, back, rfl, heap, run, room⟩
  · rw [same]
    exact arranged
  obtain ⟨starts, behind⟩ := room fits
  obtain ⟨ordered, placed⟩ := arranged
  simp only [forall_mem_append, forall_mem_cons] at placed
  obtain ⟨inFront, here, inBack⟩ := placed
  rw [run]
  refine ⟨ordered.resize rfl starts behind,
    forall_mem_append.mpr ⟨inFront, forall_mem_cons.mpr ⟨?_, inBack⟩⟩⟩
  exact ⟨here.aligned, word, fun _ => heap, here.heap_lt, fun _ => bound⟩

/-- An area over a range that is clear is apart from all others, unless an empty
one starts with it. -/
theorem apart_of_clear (arranged : Arranged limit vmas)
    (nonempty : vma.start < vma.stop) (clear : Clear vmas vma.start vma.stop)
    (none : NoneEmptyAt vmas vma.start) : ∀ other ∈ vmas, Span.Apart other vma := by
  intro other member
  have valid : other.start ≤ other.stop := arranged.ordered.valid other member
  rcases clear other member with before | behind
  · have starts : other.start ≠ vma.start := by
      intro same
      exact none other member same (by omega)
    refine .inl ⟨?_, before⟩
    change other.start < vma.start
    omega
  · exact .inr ⟨nonempty.trans_le behind, behind⟩

/-! ## What the areas say of an address -/

/-- What an area says of an address, as an area of one byte. -/
def shows (address : Nat) (vma : UserVma) : List UserVma :=
  if vma.start ≤ address ∧ address < vma.stop then [vma.slice address (address + 1)] else []

/-- What the areas say of an address. -/
def shown (vmas : List UserVma) (address : Nat) : List UserVma :=
  vmas.flatMap (shows address)

section Parts

variable {address : Nat} (inside : vma.start ≤ start) (ends : stop ≤ vma.stop)
include inside ends

theorem shows_slice : shows address (vma.slice start stop) =
    if start ≤ address ∧ address < stop then shows address vma else [] := by
  change (if start ≤ address ∧ address < stop then _ else _) = _
  split
  · have kinds : (vma.kind.adjusted (start - vma.start)).adjusted (address - start) =
        vma.kind.adjusted (address - vma.start) := by
      cases vma.kind <;> simp only [UserVmaKind.adjusted, saturatingAdd]
      congr 1 <;> omega
    rw [shows, if_pos (by omega)]
    simp only [UserVma.slice, kinds]
  · rfl

/-- A part that may be empty. -/
theorem shows_part : (if start < stop then [vma.slice start stop] else []).flatMap (shows address) =
    if start ≤ address ∧ address < stop then shows address vma else [] := by
  split
  · rw [flatMap_singleton, shows_slice inside ends]
  · rw [if_neg (by omega), flatMap_nil]

omit inside ends

theorem shown_remainingPieces (range : start < stop) :
    shown (remainingPieces start stop vma) address =
      if start ≤ address ∧ address < stop then [] else shows address vma := by
  unfold remainingPieces
  split
  · rw [shown, flatMap_singleton, shows]
    split_ifs <;> first | omega | rfl
  · rw [shown, flatMap_append, shows_part le_rfl (by omega), shows_part (by omega) le_rfl, shows]
    split_ifs <;> first | omega | simp

theorem shown_flagPieces (range : start < stop) (flags : MapFlags) :
    shown (flagPieces start stop flags vma) address = (shows address vma).map
      (if start ≤ address ∧ address < stop then ({ · with flags := flags }) else id) := by
  have changed (part : UserVma) : shows address { part with flags := flags } =
      (shows address part).map ({ · with flags := flags }) := by
    unfold shows
    split <;> rfl
  unfold flagPieces
  split
  · rw [shown, flatMap_singleton, shows]
    split_ifs <;> first | omega | rfl
  · rw [shown, flatMap_append, flatMap_cons, changed,
      shows_slice (le_max_left _ _) (min_le_left _ _), shows_part le_rfl (by omega),
      shows_part (by omega) le_rfl, shows]
    split_ifs <;> first | omega | simp

theorem shows_merged {lhs rhs : UserVma} (fits : lhs.mergeable rhs) (left : lhs.start ≤ lhs.stop)
    (right : rhs.start ≤ rhs.stop) :
    shows address (lhs.merged rhs) = shows address lhs ++ shows address rhs := by
  obtain ⟨touch, flags, lazy, joined⟩ := mergeable_iff.mp fits
  -- Areas of images are not merged, and other kinds are the same at every address.
  have kinds (one two : Nat) : lhs.kind.adjusted one = rhs.kind.adjusted two := by
    revert joined
    cases lhs.kind <;> cases rhs.kind <;> simp [UserVmaKind.canMergeWith, UserVmaKind.adjusted]
  unfold shows UserVma.slice UserVma.merged
  rw [flags, lazy, kinds _ (address - rhs.start)]
  dsimp only
  split_ifs <;> first | omega | simp

/-- Merging changes nothing of what is said. -/
theorem shown_merges (valid : ∀ vma ∈ vmas, vma.start ≤ vma.stop)
    (merges : ReflTransGen MergeStep vmas after) : shown after address = shown vmas address := by
  refine (kept_of_merges (P := fun now => (∀ vma ∈ now, vma.start ≤ vma.stop) ∧
    shown now address = shown vmas address) ?_ merges ⟨valid, rfl⟩).2
  rintro _ _ ⟨front, lhs, rhs, back, fits, rfl, rfl⟩ ⟨valid, same⟩
  simp only [forall_mem_append, forall_mem_cons] at valid ⊢
  obtain ⟨inFront, left, right, inBack⟩ := valid
  refine ⟨⟨inFront, left.trans ((mergeable_iff.mp fits).1.le.trans right), inBack⟩, ?_⟩
  rw [← same]
  simp [shown, Mergeable.join, shows_merged fits left right]

theorem Arranged.shown_cutAll {cut : UserVma → List UserVma} (arranged : Arranged limit vmas)
    (cuts : ∀ vma ∈ vmas, CutInto limit vma (cut vma)) :
    shown (coalesce (vmas.flatMap cut)) address = vmas.flatMap fun vma =>
      shown (cut vma) address := by
  rw [shown_merges (arranged.cutAll cuts).ordered.valid (coalesce_merges _), shown, flatMap_assoc]
  rfl

end Parts

/-- Unmapping takes away what is said of the addresses of the range, protecting
changes its flags, and mapping adds what the new area says; nothing else changes. -/
theorem area_calls_act_pointwise {new : UserVma} (arranged : Arranged limit vmas)
    (startAligned : pageSize ∣ start) (stopAligned : pageSize ∣ stop) (range : start < stop)
    (flags : MapFlags) (valid : new.start ≤ new.stop) (address : Nat) :
    shown (removeRange vmas start stop) address =
        (if start ≤ address ∧ address < stop then [] else shown vmas address) ∧
      shown (updateFlags vmas start stop flags) address = (shown vmas address).map
        (if start ≤ address ∧ address < stop then ({ · with flags := flags }) else id) ∧
      (shown (record vmas new) address).Perm (shows address new ++ shown vmas address) := by
  refine ⟨?_, ?_, ?_⟩
  · rw [removeRange, arranged.shown_cutAll fun vma member =>
      (remainingPieces_cutInto arranged member stopAligned range.le).1]
    simp only [shown_remainingPieces range]
    split
    · simp
    · rfl
  · rw [updateFlags, arranged.shown_cutAll fun vma member => flagPieces_cutInto flags
      (arranged.ordered.valid vma member) (arranged.placed vma member) startAligned stopAligned
      range, shown, map_flatMap]
    simp only [shown_flagPieces range]
  · have inserted : (vmas.insertIdx (placeOf (binarySearchByKey new.start UserVma.start vmas))
        new).Perm (new :: vmas) := by
      apply perm_insertIdx
      cases run : binarySearchByKey new.start UserVma.start vmas with
      | ok index =>
        obtain ⟨_, found, -⟩ := binarySearchByKey_found run
        exact (List.getElem?_eq_some_iff.mp found).1.le
      | error index => exact (binarySearchByKey_error arranged.ordered.sorted run).1
    refine .trans (.of_eq (shown_merges (fun vma member => ?_) (mergeNeighborsAround_merges _ _)))
      (inserted.flatMap_right _)
    have all : ∀ vma ∈ new :: vmas, vma.start ≤ vma.stop :=
      forall_mem_cons.mpr ⟨valid, arranged.ordered.valid⟩
    exact all vma (inserted.mem_iff.mp member)

def threePages : UserVma :=
  ⟨0, 0x3000, .read, .anonymous, true⟩

theorem area_calls_act_pointwise_within :
    shown (removeRange [threePages] 0x1000 0x2000) 0x1fff = [] := by
  have cut : CutInto 0 threePages [threePages] := .self (by decide)
    ⟨by decide, by decide, by decide, by decide, by decide⟩
  exact (area_calls_act_pointwise ⟨cut.ordered, cut.placed⟩ (by decide) (by decide) (by decide)
    .read (show threePages.start ≤ threePages.stop by decide) 0x1fff).1

/-! ## The search for a gap -/

theorem pageSize_dvd_alignUp (value : Nat) : pageSize ∣ alignUp value pageSize := by
  rw [alignUp_pageSize]
  exact Nat.dvd_mul_left _ _

theorem alignUp_lt (value : Nat) : alignUp value pageSize < Word.size := by
  rw [alignUp_pageSize]
  exact (Nat.div_mul_le_self _ _).trans_lt (Nat.mod_lt _ (by decide))

theorem alignDown_of_dvd (word : value < Word.size) (aligned : pageSize ∣ value) :
    alignDown value pageSize = value := by
  rw [alignDown_pageSize word, Nat.div_mul_cancel aligned]

theorem alignUp_of_dvd (word : value < Word.size) (aligned : pageSize ∣ value) :
    alignUp value pageSize = value := by
  rw [alignUp_pageSize]
  simp only [pageSize_eq, pageShift, Word.size] at *
  omega

/-- The area starts below the upper bound and ends above the lower one. -/
def Within (lower upper : Nat) (vma : UserVma) : Prop :=
  vma.start < upper ∧ lower < vma.stop

/-- The range of the length at the lower bound is below all areas between the bounds. -/
def RoomBelow (vmas : List UserVma) (lower upper len : Nat) : Prop :=
  ∀ vma ∈ vmas, Within lower upper vma → lower + len ≤ vma.start

/-- What a place found below the end of a gap is, and when there is one. -/
structure Found (lower upper len gapEnd : Nat) (vmas : List UserVma) (result : Option Nat) :
    Prop where
  sound : ∀ base ∈ result, lower ≤ base ∧ base + len ≤ gapEnd ∧ pageSize ∣ base ∧
    ∀ vma ∈ vmas, Within lower upper vma → base + len ≤ vma.start
  complete : 0 < len → lower + len ≤ gapEnd → RoomBelow vmas lower upper len → result.isSome

section Below

variable {gapEnd : Nat} (word : gapEnd < Word.size) (endAligned : pageSize ∣ gapEnd)
  (lenAligned : pageSize ∣ len)
include word endAligned lenAligned

theorem placeBelow_eq : placeBelow lower gapEnd len =
      if lower + len ≤ gapEnd then some (gapEnd - len) else none := by
  unfold placeBelow checkedSub
  split
  · have same := alignDown_of_dvd (by omega) (Nat.dvd_sub endAligned lenAligned)
    split
    · rw [Option.map_some, same, Option.filter_some, if_pos (by simp; omega)]
    · rw [Option.map_some, same, Option.filter_some, if_neg (by simp; omega)]
  · rw [if_neg (by omega)]
    rfl

/-- A place that ends before an area would end before the gap does. -/
theorem filter_placeBelow (starts : start < gapEnd) :
    (placeBelow lower gapEnd len).filter
      (fun candidate => saturatingAdd candidate len ≤ start) = none := by
  rw [placeBelow_eq word endAligned lenAligned]
  split
  · have ends : saturatingAdd (gapEnd - len) len = gapEnd := by
      rw [saturatingAdd, Nat.sub_add_cancel (by omega)]
      exact min_eq_left (Nat.le_pred_of_lt word)
    rw [Option.filter_some, ends, if_neg (by simpa using starts)]
  · rfl

theorem found_placeBelow (absent : ∀ vma ∈ vmas, ¬Within lower upper vma) :
    Found lower upper len gapEnd vmas (placeBelow lower gapEnd len) := by
  rw [placeBelow_eq word endAligned lenAligned]
  split
  · refine ⟨?_, fun _ _ _ => rfl⟩
    rintro _ ⟨⟩
    exact ⟨by omega, by omega, Nat.dvd_sub endAligned lenAligned,
      fun vma member within => absurd within (absent vma member)⟩
  · rename_i short
    exact ⟨nofun, fun _ fits => absurd fits short⟩

end Below

/-- The loop looks at areas from the last to the first.  Areas that were looked at
start at or behind the end of the gap, the others before it; so a place is only
taken below all areas that matter. -/
theorem found_gapLoop (lenAligned : pageSize ∣ len) (vmas : List UserVma)
    (gapEnd : Nat) (descending : vmas.Pairwise fun a b => Span.Before b a)
    (valid : ∀ vma ∈ vmas, vma.start ≤ vma.stop) (aligned : ∀ vma ∈ vmas, pageSize ∣ vma.start)
    (word : gapEnd < Word.size) (endAligned : pageSize ∣ gapEnd)
    (ahead : ∀ vma ∈ vmas, vma.start < gapEnd ∨ upper ≤ vma.start) :
    Found lower upper len gapEnd vmas (gapLoop lower upper len gapEnd vmas) := by
  induction vmas generalizing gapEnd with
  | nil => exact found_placeBelow word endAligned lenAligned (forall_mem_nil _)
  | cons vma rest ih =>
    obtain ⟨first, others⟩ := pairwise_cons.mp descending
    obtain ⟨ends, validRest⟩ := forall_mem_cons.mp valid
    obtain ⟨here, alignedRest⟩ := forall_mem_cons.mp aligned
    obtain ⟨near, aheadRest⟩ := forall_mem_cons.mp ahead
    unfold gapLoop
    split
    · rename_i outside
      obtain ⟨sound, complete⟩ := ih gapEnd others validRest alignedRest word endAligned aheadRest
      refine ⟨fun base found => ?_, fun positive fits room =>
        complete positive fits (forall_mem_cons.mp room).2⟩
      obtain ⟨bound, room, dvd, clear⟩ := sound base found
      exact ⟨bound, room, dvd, forall_mem_cons.mpr
        ⟨fun within => absurd within.1 outside.not_gt, clear⟩⟩
    rename_i inside
    split
    · -- This area and all before it end below the bound.
      rename_i low
      refine found_placeBelow word endAligned lenAligned (forall_mem_cons.mpr
        ⟨fun within => low.not_gt within.2, fun other member within => ?_⟩)
      have before : other.stop ≤ vma.start := (first other member).2
      exact absurd within.2 (by omega)
    rename_i high
    have starts : vma.start < gapEnd := near.resolve_right inside
    have word' : vma.start < Word.size := starts.trans word
    rw [filter_placeBelow word endAligned lenAligned starts, alignDown_of_dvd word' here]
    obtain ⟨sound, complete⟩ := ih vma.start others validRest alignedRest word' here
      fun other member => .inl (first other member).1
    dsimp only
    split
    · refine ⟨nofun, fun positive _ room => ?_⟩
      have reaches := room vma mem_cons_self ⟨not_le.mp inside, not_le.mp high⟩
      omega
    · refine ⟨fun base found => ?_, fun positive fits room => ?_⟩
      · obtain ⟨bound, room, dvd, clear⟩ := sound base found
        exact ⟨bound, room.trans starts.le, dvd, forall_mem_cons.mpr ⟨fun _ => room, clear⟩⟩
      · exact complete positive (room vma mem_cons_self ⟨not_le.mp inside, not_le.mp high⟩)
          (forall_mem_cons.mp room).2

/-- The search finds the range below all areas between the bounds. -/
theorem found_findTopDownGap (len lower : Nat) (ordered : Span.Ordered vmas)
    (aligned : ∀ vma ∈ vmas, pageSize ∣ vma.start) (word : upper < Word.size)
    (upperAligned : pageSize ∣ upper) :
    Found lower upper (alignUp len pageSize) upper vmas (findTopDownGap vmas lower upper len) := by
  unfold findTopDownGap
  dsimp only
  split
  · exact ⟨nofun, fun _ _ _ => by omega⟩
  obtain ⟨sound, complete⟩ := found_gapLoop (pageSize_dvd_alignUp len) vmas.reverse upper
    (pairwise_reverse.mpr ordered.pairwise)
    (fun vma member => ordered.valid vma (mem_reverse.mp member))
    (fun vma member => aligned vma (mem_reverse.mp member)) word upperAligned
    (fun vma _ => Nat.lt_or_ge _ _)
  simp only [RoomBelow, mem_reverse] at sound complete
  exact ⟨sound, complete⟩

/-- A gap that is found is clear, and lies between the bounds. -/
theorem findTopDownGap_clear (arranged : Arranged limit vmas)
    (word : upper < Word.size) (upperAligned : pageSize ∣ upper)
    (run : findTopDownGap vmas lower upper len = some base) :
    lower ≤ base ∧ base + alignUp len pageSize ≤ upper ∧ pageSize ∣ base ∧
      Clear vmas base (base + alignUp len pageSize) := by
  obtain ⟨bound, room, dvd, clear⟩ := (found_findTopDownGap len lower arranged.ordered
    (fun vma member => (arranged.placed vma member).aligned) word upperAligned).sound base run
  refine ⟨bound, room, dvd, fun vma member => ?_⟩
  by_cases within : Within lower upper vma
  · exact .inr (clear vma member within)
  · unfold Within at within
    omega

end Vmas

end AetherKernel.Process
