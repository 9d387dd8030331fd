import AetherKernel.Errno
import Mathlib.Logic.Function.Basic

/-!
# The descriptor table

Descriptors are given out from the lowest number that is free.  The search
raises the number it tries with saturating arithmetic, so it does not end when
everything up to the largest number is in use.
-/

namespace AetherKernel.Fd

open Function

/-- A descriptor number. -/
abbrev FdNumber :=
  BitVec 32

structure FileDescriptor (File : Type) where
  file : File
  cloexec : Bool

/-- The entries of `FdTable`. -/
abbrev FdTable (File : Type) :=
  FdNumber → Option (FileDescriptor File)

namespace FdTable

variable {File : Type} (table : FdTable File)

/-- `saturating_add(1)`. -/
def nextNumber (fd : FdNumber) : FdNumber :=
  if fd = -1 then fd else fd + 1

/-- The loop of `insert`, for a number of turns. -/
def search : Nat → FdNumber → Option FdNumber
  | 0, _ => none
  | turns + 1, fd => if (table fd).isSome then search turns (nextNumber fd) else some fd

def insert (turns : Nat) (descriptor : FileDescriptor File) (minFd : FdNumber) :
    Option (FdNumber × FdTable File) :=
  (table.search turns minFd).map fun fd => (fd, update table fd (some descriptor))

/-- The calls that take a new descriptor: `open`, `socket` and `accept` go
through `insert_node`, `dup` and `fcntl` through `duplicate`. -/
inductive Insertion (File : Type) where
  | insertNode (file : File) (cloexec : Bool)
  | duplicate (fd minFd : FdNumber) (cloexec : Bool)

/-- What the call inserts and from which number on, unless it duplicates a
descriptor that is not open. -/
def request : Insertion File → Option (FileDescriptor File × FdNumber)
  | .insertNode file cloexec => some (⟨file, cloexec⟩, 0)
  | .duplicate fd minFd cloexec =>
    (table fd).map fun descriptor => ({ descriptor with cloexec }, minFd)

def perform (turns : Nat) (call : Insertion File) :
    Option (Except SysErr FdNumber × FdTable File) :=
  match table.request call with
  | none => some (.error .badFd, table)
  | some (descriptor, minFd) => (table.insert turns descriptor minFd).map (·.map .ok id)

/-- The descriptor went to the lowest free number from `minFd` on, and the
other entries stayed. -/
def Takes (descriptor : FileDescriptor File) (minFd fd : FdNumber) (after : FdTable File) : Prop :=
  minFd ≤ fd ∧ table fd = none ∧ (∀ lower, minFd ≤ lower → lower < fd → table lower ≠ none) ∧
    after = update table fd (some descriptor)

/-- The call returns: it has taken the lowest free number, or it has failed and
left the table. -/
def Serves (call : Insertion File) : Prop :=
  ∃ turns outcome after, table.perform turns call = some (outcome, after) ∧
    ((∃ error, outcome = .error error) ∧ after = table ∨
      ∃ fd descriptor minFd, outcome = .ok fd ∧ table.request call = some (descriptor, minFd) ∧
        table.Takes descriptor minFd fd after)

variable {table}

/-- What the search finds is free, and nothing before it is. -/
theorem search_eq_some {turns : Nat} {minFd fd : FdNumber}
    (found : table.search turns minFd = some fd) : minFd ≤ fd ∧ table fd = none ∧
      ∀ lower, minFd ≤ lower → lower < fd → table lower ≠ none := by
  induction turns generalizing minFd with
  | zero => nomatch found
  | succ turns ih =>
    rw [search] at found
    split at found
    · rename_i used
      obtain ⟨above, free, before⟩ := ih found
      have above' : minFd ≤ fd := by
        unfold nextNumber at above
        split at above <;> bv_omega
      refine ⟨above', free, fun lower least less => ?_⟩
      have step : lower = minFd ∨ nextNumber minFd ≤ lower := by
        unfold nextNumber
        split <;> bv_omega
      rcases step with rfl | later
      · exact Option.isSome_iff_ne_none.mp used
      · exact before lower later less
    · rename_i free
      cases found
      exact ⟨BitVec.le_refl _, Option.not_isSome_iff_eq_none.mp free, fun lower least less =>
        absurd least (BitVec.not_le.mpr less)⟩

/-- The search comes to any free number, unless it has stopped before. -/
theorem exists_search {minFd fd : FdNumber} (above : minFd ≤ fd) (free : table fd = none) :
    ∃ turns first, table.search turns minFd = some first := by
  induction distance : fd.toNat - minFd.toNat generalizing minFd with
  | zero =>
    obtain rfl : minFd = fd := by bv_omega
    exact ⟨1, minFd, by simp [search, free]⟩
  | succ distance ih =>
    by_cases used : (table minFd).isSome
    · have next : nextNumber minFd = minFd + 1 := if_neg (by bv_omega)
      obtain ⟨turns, first, found⟩ := @ih (minFd + 1) (by bv_omega) (by bv_omega)
      exact ⟨turns + 1, first, by rw [search, if_pos used, next, found]⟩
    · exact ⟨1, minFd, by rw [search, if_neg used]⟩

/-- A call that inserts returns only where a number is free. -/
theorem free_of_perform {turns : Nat} {call : Insertion File} {descriptor : FileDescriptor File}
    {minFd : FdNumber} {answer : Except SysErr FdNumber × FdTable File}
    (asked : table.request call = some (descriptor, minFd))
    (returned : table.perform turns call = some answer) : ∃ fd, minFd ≤ fd ∧ table fd = none := by
  rw [perform, asked] at returned
  obtain ⟨_, inserted, -⟩ := Option.map_eq_some_iff.mp returned
  obtain ⟨fd, found, -⟩ := Option.map_eq_some_iff.mp inserted
  obtain ⟨above, free, -⟩ := search_eq_some found
  exact ⟨fd, above, free⟩

/-- A call is served when a number is free for what it inserts; otherwise it
does not return. -/
theorem serves_iff_room (table : FdTable File) (call : Insertion File) :
    table.Serves call ↔ ∀ descriptor minFd, table.request call = some (descriptor, minFd) →
      ∃ fd, minFd ≤ fd ∧ table fd = none := by
  cases asked : table.request call with
  | none =>
    refine iff_of_true ⟨0, _, _, ?_, .inl ⟨⟨.badFd, rfl⟩, rfl⟩⟩ nofun
    rw [perform, asked]
  | some wanted =>
    obtain ⟨descriptor, minFd⟩ := wanted
    constructor
    · rintro ⟨turns, outcome, after, returned, -⟩ _ _ ⟨⟩
      exact free_of_perform asked returned
    intro room
    obtain ⟨fd, above, free⟩ := room descriptor minFd rfl
    obtain ⟨turns, first, found⟩ := exists_search above free
    obtain ⟨above, free, before⟩ := search_eq_some found
    refine ⟨turns, .ok first, _, ?_,
      .inr ⟨first, descriptor, minFd, rfl, asked, above, free, before,
      rfl⟩⟩
    rw [perform, asked]
    simp [insert, found]

/-- With the largest number in use, a duplicate from there on is never made. -/
theorem largest_descriptor_is_in_use : ∃ table : FdTable Unit,
    table 0 ≠ none ∧ table (-1) ≠ none ∧ table 1 = none ∧
      ¬table.Serves (.duplicate 0 (-1) false) := by
  refine ⟨fun fd => if fd = 0 ∨ fd = -1 then some ⟨(), false⟩ else none, by decide, by decide,
    by decide, ?_⟩
  rintro ⟨turns, outcome, after, returned, -⟩
  obtain ⟨fd, above, free⟩ := free_of_perform rfl returned
  obtain rfl : fd = -1 := by bv_omega
  exact absurd free (by decide)

end FdTable

end AetherKernel.Fd
