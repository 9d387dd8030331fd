import AetherKernel.Mm.Buddy.Runs

/-!
# The reference-counted region map

What the allocator is for, without its lists: a map from start frames to live
regions, each with an order and a reference count.  Allocating adds a region
with count one where no live region is in the way, retaining and freeing move
a count up and down by one, a count that reaches zero removes its region, and a
refused call changes nothing.

The lifetime of a region is read off a trace of calls and results: it lasts
until the successful frees of its address outnumber the successful retains.
-/

namespace AetherKernel.Mm.Buddy

open Lib List Function

/-- Live regions by their start frame, each with its order and count. -/
abbrev RegionMap :=
  Nat → Option (Nat × Nat)

/-- A call together with its result. -/
abbrev Event :=
  Operation × Except FrameAllocError Nat

namespace RegionMap

/-- A region with one reference less; the last reference takes it away. -/
def dropRef (order count : Nat) : Option (Nat × Nat) :=
  if count ≤ 1 then none else some (order, count - 1)

/-- The calls of the allocator as they act on the region map. -/
inductive Step (ranges : RangeList) (regions : RegionMap) : Event → RegionMap → Prop
  | alloc {cpuId count start : Nat} (aligned : 2 ^ ceilLog2 count ∣ start)
      (usable : ∃ range ∈ ranges,
        range.1 ≤ start ∧ start + 2 ^ ceilLog2 count ≤ range.1 + range.2)
      (free : ∀ other order n, regions other = some (order, n) →
        Disjoint (frames other order) (frames start (ceilLog2 count))) :
      Step ranges regions (.allocFrame4kOnCpu cpuId count, .ok (start <<< pageShift))
        (Function.update regions start (some (ceilLog2 count, 1)))
  | retain {start order n : Nat} (live : regions start = some (order, n)) :
      Step ranges regions (.retainFrame (start <<< pageShift), .ok (n + 1))
        (Function.update regions start (some (order, n + 1)))
  | free {cpuId start order n : Nat} (live : regions start = some (order, n)) :
      Step ranges regions (.freeFrameOnCpu cpuId (start <<< pageShift), .ok 0)
        (Function.update regions start (dropRef order n))
  | release {cpuId start order n count : Nat} (live : regions start = some (order, n))
      (fitting : count ≠ 0 ∧ ceilLog2 count = order) :
      Step ranges regions (.release cpuId ⟨start <<< pageShift⟩ count, .ok (n - 1))
        (Function.update regions start (dropRef order n))
  | refuse {operation : Operation} {error : FrameAllocError} :
      Step ranges regions (operation, .error error) regions

/-- A sequence of calls. -/
inductive Trace (ranges : RangeList) : RegionMap → List Event → RegionMap → Prop
  | nil {regions : RegionMap} : Trace ranges regions [] regions
  | cons {regions middle final : RegionMap} {event : Event} {events : List Event}
      (step : Step ranges regions event middle) (rest : Trace ranges middle events final) :
      Trace ranges regions (event :: events) final

end RegionMap

/-! ## Counting references -/

/-- The event is a successful retain of the address. -/
def retains (address : Nat) : Event → Bool
  | (.retainFrame block, .ok _) => block = address
  | _ => false

/-- The event is a successful free of the address, by either entry point. -/
def frees (address : Nat) : Event → Bool
  | (.freeFrameOnCpu _ block, .ok _) => block = address
  | (.release _ frame _, .ok _) => frame.startAddress = address
  | _ => false

/-- Successful retains of the address in a trace. -/
def retainCount (address : Nat) (events : List Event) : Nat :=
  events.countP (retains address)

/-- Successful frees of the address in a trace. -/
def freeCount (address : Nat) (events : List Event) : Nat :=
  events.countP (frees address)

/-- Before the last event of the trace the frees have not caught up with `n`
references and the retains. -/
def Outlives (address n : Nat) (events : List Event) : Prop :=
  ∀ pre post, events = pre ++ post → post ≠ [] → freeCount address pre < n + retainCount address pre

variable {event : Event} {address : Nat}

theorem retains_eq_false_of_frees
    (freed : frees address event = true) : retains address event = false := by
  obtain ⟨operation, outcome⟩ := event
  cases operation <;> cases outcome <;> simp_all [frees, retains]

theorem freeCount_cons (address : Nat) (event : Event) (events : List Event) :
    freeCount address (event :: events) = freeCount address [event] + freeCount address events := by
  rw [freeCount, ← singleton_append, countP_append]
  rfl

theorem retainCount_cons (address : Nat) (event : Event) (events : List Event) :
    retainCount address (event :: events) =
      retainCount address [event] + retainCount address events := by
  rw [retainCount, ← singleton_append, countP_append]
  rfl

theorem Outlives.tail {n m : Nat} {events : List Event}
    (outlives : Outlives address n (event :: events))
    (balance : n + retainCount address [event] = m + freeCount address [event]) :
    Outlives address m events := by
  intro pre post split nonempty
  have longer := outlives (event :: pre) post (by rw [split, cons_append]) nonempty
  rw [freeCount_cons, retainCount_cons] at longer
  omega

theorem shiftLeft_pageShift_inj {x y : Nat}
    (equal : x <<< pageShift = y <<< pageShift) : x = y := by
  simp only [pageShift] at equal
  omega

namespace RegionMap

variable {ranges : RangeList} {regions final : RegionMap} {order n start : Nat}

/-- No two regions overlap. -/
def Apart (regions : RegionMap) : Prop :=
  ∀ {start order n other order' n'}, regions start = some (order, n) →
    regions other = some (order', n') → start ≠ other →
    Disjoint (frames start order) (frames other order')

theorem dropRef_order {order' n' : Nat} (left : dropRef order n = some (order', n')) :
    order' = order := by
  unfold dropRef at left
  split at left
  · cases left
  · cases left
    rfl

/-- Changing the count of a region or removing it keeps regions apart. -/
theorem Apart.update {changed : Option (Nat × Nat)} (apart : Apart regions)
    (live : regions start = some (order, n))
    (sameOrder : ∀ order' n', changed = some (order', n') → order' = order) :
    Apart (Function.update regions start changed) := by
  have origin : ∀ {s o m}, Function.update regions start changed s = some (o, m) →
      ∃ m', regions s = some (o, m') := by
    intro s o m found
    by_cases same : s = start
    · subst same
      rw [update_self] at found
      exact ⟨n, by rw [live, sameOrder o m found]⟩
    · rw [update_of_ne same] at found
      exact ⟨m, found⟩
  intro s o m t p q first second differ
  obtain ⟨_, first'⟩ := origin first
  obtain ⟨_, second'⟩ := origin second
  exact apart first' second' differ

variable (step : Step ranges regions event final)

include step

theorem Step.apart (apart : Apart regions) : Apart final := by
  cases step with
  | @alloc cpuId count start aligned usable free =>
    intro s o m t p q first second differ
    rw [update_apply] at first second
    split at first <;> split at second <;> rename_i here there
    · exact absurd (here.trans there.symm) differ
    · cases first
      exact here ▸ (free t p q second).symm
    · cases second
      exact there ▸ free s o m first
    · exact apart first second differ
  | retain live =>
    apply apart.update live
    rintro order' n' equal
    cases equal
    rfl
  | free live | release live => exact apart.update live fun _ _ => dropRef_order
  | refuse => exact apart

/-- A successful free of a live region takes one reference from it and leaves
the others alone. -/
theorem Step.freed (live : regions start = some (order, n))
    (freed : frees (start <<< pageShift) event = true) :
    final = Function.update regions start (dropRef order n) := by
  cases step with
  | alloc | retain => simp [frees] at freed
  | refuse =>
    rename_i operation error
    cases operation <;> simp [frees] at freed
  | free live' | release live' _ =>
    have same := shiftLeft_pageShift_inj (of_decide_eq_true freed)
    subst same
    rw [live] at live'
    cases live'
    rfl

/-- A live region that is not freed stays, with one reference more if it was
retained. -/
theorem Step.kept (live : regions start = some (order, n))
    (kept : frees (start <<< pageShift) event = false) :
    final start =
      some (order, n + if retains (start <<< pageShift) event = true then 1 else 0) := by
  -- Calls on another address do not touch the region.
  have elsewhere : ∀ {other : Nat}, start ≠ other →
      ¬other <<< pageShift = start <<< pageShift := fun differ equal =>
    differ (shiftLeft_pageShift_inj equal).symm
  cases step with
  | @alloc cpuId count other aligned usable free =>
    have differ : start ≠ other := by
      rintro rfl
      exact Finset.disjoint_left.mp (free start order n live) (start_mem_frames _ _)
        (start_mem_frames _ _)
    simp [retains, differ, live]
  | @retain other order' n' live' =>
    by_cases same : start = other
    · subst same
      rw [live] at live'
      cases live'
      simp [retains]
    · simp [retains, elsewhere same, same, live]
  | @free _ other | @release _ other =>
    have differ : start ≠ other := by
      rintro rfl
      simp [frees, PhysFrame.startAddress] at kept
    simp [retains, differ, live]
  | refuse =>
    rename_i operation error
    cases operation <;> simp [retains, live]

omit step

/-- A region with `n` references lives until the frees outnumber the retains by
`n`, and its count says by how many they do not.  When it is gone, nothing has
taken its place yet. -/
theorem Trace.count {events : List Event}
    (trace : Trace ranges regions events final) (apart : Apart regions)
    (live : regions start = some (order, n)) (positive : 0 < n)
    (outlives : Outlives (start <<< pageShift) n events) :
    (freeCount (start <<< pageShift) events < n + retainCount (start <<< pageShift) events ∧
      final start = some (order, n + retainCount (start <<< pageShift) events -
        freeCount (start <<< pageShift) events)) ∨
    (freeCount (start <<< pageShift) events = n + retainCount (start <<< pageShift) events ∧
      ∀ other order' n', final other = some (order', n') →
        Disjoint (frames other order') (frames start order)) := by
  induction trace generalizing n with
  | nil =>
    left
    simpa [freeCount, retainCount, positive] using live
  | @cons regions middle final event events step rest ih =>
    rw [freeCount_cons, retainCount_cons]
    have counts (freed : frees (start <<< pageShift) event = true) :
        freeCount (start <<< pageShift) [event] = 1 ∧
          retainCount (start <<< pageShift) [event] = 0 := by
      simp [freeCount, retainCount, freed, retains_eq_false_of_frees freed]
    -- References are left after this call, or it takes the last one.
    have left : (∃ m, middle start = some (order, m) ∧ 0 < m ∧
        n + retainCount (start <<< pageShift) [event] =
          m + freeCount (start <<< pageShift) [event]) ∨
        frees (start <<< pageShift) event = true ∧ n ≤ 1 := by
      cases freed : frees (start <<< pageShift) event with
      | false =>
        exact .inl ⟨_, step.kept live freed, by omega, by simp [retainCount, freeCount, freed]⟩
      | true =>
        by_cases last : n ≤ 1
        · exact .inr ⟨rfl, last⟩
        refine .inl ⟨n - 1, ?_, by omega, ?_⟩
        · rw [step.freed live freed, update_self, dropRef, if_neg last]
        · have := counts freed
          omega
    rcases left with ⟨m, there, enough, balance⟩ | ⟨freed, last⟩
    · rcases ih (step.apart apart) there enough (Outlives.tail outlives balance) with
        ⟨less, there⟩ | ⟨same, gone⟩
      · refine .inl ⟨by omega, there.trans ?_⟩
        congr 2
        omega
      · exact .inr ⟨by omega, gone⟩
    obtain ⟨one, none⟩ := counts freed
    have finished : events = [] := by
      by_contra more
      have := outlives [event] events rfl more
      omega
    subst finished
    cases rest
    right
    constructor
    · rw [one, none]
      simp only [freeCount, retainCount, countP_nil]
      omega
    intro other order' n' found
    rw [step.freed live freed, dropRef, if_pos last, update_apply] at found
    split at found
    · cases found
    · exact apart found live ‹_›

end RegionMap

end AetherKernel.Mm.Buddy
