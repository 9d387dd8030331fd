import Mathlib.Logic.Basic

/-!
# Computations over a mutable state

A routine that mutates a state in place and may return early with an error is
a function from states to a result paired with the state it leaves behind.
The state is kept on the error path too: an early return does not undo the
writes that precede it.  The outer `Option` is empty when the routine does not
return at all, either because it panics or because a loop does not end.
-/

namespace AetherKernel.Lib

open List

variable {ε α : Type}

/-- A fallible computation in two stages succeeds when both do. -/
theorem exists_of_bind_eq_ok {β : Type} {first : Except ε α} {next : α → Except ε β}
    {result : β} (run : (first >>= next) = .ok result) :
    ∃ value, first = .ok value ∧ next value = .ok result := by
  cases first with
  | error error => cases run
  | ok value => exact ⟨value, rfl, run⟩

theorem exists_of_map_eq_ok {β : Type} {f : α → β} {result : Except ε α} {image : β}
    (mapped : result.map f = .ok image) : ∃ value, result = .ok value ∧ f value = image := by
  cases result with
  | error error => cases mapped
  | ok value => exact ⟨value, rfl, Except.ok.inj mapped⟩

theorem eq_ok_of_toOption {result : Except ε α} {value : α}
    (run : result.toOption = some value) : result = .ok value := by
  cases result with
  | error error => cases run
  | ok other =>
    cases run
    rfl

/-- A computation over the mutable state `σ` that returns `α` or fails with
`ε`, and that may also not return. -/
def Exec (σ ε α : Type) : Type :=
  σ → Option (Except ε α × σ)

namespace Exec

variable {σ β : Type} (value : α)

/-- Return a value and leave the state alone. -/
protected def pure : Exec σ ε α :=
  fun state => some (.ok value, state)

/-- Sequential composition; an error ends the computation in the state it was
raised in. -/
protected def bind (first : Exec σ ε α) (next : α → Exec σ ε β) : Exec σ ε β :=
  fun state =>
    match first state with
    | none => none
    | some (.error error, after) => some (.error error, after)
    | some (.ok value, after) => next value after

instance : Monad (Exec σ ε) where
  pure := Exec.pure
  bind := Exec.bind

/-- Read the state. -/
def get : Exec σ ε σ :=
  fun state => some (.ok state, state)

/-- Replace the state. -/
def set (state : σ) : Exec σ ε Unit :=
  fun _ => some (.ok (), state)

variable (update : σ → σ)

/-- Update the state. -/
def modify : Exec σ ε Unit :=
  fun state => some (.ok (), update state)

variable (error : ε)

/-- Return early with an error. -/
def throw : Exec σ ε α :=
  fun state => some (.error error, state)

/-- A panic, or a loop that does not end. -/
def stuck : Exec σ ε α :=
  fun _ => none

/-- Use the outcome of a computation as a value instead of returning early. -/
def attempt (first : Exec σ ε α) : Exec σ ε (Except ε α) :=
  fun state => (first state).map fun outcome => (.ok outcome.1, outcome.2)

/-- A pure fallible result. -/
def ofExcept : Except ε α → Exec σ ε α
  | .ok value => Exec.pure value
  | .error error => throw error

/-- A pure result that may be missing because the loop computing it does not
end. -/
def ofLoop : Option α → Exec σ ε α
  | some value => Exec.pure value
  | none => stuck

/-- Run the body for each element, in order, until one of them fails. -/
def forEach (body : α → Exec σ ε Unit) : List α → Exec σ ε Unit
  | [] => Exec.pure ()
  | x :: rest => Exec.bind (body x) fun _ => forEach body rest

@[simp]
theorem pure_apply (state : σ) : (pure value : Exec σ ε α) state = some (.ok value, state) :=
  rfl

@[simp]
theorem get_apply (state : σ) : (get : Exec σ ε σ) state = some (.ok state, state) :=
  rfl

@[simp]
theorem set_apply (target state : σ) : (set target : Exec σ ε Unit) state = some (.ok (), target) :=
  rfl

@[simp]
theorem modify_apply (state : σ) :
    (modify update : Exec σ ε Unit) state = some (.ok (), update state) :=
  rfl

@[simp]
theorem throw_apply (state : σ) : (throw error : Exec σ ε α) state = some (.error error, state) :=
  rfl

@[simp]
theorem ofExcept_ok : (ofExcept (.ok value) : Exec σ ε α) = pure value :=
  rfl

@[simp]
theorem ofLoop_some : (ofLoop (some value) : Exec σ ε α) = pure value :=
  rfl

variable {first : Exec σ ε α} {next : α → Exec σ ε β} {state : σ} {after : σ}

/-- A successful first stage hands its value and state to the second. -/
theorem bind_ok {value : α} (stage : first state = some (.ok value, after)) :
    (first >>= next) state = next value after := by
  change Exec.bind first next state = _
  simp [Exec.bind, stage]

/-- A failing first stage decides the outcome. -/
theorem bind_error {error : ε} (stage : first state = some (.error error, after)) :
    (first >>= next) state = some (.error error, after) := by
  change Exec.bind first next state = _
  simp [Exec.bind, stage]

@[simp]
theorem pure_bind (next : α → Exec σ ε β) : (pure value : Exec σ ε α) >>= next = next value :=
  rfl

@[simp]
theorem get_bind_apply (next : σ → Exec σ ε β) (state : σ) :
    (get >>= next) state = next state state :=
  rfl

@[simp]
theorem set_bind_apply (target : σ) (next : Unit → Exec σ ε β) (state : σ) :
    ((set target : Exec σ ε Unit) >>= next) state = next () target :=
  rfl

@[simp]
theorem modify_bind_apply (next : Unit → Exec σ ε β) (state : σ) :
    ((modify update : Exec σ ε Unit) >>= next) state = next () (update state) :=
  rfl

/-- The routine returns from every state. -/
def Total (routine : Exec σ ε α) : Prop :=
  ∀ state, (routine state).isSome

theorem Total.bind (returns : first.Total) (continues : ∀ value, (next value).Total) :
    (first >>= next).Total := by
  intro state
  rcases Option.isSome_iff_exists.mp (returns state) with ⟨⟨outcome, after⟩, run⟩
  cases outcome with
  | error error => rw [bind_error run, Option.isSome_some]
  | ok value =>
    rw [bind_ok run]
    exact continues value after

theorem Total.attempt (returns : first.Total) : (attempt first).Total :=
  fun state => Option.isSome_map.trans (returns state)

theorem Total.forEach {body : α → Exec σ ε Unit} (turn : ∀ x, (body x).Total) (xs : List α) :
    (forEach body xs).Total := by
  induction xs with
  | nil => exact fun _ => rfl
  | cons x rest ih => exact (turn x).bind fun _ => ih

/-! ## Postconditions

`Returns` is total correctness: the routine comes back, and its outcome and
final state satisfy the postcondition whether or not it failed. -/

variable (routine : Exec σ ε α)

/-- The routine returns from `state`, and `post` holds of what it leaves. -/
def Returns (state : σ) (post : Except ε α → σ → Prop) : Prop :=
  ∃ outcome after, routine state = some (outcome, after) ∧ post outcome after

namespace Returns

variable {routine : Exec σ ε α} {post : Except ε α → σ → Prop}

theorem mono {weaker : Except ε α → σ → Prop} (returns : routine.Returns state post)
    (imp : ∀ outcome after, post outcome after → weaker outcome after) :
    routine.Returns state weaker := by
  obtain ⟨outcome, after, run, holds⟩ := returns
  exact ⟨outcome, after, run, imp outcome after holds⟩

/-- A routine has one outcome, so its postcondition holds of any outcome
observed. -/
theorem of_run {outcome : Except ε α} (returns : routine.Returns state post)
    (run : routine state = some (outcome, after)) : post outcome after := by
  obtain ⟨outcome', after', run', holds⟩ := returns
  rw [run] at run'
  cases run'
  exact holds

variable {value : α}

theorem pure (holds : post (.ok value) state) : (Pure.pure value : Exec σ ε α).Returns state post :=
  ⟨_, _, rfl, holds⟩

theorem throw {error : ε} (holds : post (.error error) state) :
    (Exec.throw error : Exec σ ε α).Returns state post :=
  ⟨_, _, rfl, holds⟩

theorem ofExcept {result : Except ε α} (holds : post result state) :
    (Exec.ofExcept result).Returns state post := by
  cases result with
  | ok | error => exact ⟨_, _, rfl, holds⟩

variable {final : Except ε β → σ → Prop}

/-- The sequencing rule, with an intermediate assertion. -/
theorem bind (first : routine.Returns state post)
    (fails : ∀ error after, post (.error error) after → final (.error error) after)
    (continues : ∀ value after, post (.ok value) after → (next value).Returns after final) :
    (routine >>= next).Returns state final := by
  obtain ⟨outcome, after, run, holds⟩ := first
  cases outcome with
  | error error => exact ⟨_, _, bind_error run, fails error after holds⟩
  | ok value =>
    obtain ⟨outcome, last, rest, result⟩ := continues value after holds
    exact ⟨outcome, last, (bind_ok run).trans rest, result⟩

/-- The sequencing rule after a first stage whose outcome is known. -/
theorem step (run : routine state = some (.ok value, after))
    (continues : (next value).Returns after final) : (routine >>= next).Returns state final := by
  obtain ⟨outcome, last, rest, result⟩ := continues
  exact ⟨outcome, last, (bind_ok run).trans rest, result⟩

theorem get {next : σ → Exec σ ε β} (continues : (next state).Returns state final) :
    (Exec.get >>= next).Returns state final :=
  continues

theorem set {target : σ} {next : Unit → Exec σ ε β} (continues : (next ()).Returns target final) :
    (Exec.set target >>= next).Returns state final :=
  continues

theorem attempt {next : Except ε α → Exec σ ε β} (first : routine.Returns state post)
    (continues : ∀ outcome after, post outcome after → (next outcome).Returns after final) :
    (Exec.attempt routine >>= next).Returns state final := by
  obtain ⟨outcome, after, run, holds⟩ := first
  obtain ⟨result, last, rest, done⟩ := continues outcome after holds
  have tried : Exec.attempt routine state = some (.ok outcome, after) := by
    simp [Exec.attempt, run]
  exact ⟨result, last, (bind_ok tried).trans rest, done⟩

end Returns

/-! ## Safety

`Ensures` says nothing about a routine that does not return.  `Keeps` is the case
in which a part of the state is the same afterwards. -/

/-- If the routine returns from `state`, then `post` holds of what it leaves. -/
def Ensures (state : σ) (post : Except ε α → σ → Prop) : Prop :=
  ∀ outcome after, routine state = some (outcome, after) → post outcome after

namespace Ensures

variable {routine : Exec σ ε α} {post : Except ε α → σ → Prop}

theorem mono {weaker : Except ε α → σ → Prop} (ensures : routine.Ensures state post)
    (imp : ∀ outcome after, post outcome after → weaker outcome after) :
    routine.Ensures state weaker :=
  fun outcome after run => imp outcome after (ensures outcome after run)

theorem pure {value : α} (holds : post (.ok value) state) :
    (Pure.pure value : Exec σ ε α).Ensures state post := by
  intro outcome after run
  cases run
  exact holds

theorem throw {error : ε} (holds : post (.error error) state) :
    (Exec.throw error : Exec σ ε α).Ensures state post := by
  intro outcome after run
  cases run
  exact holds

theorem stuck : (Exec.stuck : Exec σ ε α).Ensures state post := by
  intro outcome after run
  cases run

variable {final : Except ε β → σ → Prop}

theorem bind (first : routine.Ensures state post)
    (fails : ∀ error after, post (.error error) after → final (.error error) after)
    (continues : ∀ value after, post (.ok value) after → (next value).Ensures after final) :
    (routine >>= next).Ensures state final := by
  intro outcome last run
  change Exec.bind routine next state = _ at run
  unfold Exec.bind at run
  split at run
  · cases run
  · rename_i error after stage
    cases run
    exact fails error _ (first _ _ stage)
  · rename_i value after stage
    exact continues value after (first _ _ stage) outcome last run

theorem get {next : σ → Exec σ ε β} (continues : (next state).Ensures state final) :
    (Exec.get >>= next).Ensures state final :=
  continues

theorem modify {update : σ → σ} {post : Except ε Unit → σ → Prop}
    (holds : post (.ok ()) (update state)) :
    (Exec.modify update : Exec σ ε Unit).Ensures state post := by
  intro outcome after run
  cases run
  exact holds

/-- The outcome becomes a value. -/
theorem tried (first : routine.Ensures state post) : (Exec.attempt routine).Ensures state
    fun outcome after => ∃ inner, outcome = .ok inner ∧ post inner after := by
  intro outcome after run
  obtain ⟨result, done, equal⟩ := Option.map_eq_some_iff.mp run
  cases equal
  exact ⟨_, rfl, first _ _ done⟩

theorem attempt {next : Except ε α → Exec σ ε β} (first : routine.Ensures state post)
    (continues : ∀ outcome after, post outcome after → (next outcome).Ensures after final) :
    (Exec.attempt routine >>= next).Ensures state final := by
  refine first.tried.bind ?_ ?_
  · rintro error after ⟨inner, impossible, -⟩
    cases impossible
  · rintro value after ⟨inner, equal, holds⟩
    cases equal
    exact continues value after holds

variable {body : α → Exec σ ε Unit} {xs : List α} {kept : σ → Prop}

theorem forEach {post : Except ε Unit → σ → Prop} (initially : post (.ok ()) state)
    (turn : ∀ x ∈ xs, ∀ before, post (.ok ()) before → (body x).Ensures before post) :
    (Exec.forEach body xs).Ensures state post := by
  induction xs generalizing state with
  | nil => exact pure initially
  | cons x xs ih =>
    refine (turn x mem_cons_self state initially).bind (fun _ _ holds => holds) ?_
    intro _ after holds
    exact ih holds fun y member => turn y (mem_cons_of_mem _ member)

/-- The value may be dropped. -/
theorem discard (ensures : routine.Ensures state fun _ after => kept after) :
    (routine >>= fun _ => Pure.pure ()).Ensures state fun _ after => kept after :=
  ensures.bind (fun _ _ holds => holds) fun _ _ holds => .pure holds

end Ensures

/-- A property that the routine does not break, whatever its outcome. -/
def Preserves (kept : σ → Prop) (routine : Exec σ ε α) : Prop :=
  ∀ state, kept state → routine.Ensures state fun _ after => kept after

namespace Preserves

variable {kept : σ → Prop} {routine : Exec σ ε α}

theorem pure (value : α) : Preserves kept (Pure.pure value : Exec σ ε α) :=
  fun _ holds => Ensures.pure holds

theorem throw (error : ε) : Preserves kept (Exec.throw error : Exec σ ε α) :=
  fun _ holds => Ensures.throw holds

theorem stuck : Preserves kept (Exec.stuck : Exec σ ε α) :=
  fun _ _ => Ensures.stuck

theorem bind (first : Preserves kept routine)
    (second : ∀ value, Preserves kept (next value)) : Preserves kept (routine >>= next) :=
  fun state holds => (first state holds).bind (fun _ _ later => later)
    fun value after later => second value after later

/-- What follows may use that the property holds of the state that is read. -/
theorem get {next : σ → Exec σ ε β} (second : ∀ state, kept state → Preserves kept (next state)) :
    Preserves kept (Exec.get >>= next) :=
  fun state holds => second state holds state holds

theorem modify {update : σ → σ} (step : ∀ state, kept state → kept (update state)) :
    Preserves kept (Exec.modify update : Exec σ ε Unit) :=
  fun state holds => Ensures.modify (step state holds)

theorem attempt (first : Preserves kept routine) : Preserves kept (Exec.attempt routine) :=
  fun state holds => (first state holds).tried.mono fun _ _ ⟨_, _, later⟩ => later

theorem forEach {body : α → Exec σ ε Unit} {xs : List α}
    (turn : ∀ x ∈ xs, Preserves kept (body x)) : Preserves kept (Exec.forEach body xs) :=
  fun _ holds => Ensures.forEach holds fun x member before => turn x member before

end Preserves

/-- The routine leaves a part of the state as it was, whatever its outcome. -/
def Keeps {γ : Type} (view : σ → γ) (routine : Exec σ ε α) : Prop :=
  ∀ value, routine.Preserves fun state => view state = value

namespace Keeps

variable {γ : Type} {view : σ → γ} {routine : Exec σ ε α}

theorem pure (value : α) : Keeps view (Pure.pure value : Exec σ ε α) :=
  fun _ => .pure value

theorem throw (error : ε) : Keeps view (Exec.throw error : Exec σ ε α) :=
  fun _ => .throw error

theorem bind (first : Keeps view routine)
    (second : ∀ value, Keeps view (next value)) : Keeps view (routine >>= next) :=
  fun kept => (first kept).bind fun value => second value kept

theorem get : Keeps view (Exec.get : Exec σ ε σ) := by
  intro value state holds outcome after run
  cases run
  exact holds

theorem modify {update : σ → σ} (same : ∀ state, view (update state) = view state) :
    Keeps view (Exec.modify update : Exec σ ε Unit) :=
  fun _ => .modify fun state holds => (same state).trans holds

theorem attempt (first : Keeps view routine) : Keeps view (Exec.attempt routine) :=
  fun kept => (first kept).attempt

theorem forEach {body : α → Exec σ ε Unit} {xs : List α}
    (turn : ∀ x ∈ xs, Keeps view (body x)) : Keeps view (Exec.forEach body xs) :=
  fun kept => .forEach fun x member => turn x member kept

end Keeps

end Exec

end AetherKernel.Lib
