import Mathlib.Data.List.Basic
import Mathlib.Logic.Relation

/-!
# Transitions

Where a deterministic rewriting ends, and what whole runs of labelled steps
preserve.
-/

namespace AetherKernel.Lib

open Relation Option

section Ends

variable {α : Type} {step other : α → α → Prop} {a b c : α}

/-- Rewriting `a` as long as possible yields `b`. -/
structure Ends (step : α → α → Prop) (a b : α) : Prop where
  reaches : ReflTransGen step a b
  stops : ∀ c, ¬step b c

namespace Ends

theorem refl (stops : ∀ c, ¬step a c) : Ends step a a :=
  ⟨.refl, stops⟩

theorem head (first : step a b) (rest : Ends step b c) : Ends step a c :=
  ⟨.head first rest.reaches, rest.stops⟩

/-- A deterministic rewriting ends in one place. -/
theorem unique (deterministic : ∀ a b c, step a b → step a c → b = c)
    (first : Ends step a b) (second : Ends step a c) : b = c := by
  obtain ⟨reaches, stops⟩ := first
  induction reaches using ReflTransGen.head_induction_on with
  | refl =>
    rcases ReflTransGen.cases_head second.reaches with same | ⟨d, moves, -⟩
    · exact same
    · exact absurd moves (stops d)
  | head moves _ ih =>
    rcases ReflTransGen.cases_head second.reaches with same | ⟨d, other, rest⟩
    · exact absurd (same ▸ moves) (second.stops _)
    · rw [deterministic _ _ _ other moves] at rest
      exact ih ⟨rest, second.stops⟩

theorem congr (same : ∀ a b, step a b ↔ other a b) : Ends step a b ↔ Ends other a b := by
  have equal : step = other := funext₂ fun a b => propext (same a b)
  rw [equal]

end Ends

end Ends

section Run

variable {σ α : Type} {step : σ → α → σ → Prop} {start last : σ} {labels : List α}

/-- A finite run, with the label of each step. -/
inductive Run (step : σ → α → σ → Prop) : σ → List α → σ → Prop
  | nil {state : σ} : Run step state [] state
  | cons {state middle last : σ} {label : α} {labels : List α} :
      step state label middle → Run step middle labels last →
      Run step state (label :: labels) last

/-- The steps of `step` that are taken where `guard` allows them. -/
def Guarded (guard : σ → α → Prop) (step : σ → α → σ → Prop) : σ → α → σ → Prop :=
  fun state label after => guard state label ∧ step state label after

variable (run : Run step start labels last)
include run

theorem Run.mono {other : σ → α → σ → Prop}
    (imp : ∀ state label after, step state label after → other state label after) :
    Run other start labels last := by
  induction run with
  | nil => exact .nil
  | cons moves _ ih => exact .cons (imp _ _ _ moves) ih

/-- A guard on labels only holds along a run when it holds of its labels. -/
theorem Run.guarded {allowed : α → Prop} (all : ∀ label ∈ labels, allowed label) :
    Run (Guarded (fun _ label => allowed label) step) start labels last := by
  induction run with
  | nil => exact .nil
  | cons moves _ ih =>
    obtain ⟨first, rest⟩ := List.forall_mem_cons.mp all
    exact .cons ⟨first, moves⟩ (ih rest)

/-- What every step preserves, every run preserves. -/
theorem Run.invariant {invariant : σ → Prop}
    (preserved : ∀ state label after, invariant state → step state label after → invariant after)
    (initially : invariant start) : invariant last := by
  induction run with
  | nil => exact initially
  | cons moves _ ih => exact ih (preserved _ _ _ initially moves)

/-- What every step shows where an invariant holds, all labels of a run show. -/
theorem Run.forall_labels {invariant : σ → Prop} {shows : α → Prop}
    (preserved : ∀ state label after, invariant state → step state label after →
      invariant after ∧ shows label)
    (initially : invariant start) : ∀ label ∈ labels, shows label := by
  induction run with
  | nil => exact nofun
  | cons moves _ ih =>
    have next := preserved _ _ _ initially moves
    exact List.forall_mem_cons.mpr ⟨next.2, ih next.1⟩

/-- What holds of the labels so far and the state reached holds of the whole
run. -/
theorem Run.history {holds : List α → σ → Prop}
    (preserved : ∀ seen state label after, holds seen state → step state label after →
      holds (seen ++ [label]) after)
    (initially : holds [] start) : holds labels last := by
  suffices general : ∀ seen, holds seen start → holds (seen ++ labels) last from
    general [] initially
  clear initially
  induction run with
  | nil =>
    intro seen held
    rwa [List.append_nil]
  | cons moves _ ih =>
    intro seen held
    have next := preserved _ _ _ _ held moves
    rw [List.append_cons]
    exact ih _ next

end Run

section Execute

variable {σ α β : Type} {perform : σ → α → Option (β × σ)} {steps : List α} {state last : σ}
  {labels : List (α × β)} {check : σ → α → Bool} {guard : σ → α × β → Prop}

/-- Carry out a list of steps, and collect what they return. -/
def execute (perform : σ → α → Option (β × σ)) : σ → List α → Option (List (α × β) × σ)
  | state, [] => some ([], state)
  | state, step :: steps =>
    (perform state step).bind fun (reply, next) =>
      (execute perform next steps).map fun (labels, last) => ((step, reply) :: labels, last)

/-- Steps that can be carried out are a run. -/
theorem run_of_execute (executed : execute perform state steps = some (labels, last)) :
    Run (fun before label after => perform before label.1 = some (label.2, after)) state labels
      last := by
  induction steps generalizing state labels with
  | nil =>
    cases executed
    exact .nil
  | cons step steps ih =>
    obtain ⟨⟨reply, next⟩, first, rest⟩ := bind_eq_some_iff.mp executed
    obtain ⟨⟨later, final⟩, more, same⟩ := map_eq_some_iff.mp rest
    cases same
    exact .cons first (ih more)

/-- Steps that a check allows. -/
def allowed (check : σ → α → Bool) (perform : σ → α → Option (β × σ)) (state : σ) (step : α) :
    Option (β × σ) :=
  if check state step then perform state step else none

theorem guarded_of_allowed
    (enough : ∀ state step reply, check state step → guard state (step, reply)) {before after : σ}
    {step : α} {reply : β} (performed : allowed check perform before step = some (reply, after)) :
    Guarded guard (fun before label after => perform before label.1 = some (label.2, after)) before
      (step, reply) after := by
  unfold allowed at performed
  split at performed
  · exact ⟨enough before step reply ‹_›, performed⟩
  · nomatch performed

/-- Steps that are checked as they are carried out are a guarded run. -/
theorem guarded_of_execute
    (enough : ∀ state step reply, check state step → guard state (step, reply))
    (executed : execute (allowed check perform) state steps = some (labels, last)) :
    Run (Guarded guard fun before label after => perform before label.1 = some (label.2, after))
      state labels last :=
  (run_of_execute executed).mono fun _ _ _ performed => guarded_of_allowed enough performed

/-- What is seen of one more step after others. -/
theorem exists_of_execute_bind {γ : Type} (perform : σ → α → Option (β × σ)) (start : σ)
    (steps : List α) (step : α) (view : σ → β → σ → γ) {value : γ}
    (executed : ((execute perform start steps).bind fun (_, before) =>
      (perform before step).map fun (reply, after) => view before reply after) = some value) :
    ∃ labels before reply after, execute perform start steps = some (labels, before) ∧
      perform before step = some (reply, after) ∧ view before reply after = value := by
  obtain ⟨⟨labels, before⟩, first, rest⟩ := bind_eq_some_iff.mp executed
  obtain ⟨⟨reply, after⟩, second, seen⟩ := map_eq_some_iff.mp rest
  exact ⟨labels, before, reply, after, first, second, seen⟩

end Execute

section Fold

variable {σ α : Type} {step : σ → α → Option σ} {labels : List α} {last : σ} {start : σ}

/-- Labels that can be carried out one after the other are a run. -/
theorem run_of_foldlM (folded : labels.foldlM step start = some last) :
    Run (fun before label after => step before label = some after) start labels last := by
  induction labels generalizing start with
  | nil =>
    cases folded
    exact .nil
  | cons label labels ih =>
    obtain ⟨next, first, rest⟩ := bind_eq_some_iff.mp folded
    exact .cons first (ih rest)

/-- Labels that are checked as they are carried out are a guarded run. -/
theorem guarded_of_foldlM {check : σ → α → Bool} {guard : σ → α → Prop}
    (enough : ∀ state label, check state label → guard state label)
    (folded : labels.foldlM (fun state label =>
      if check state label then step state label else none) start = some last) :
    Run (Guarded guard fun before label after => step before label = some after) start labels
      last := by
  apply (run_of_foldlM folded).mono
  intro state label after moves
  split at moves
  · exact ⟨enough state label ‹_›, moves⟩
  · nomatch moves

end Fold

end AetherKernel.Lib
