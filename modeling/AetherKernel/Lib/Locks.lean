import AetherKernel.Lib.Transition
import Mathlib.Order.BooleanAlgebra.Set

/-!
# Locks

Threads share a state and locks that are not reentrant.  What a thread has
still to do is a list of instructions: it takes a lock, gives one back, or runs
an effect on the shared state.  An effect may insert further instructions, and
may take a lock that is free without ever waiting for it.

A thread that takes its locks along an order never closes a circle of threads
that wait for each other.
-/

namespace AetherKernel.Lib

open Relation Function List

/-- One instruction of a thread. -/
inductive Instr (L E : Type) where
  | lock (name : L)
  | unlock (name : L)
  | run (effect : E)
  deriving DecidableEq

/-- What an effect leaves: the shared state, the lock it took if it took one,
and the instructions that come before the rest of the thread. -/
structure Effected (L E S : Type) where
  shared : S
  takes : Option L
  inserts : List (Instr L E)

/-- The shared state, who holds each lock, and what each thread has to do. -/
structure LockMachine (T L E S : Type) where
  shared : S
  owner : L → Option T
  todo : T → List (Instr L E)

/-- A thread without work begins a call, or a thread goes on by one
instruction. -/
inductive Move (T C : Type) where
  | begins (thread : T) (call : C)
  | goes (thread : T)
  deriving DecidableEq

namespace LockMachine

variable {T L E S C : Type} (m : LockMachine T L E S)

/-- The locks a thread holds. -/
def held (t : T) : Set L :=
  {name | m.owner name = some t}

/-- The lock a thread asks for next. -/
def wants (t : T) : Option L :=
  match m.todo t with
  | .lock name :: _ => some name
  | _ => none

/-- A thread spins on a lock that another thread, or itself, holds. -/
def WaitsFor (t u : T) : Prop :=
  ∃ name, m.wants t = some name ∧ m.owner name = some u

/-- A thread spins on a lock it holds. -/
def WaitsForItself (t : T) (name : L) : Prop :=
  m.owner name = some t ∧ m.wants t = some name

section Steps

variable [DecidableEq T] [DecidableEq L]
  (perform : T → E → (L → Option T) → S → Option (Effected L E S))

/-- An effect takes a lock only when it is free. -/
def runEffect (m : LockMachine T L E S) (t : T) (effect : E) (rest : List (Instr L E)) :
    Option (LockMachine T L E S) :=
  match perform t effect m.owner m.shared with
  | none => none
  | some ⟨shared, none, inserts⟩ =>
    some { m with shared := shared, todo := update m.todo t (inserts ++ rest) }
  | some ⟨shared, some name, inserts⟩ =>
    if m.owner name = none then
      some { shared := shared
             owner := update m.owner name (some t)
             todo := update m.todo t (inserts ++ rest) }
    else none

/-- One instruction of a thread; there is no step where it has to wait. -/
def go (m : LockMachine T L E S) (t : T) : Option (LockMachine T L E S) :=
  match m.todo t with
  | [] => none
  | .lock name :: rest =>
    if m.owner name = none then
      some { m with owner := update m.owner name (some t)
                    todo := update m.todo t rest }
    else none
  | .unlock name :: rest =>
    if m.owner name = some t then
      some { m with owner := update m.owner name none
                    todo := update m.todo t rest }
    else none
  | .run effect :: rest => m.runEffect perform t effect rest

def move (code : C → List (Instr L E)) (m : LockMachine T L E S) :
    Move T C → Option (LockMachine T L E S)
  | .begins t call =>
    if (m.todo t).isEmpty then some { m with todo := update m.todo t (code call) }
    else none
  | .goes t => m.go perform t

end Steps

/-! ## Code that takes its locks in order -/

section Order

variable {admits : E → Set L → Prop} {before : L → L → Prop} {m : LockMachine T L E S} {t : T}
  {name : L}

/-- A thread that holds `held` takes its locks along `before`, runs its effects
where they are admitted, gives back only what it holds, and gives back all of
it. -/
def Ordered (admits : E → Set L → Prop) (before : L → L → Prop) : Set L → List (Instr L E) → Prop
  | held, [] => held = ∅
  | held, .lock name :: rest =>
    (∀ other ∈ held, before other name) ∧ Ordered admits before (insert name held) rest
  | held, .unlock name :: rest =>
    name ∈ held ∧ Ordered admits before (held \ {name}) rest
  | held, .run effect :: rest => admits effect held ∧ Ordered admits before held rest

/-- Code that can be put in front of any code that is in order. -/
def Balanced (admits : E → Set L → Prop) (before : L → L → Prop) (held : Set L)
    (code : List (Instr L E)) : Prop :=
  ∀ rest, Ordered admits before held rest → Ordered admits before held (code ++ rest)

/-- A body between taking a lock and giving it back. -/
def critical (name : L) (body : List (Instr L E)) : List (Instr L E) :=
  .lock name :: (body ++ [.unlock name])

namespace Balanced

variable {held : Set L} {first second : List (Instr L E)}

theorem nil : Balanced admits before held ([] : List (Instr L E)) :=
  fun _ ordered => ordered

theorem append (balanced : Balanced admits before held first)
    (balanced' : Balanced admits before held second) :
    Balanced admits before held (first ++ second) := by
  intro rest ordered
  rw [append_assoc]
  exact balanced _ (balanced' _ ordered)

theorem run {effect : E} (admitted : admits effect held) :
    Balanced admits before held [.run effect] :=
  fun _ ordered => ⟨admitted, ordered⟩

theorem flatMap {α : Type} {items : List α} {code : α → List (Instr L E)}
    (each : ∀ item ∈ items, Balanced admits before held (code item)) :
    Balanced admits before held (items.flatMap code) := by
  induction items with
  | nil => exact nil
  | cons item items ih =>
    apply append
    · exact each item mem_cons_self
    · exact ih fun other member => each other (mem_cons_of_mem _ member)

/-- A critical section is balanced when its lock comes after those held. -/
theorem critical {body : List (Instr L E)} (fresh : name ∉ held)
    (last : ∀ other ∈ held, before other name)
    (balanced : Balanced admits before (insert name held) body) :
    Balanced admits before held (critical name body) := by
  intro rest ordered
  rw [LockMachine.critical, cons_append, append_assoc]
  constructor
  · exact last
  · apply balanced
    constructor
    · exact Set.mem_insert name held
    · rw [Set.insert_sdiff_self_of_notMem fresh]
      exact ordered

/-- A lock that was taken without waiting may be given back at once. -/
theorem given_back (fresh : name ∉ held)
    (balanced : Balanced admits before held first) {rest : List (Instr L E)}
    (ordered : Ordered admits before held rest) :
    Ordered admits before (insert name held) (.unlock name :: first ++ rest) := by
  constructor
  · exact Set.mem_insert name held
  · rw [Set.insert_sdiff_self_of_notMem fresh]
    exact balanced rest ordered

/-- Balanced code that starts without locks is in order. -/
theorem ordered (balanced : Balanced admits before ∅ first) : Ordered admits before ∅ first := by
  have whole := balanced [] rfl
  rwa [append_nil] at whole

end Balanced

/-- Every thread is in order with the locks it holds. -/
def InOrder (admits : E → Set L → Prop) (before : L → L → Prop) (m : LockMachine T L E S) : Prop :=
  ∀ t, Ordered admits before (m.held t) (m.todo t)

theorem inOrder_idle (shared : S) :
    InOrder admits before (⟨shared, fun _ => none, fun _ => []⟩ : LockMachine T L E S) := by
  intro t
  change {name | (none : Option T) = some t} = ∅
  simp

theorem wants_eq_some_iff : m.wants t = some name ↔ ∃ rest, m.todo t = .lock name :: rest := by
  unfold wants
  constructor
  · intro asks
    split at asks
    · rename_i first rest work
      cases asks
      exact ⟨rest, work⟩
    · nomatch asks
  · rintro ⟨rest, work⟩
    rw [work]

variable (inOrder : m.InOrder admits before)
include inOrder

/-- A thread in order holds only locks that come before the one it asks for. -/
theorem InOrder.comes_first {has : L} (holds : m.owner has = some t)
    (asks : m.wants t = some name) : before has name := by
  obtain ⟨rest, work⟩ := wants_eq_some_iff.mp asks
  have ordered := inOrder t
  rw [work] at ordered
  exact ordered.1 has holds

/-- Along a chain of waiting threads the locks they ask for go up. -/
theorem InOrder.ascends {u : T} (chain : TransGen m.WaitsFor t u) :
    ∃ name, m.wants t = some name ∧ ∀ last, m.wants u = some last → TransGen before name last := by
  induction chain with
  | single waits =>
    obtain ⟨name, asks, holds⟩ := waits
    exact ⟨name, asks, fun last asks' => .single (inOrder.comes_first holds asks')⟩
  | tail _ waits ih =>
    obtain ⟨name, asks, ascends⟩ := ih
    obtain ⟨next, asksNext, holds⟩ := waits
    exact ⟨name, asks, fun last asks' =>
      (ascends next asksNext).tail (inOrder.comes_first holds asks')⟩

/-- Threads in order never wait in a circle; a thread that waits for itself is
the smallest one. -/
theorem InOrder.no_circle (acyclic : ∀ name, ¬TransGen before name name) (t : T) :
    ¬TransGen m.WaitsFor t t := by
  intro circle
  obtain ⟨name, asks, ascends⟩ := inOrder.ascends circle
  exact acyclic name (ascends name asks)

theorem InOrder.not_waits_self (acyclic : ∀ name, ¬TransGen before name name)
    (holds : m.owner name = some t) : m.wants t ≠ some name := by
  intro asks
  exact inOrder.no_circle acyclic t (.single ⟨name, asks, holds⟩)

/-- Every thread that waits does so for one that does not, through others. -/
theorem InOrder.exists_not_waiting (ends : WellFounded (swap before)) (t : T)
    (busy : m.todo t ≠ []) :
    ∃ u, ReflTransGen m.WaitsFor t u ∧ m.todo u ≠ [] ∧ ∀ v, ¬m.WaitsFor u v := by
  -- a thread that is waited for holds a lock, so it has work left
  have working {u v : T} (waits : m.WaitsFor u v) : m.todo v ≠ [] := by
    obtain ⟨name, -, holds⟩ := waits
    intro idle
    have ordered := inOrder v
    rw [idle] at ordered
    have inside : name ∈ m.held v := holds
    rw [ordered] at inside
    exact inside
  suffices climbs : ∀ name t, m.todo t ≠ [] → m.wants t = some name →
      ∃ u, ReflTransGen m.WaitsFor t u ∧ m.todo u ≠ [] ∧ ∀ v, ¬m.WaitsFor u v by
    cases asks : m.wants t with
    | none => exact ⟨t, .refl, busy, fun v ⟨name, asks', _⟩ => by simp [asks] at asks'⟩
    | some name => exact climbs name t busy asks
  intro name
  induction name using ends.induction with
  | _ name ih =>
    intro t busy asks
    cases taken : m.owner name with
    | none =>
      refine ⟨t, .refl, busy, ?_⟩
      rintro v ⟨other, asks', holds⟩
      rw [asks] at asks'
      cases asks'
      rw [taken] at holds
      nomatch holds
    | some v =>
      have waits : m.WaitsFor t v := ⟨name, asks, taken⟩
      cases asks' : m.wants v with
      | none =>
        refine ⟨v, .single waits, working waits, ?_⟩
        rintro w ⟨other, asks'', _⟩
        rw [asks'] at asks''
        nomatch asks''
      | some next =>
        obtain ⟨u, chain, rest⟩ := ih next (inOrder.comes_first taken asks') v (working waits) asks'
        exact ⟨u, chain.head waits, rest⟩

end Order

/-! ## Locks of falling weight -/

section Falling

variable {admits : E → Set L → Prop} {weight : L → Nat} {floor : Nat} {held : Set L} {name : L}

/-- The order that takes locks of smaller and smaller weight. -/
def Falls (weight : L → Nat) (first last : L) : Prop :=
  weight last < weight first

/-- The locks held weigh at least so much. -/
def Above (weight : L → Nat) (floor : Nat) (held : Set L) : Prop :=
  ∀ name ∈ held, floor ≤ weight name

theorem falls_acyclic (name : L) : ¬TransGen (Falls weight) name name := by
  intro circle
  have sinks {first last : L} (chain : TransGen (Falls weight) first last) :
      weight last < weight first := by
    induction chain with
    | single falls => exact falls
    | tail _ falls ih => exact lt_trans falls ih
  exact lt_irrefl _ (sinks circle)

theorem above_empty : Above weight floor (∅ : Set L) :=
  fun _ member => absurd member (Set.notMem_empty _)

variable (above : Above weight floor held)
include above

theorem Above.mono {lower : Nat} (le : lower ≤ floor) : Above weight lower held :=
  fun name member => le.trans (above name member)

/-- With one more lock, the weight of that lock is the new floor. -/
theorem Above.insert (lighter : weight name < floor) :
    Above weight (weight name) (insert name held) := by
  intro other member
  rcases Set.mem_insert_iff.mp member with rfl | member
  · exact le_rfl
  · exact lighter.le.trans (above other member)

/-- A lock lighter than all those held may be taken. -/
theorem Above.critical {body : List (Instr L E)} (lighter : weight name < floor)
    (balanced : Balanced admits (Falls weight) (Insert.insert name held) body) :
    Balanced admits (Falls weight) held (critical name body) := by
  apply Balanced.critical
  · intro inside
    exact Nat.not_le.mpr lighter (above name inside)
  · intro other member
    exact lighter.trans_le (above other member)
  · exact balanced

end Falling

/-! ## Steps keep the order -/

section Preserved

/-- The locks held once an effect has taken the one it took. -/
def takenWith (takes : Option L) (held : Set L) : Set L :=
  {name | takes = some name} ∪ held

@[simp]
theorem takenWith_none (held : Set L) : takenWith none held = held := by
  simp [takenWith]

@[simp]
theorem takenWith_some (name : L) (held : Set L) :
    takenWith (some name) held = insert name held := by
  simp [takenWith]

variable [DecidableEq T] [DecidableEq L] {admits : E → Set L → Prop} {before : L → L → Prop}
  {perform : T → E → (L → Option T) → S → Option (Effected L E S)} {m after : LockMachine T L E S}
  {t : T} {todo : T → List (Instr L E)} {name : L} {kept : S → Prop} {code : C → List (Instr L E)}

/-- What an effect has to respect: it keeps a property of the shared state, and
its thread stays in order. -/
def Respects (admits : E → Set L → Prop) (before : L → L → Prop) (kept : S → Prop)
    (perform : T → E → (L → Option T) → S → Option (Effected L E S))
    (m : LockMachine T L E S) (t : T) : Prop :=
  ∀ effect rest outcome, m.todo t = .run effect :: rest →
    perform t effect m.owner m.shared = some outcome → admits effect (m.held t) →
    kept outcome.shared ∧ (Ordered admits before (m.held t) rest →
      Ordered admits before (takenWith outcome.takes (m.held t)) (outcome.inserts ++ rest))

/-- What the three kinds of instructions do to the locks and the work. -/
theorem go_cases (goes : m.go perform t = some after) :
    (∃ name rest, m.todo t = .lock name :: rest ∧ m.owner name = none ∧
      after = { m with owner := update m.owner name (some t)
                       todo := update m.todo t rest }) ∨
    (∃ name rest, m.todo t = .unlock name :: rest ∧ m.owner name = some t ∧
      after = { m with owner := update m.owner name none
                       todo := update m.todo t rest }) ∨
    (∃ effect rest shared inserts, m.todo t = .run effect :: rest ∧
      perform t effect m.owner m.shared = some ⟨shared, none, inserts⟩ ∧
      after = { m with shared := shared, todo := update m.todo t (inserts ++ rest) }) ∨
    ∃ effect rest shared name inserts, m.todo t = .run effect :: rest ∧
      perform t effect m.owner m.shared = some ⟨shared, some name, inserts⟩ ∧
      m.owner name = none ∧
      after = { shared := shared
                owner := update m.owner name (some t)
                todo := update m.todo t (inserts ++ rest) } := by
  unfold go at goes
  split at goes
  · nomatch goes
  · rename_i name rest work
    split at goes
    · rename_i free
      cases goes
      exact .inl ⟨name, rest, work, free, rfl⟩
    · nomatch goes
  · rename_i name rest work
    split at goes
    · rename_i mine
      cases goes
      exact .inr (.inl ⟨name, rest, work, mine, rfl⟩)
    · nomatch goes
  rename_i effect rest work
  unfold runEffect at goes
  split at goes
  · nomatch goes
  · rename_i shared inserts performed
    cases goes
    exact .inr (.inr (.inl ⟨effect, rest, shared, inserts, work, performed, rfl⟩))
  rename_i shared name inserts performed
  split at goes
  · rename_i free
    cases goes
    exact .inr (.inr (.inr ⟨effect, rest, shared, name, inserts, work, performed, free, rfl⟩))
  · nomatch goes

/-- A lock that is taken joins the locks of the thread that takes it. -/
theorem held_taken {shared : S} (free : m.owner name = none) (u : T) :
    held ⟨shared, update m.owner name (some t), todo⟩ u =
      if u = t then insert name (m.held u) else m.held u := by
  ext other
  by_cases same : other = name
  · subst same
    by_cases mine : u = t
    · simp [mine, held]
    · simp [mine, held, free, Ne.symm mine]
  · by_cases mine : u = t <;> simp [mine, held, same]

/-- A lock that is given back leaves the locks of the thread that held it. -/
theorem held_given_back (mine : m.owner name = some t) (u : T) :
    held ⟨m.shared, update m.owner name none, todo⟩ u =
      if u = t then m.held u \ {name} else m.held u := by
  ext other
  by_cases same : other = name
  · subst same
    by_cases here : u = t
    · simp [here, held]
    · simp [held, mine, Ne.symm here]
  · by_cases here : u = t <;> simp [here, held, same]

/-- An instruction keeps what its effect respects. -/
theorem InOrder.go (inOrder : m.InOrder admits before) (holds : kept m.shared)
    (respects : m.Respects admits before kept perform t) (goes : m.go perform t = some after) :
    kept after.shared ∧ after.InOrder admits before := by
  have mine := inOrder t
  rcases go_cases goes with ⟨name, rest, work, free, rfl⟩ | ⟨name, rest, work, owned, rfl⟩ |
    ⟨effect, rest, shared, inserts, work, performed, rfl⟩ |
    ⟨effect, rest, shared, name, inserts, work, performed, free, rfl⟩ <;>
    rw [work] at mine
  · refine ⟨holds, fun u => ?_⟩
    rw [held_taken free]
    by_cases same : u = t
    · subst same
      simpa using mine.2
    · simpa [same] using inOrder u
  · refine ⟨holds, fun u => ?_⟩
    rw [held_given_back owned]
    by_cases same : u = t
    · subst same
      simpa using mine.2
    · simpa [same] using inOrder u
  · obtain ⟨still, ordered⟩ := respects effect rest _ work performed mine.1
    refine ⟨still, fun u => ?_⟩
    by_cases same : u = t
    · subst same
      simpa [held] using ordered mine.2
    · simpa [same, held] using inOrder u
  · obtain ⟨still, ordered⟩ := respects effect rest _ work performed mine.1
    refine ⟨still, fun u => ?_⟩
    rw [held_taken free]
    by_cases same : u = t
    · subst same
      simpa using ordered mine.2
    · simpa [same] using inOrder u

omit [DecidableEq L] in
/-- A call begun by an idle thread keeps every thread in order when its code
is. -/
theorem InOrder.begins {code : List (Instr L E)} (inOrder : m.InOrder admits before)
    (idle : m.todo t = []) (ordered : Ordered admits before ∅ code) :
    InOrder admits before { m with todo := update m.todo t code } := by
  intro u
  have mine := inOrder t
  rw [idle] at mine
  by_cases same : u = t
  · subst same
    have nothing : m.held u = ∅ := mine
    simpa [held, nothing] using (nothing ▸ ordered : Ordered admits before (m.held u) code)
  · simpa [held, same] using inOrder u

/-- A thread begins a call only where it has no work left. -/
theorem begins_eq {call : C} (moves : m.move perform code (.begins t call) = some after) :
    m.todo t = [] ∧ after = { m with todo := update m.todo t (code call) } := by
  rw [move] at moves
  split at moves
  · rename_i idle
    exact ⟨isEmpty_iff.mp idle, (Option.some.inj moves).symm⟩
  · nomatch moves

/-- A move keeps what the code of calls and the effects respect. -/
theorem InOrder.moves {label : Move T C} (kept : S → Prop) (inOrder : m.InOrder admits before)
    (holds : kept m.shared)
    (begins : ∀ t call, label = .begins t call → Ordered admits before ∅ (code call))
    (respects : ∀ t, label = .goes t → m.Respects admits before kept perform t)
    (moves : m.move perform code label = some after) :
    kept after.shared ∧ after.InOrder admits before := by
  cases label with
  | begins t call =>
    obtain ⟨idle, rfl⟩ := begins_eq moves
    exact ⟨holds, inOrder.begins idle (begins t call rfl)⟩
  | goes t => exact inOrder.go holds (respects t rfl) moves

/-- A thread that waits for a lock it holds does so for ever. -/
theorem WaitsForItself.moves {label : Move T C}
    (waiting : m.WaitsForItself t name) (moves : m.move perform code label = some after) :
    after.WaitsForItself t name := by
  obtain ⟨holds, asks⟩ := waiting
  obtain ⟨rest, work⟩ := wants_eq_some_iff.mp asks
  cases label with
  | begins u call =>
    obtain ⟨idle, rfl⟩ := begins_eq moves
    have differs : t ≠ u := by
      rintro rfl
      rw [work] at idle
      exact nomatch idle
    refine ⟨holds, wants_eq_some_iff.mpr ⟨rest, ?_⟩⟩
    simpa [differs] using work
  | goes u =>
    have differs : t ≠ u := by
      rintro rfl
      rw [move, go, work] at moves
      simp [holds] at moves
    have left {inserted : List (Instr L E)} : update m.todo u inserted t = .lock name :: rest := by
      rw [update_of_ne differs, work]
    have taken {other : L} (free : m.owner other = none) :
        update m.owner other (some u) name = some t := by
      rw [update_of_ne, holds]
      rintro rfl
      nomatch holds.symm.trans free
    rcases go_cases moves with ⟨other, _, _, free, rfl⟩ | ⟨other, _, _, owned, rfl⟩ |
      ⟨_, _, _, _, _, _, rfl⟩ | ⟨_, _, _, other, _, _, _, free, rfl⟩
    · exact ⟨taken free, wants_eq_some_iff.mpr ⟨rest, left⟩⟩
    · refine ⟨?_, wants_eq_some_iff.mpr ⟨rest, left⟩⟩
      change update m.owner other none name = some t
      rw [update_of_ne, holds]
      rintro rfl
      exact differs (Option.some.inj (holds.symm.trans owned))
    · exact ⟨holds, wants_eq_some_iff.mpr ⟨rest, left⟩⟩
    · exact ⟨taken free, wants_eq_some_iff.mpr ⟨rest, left⟩⟩

theorem WaitsForItself.run {labels : List (Move T C)} (waiting : m.WaitsForItself t name)
    (run : Run (fun state label next => state.move perform code label = some next) m labels after) :
    after.WaitsForItself t name := by
  induction run with
  | nil => exact waiting
  | cons moves _ ih => exact ih (waiting.moves moves)

/-- Where effects never get stuck, every thread with work waits for one that
can go on, or can go on itself. -/
theorem InOrder.exists_able (inOrder : m.InOrder admits before) (ends : WellFounded (swap before))
    (total : ∀ u effect rest, m.todo u = .run effect :: rest →
      ∃ outcome, perform u effect m.owner m.shared = some outcome ∧
        ∀ name, outcome.takes = some name → m.owner name = none) (t : T) (busy : m.todo t ≠ []) :
    ∃ u after, ReflTransGen m.WaitsFor t u ∧ m.go perform u = some after := by
  rcases inOrder.exists_not_waiting ends t busy with ⟨u, chain, working, free⟩
  suffices able : ∃ after, m.go perform u = some after by
    rcases able with ⟨after, goes⟩
    exact ⟨u, after, chain, goes⟩
  unfold LockMachine.go
  have ordered := inOrder u
  cases work : m.todo u with
  | nil => exact absurd work working
  | cons instr rest =>
    rw [work] at ordered
    cases instr with
    | lock name =>
      have untaken : m.owner name = none := by
        cases taken : m.owner name with
        | none => rfl
        | some v =>
          exact absurd ⟨name, wants_eq_some_iff.mpr ⟨rest, work⟩, taken⟩ (free v)
      exact ⟨_, if_pos untaken⟩
    | unlock name => exact ⟨_, if_pos ordered.1⟩
    | run effect =>
      rcases total u effect rest work with ⟨⟨shared, takes, inserts⟩, performed, untaken⟩
      dsimp only
      rw [runEffect, performed]
      cases takes with
      | none => exact ⟨_, rfl⟩
      | some name => exact ⟨_, if_pos (untaken name rfl)⟩

end Preserved

end LockMachine

end AetherKernel.Lib
