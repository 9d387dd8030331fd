import AetherKernel.Sched.Process
import AetherKernel.Lib.Transition

/-!
# Process ids

A number is handed out in one step and its task is stored in another.  A number that
is asked for is compared with the tasks that are stored, shown by a processor or dead,
but not with groups and sessions, nor with numbers that are handed out already.
-/

namespace AetherKernel.Sched

open Lib List ProcessIdentity

/-- Where a task is: in the table, taken from it by a processor, shown by it, dead, or
between `allocate_pid` and `insert_cloned_process`, when it is only a number. -/
inductive Whereabouts where
  | stored
  | taken (cpu : Nat)
  | running (cpu : Nat)
  | zombie
  | reserved (cpu : Nat)
  deriving DecidableEq

structure KnownTask where
  place : Whereabouts
  identity : ProcessIdentity
  deriving DecidableEq

/-- The numbers that must not be handed out again. -/
def ProcessIdentity.numbers (identity : ProcessIdentity) : List Pid :=
  [identity.pid, identity.threadGroup, identity.processGroup, identity.session]

structure PidState where
  nextPid : Pid
  tasks : List KnownTask

/-- The steps of the source, and what tasks do otherwise: they move between processors
and the table or die, they leave, and they take the numbers of others for their group
and session. -/
inductive PidStep where
  | spawnTask
  | allocatePid (cpu : Nat) (requested : Option Pid)
  | insertClonedProcess (cpu : Nat) (thread inheritParent : Bool)
  | move (task : KnownTask) (place : Whereabouts)
  | leave (task : KnownTask)
  | regroup (task : KnownTask) (processGroup session : Pid)

namespace PidState

variable (state : PidState)

/-- Whether a task with this number is at one of the places. -/
def holds (pid : Pid) (places : Whereabouts → Bool) : Bool :=
  state.tasks.any fun task => places task.place && task.identity.pid = pid

def allocatePid (requested : Option Pid) : Except SysErr (Pid × Pid) :=
  choosePid (state.holds · fun | .stored | .zombie | .running _ => true | _ => false) state.nextPid
    requested

/-- `processes.insert`: a task that is stored under the number is lost. -/
def store (pid : Pid) (tasks : List KnownTask) : List KnownTask :=
  tasks.filter fun task => !(task.place = .stored && task.identity.pid = pid)

/-- A task changes. -/
def edit (task : KnownTask) (change : KnownTask → KnownTask) : PidState :=
  { state with tasks := state.tasks.map fun other => if other = task then change other else other }

def perform : PidStep → Option PidState
  | .spawnTask =>
    let pid := state.nextPid
    some ⟨min (pid + 1) (2 ^ 32 - 1), ⟨.stored, pid, pid, none, pid, pid⟩ :: store pid state.tasks⟩
  | .allocatePid cpu requested =>
    match state.allocatePid requested with
    | .error _ => none
    | .ok (pid, next) => some ⟨next, ⟨.reserved cpu, pid, pid, none, pid, pid⟩ :: state.tasks⟩
  | .insertClonedProcess cpu thread inheritParent => do
    let parent ← state.tasks.find? fun task => task.place = .running cpu
    let child ← state.tasks.find? fun task => task.place = .reserved cpu
    let pid := child.identity.pid
    some ({ state with tasks := store pid state.tasks }.edit child fun _ =>
      ⟨.stored, parent.identity.cloned pid thread inheritParent⟩)
  | .move task place => some (state.edit task fun other => { other with place })
  | .leave task => some { state with tasks := state.tasks.filter (· ≠ task) }
  | .regroup task processGroup session =>
    if processGroup ∈ state.tasks.flatMap (·.identity.numbers) ∧
        session ∈ state.tasks.flatMap (·.identity.numbers) then
      some (state.edit task fun other =>
        { other with identity := { other.identity with processGroup, session } })
    else none

/-- The counter does not saturate, and a number that is asked for is a new one. -/
def Advances : PidStep → Prop
  | .spawnTask => state.nextPid < 2 ^ 32 - 1
  | .allocatePid _ requested => requested.getD state.nextPid < 2 ^ 32 - 1 ∧
      state.nextPid ≤ requested.getD state.nextPid
  | _ => True

/-- Every number in use is below the counter, and no two tasks have the same pid. -/
structure Numbered : Prop where
  below : ∀ task ∈ state.tasks, ∀ number ∈ task.identity.numbers, number < state.nextPid
  apart : (state.tasks.map fun task => task.identity.pid).Nodup

variable {state : PidState}

theorem pid_of_allocated {requested : Option Pid} {pid next : Pid}
    (allocated : state.allocatePid requested = .ok (pid, next)) :
    pid = requested.getD state.nextPid ∧
      (state.nextPid ≤ pid → next = min (pid + 1) (2 ^ 32 - 1)) := by
  rcases choosePid_ok allocated with ⟨rfl, same, counter⟩ | ⟨rfl, -, counter⟩
  · exact ⟨same, fun _ => counter⟩
  · refine ⟨rfl, fun fresh => ?_⟩
    rw [counter, if_pos fresh]

namespace Numbered

variable (numbered : state.Numbered)
include numbered

theorem fresh {task : KnownTask} (member : task ∈ state.tasks) {pid : Pid}
    (advances : state.nextPid ≤ pid) : pid ∉ task.identity.numbers :=
  fun inside => Nat.not_lt.mpr advances (numbered.below task member pid inside)

theorem keep (kept : KnownTask → Bool) :
    Numbered { state with tasks := state.tasks.filter kept } where
  below task member := numbered.below task (mem_of_mem_filter member)
  apart := numbered.apart.sublist (filter_sublist.map _)

/-- The number of a new task is above all others. -/
theorem add {pid : Pid} (advances : state.nextPid ≤ pid) (small : pid < 2 ^ 32 - 1)
    (place : Whereabouts) : Numbered ⟨min (pid + 1) (2 ^ 32 - 1),
      ⟨place, pid, pid, none, pid, pid⟩ :: state.tasks⟩ := by
  rw [min_eq_left small]
  constructor
  · intro task member number inside
    rcases mem_cons.mp member with rfl | old
    · have own : number = pid := by simpa [numbers] using inside
      exact own ▸ Nat.lt_succ_self pid
    · have bound := numbered.below task old number inside
      exact Nat.lt_succ_of_le (bound.le.trans advances)
  · refine nodup_cons.mpr ⟨fun used => ?_, numbered.apart⟩
    obtain ⟨task, old, same⟩ := mem_map.mp used
    have own : task.identity.pid = pid := same
    exact numbered.fresh old advances (own ▸ mem_cons_self)

/-- A task keeps its pid and takes numbers that are in use. -/
theorem edit (task : KnownTask) {change : KnownTask → KnownTask}
    (same : (change task).identity.pid = task.identity.pid)
    (used : task ∈ state.tasks → ∀ number ∈ (change task).identity.numbers,
      number < state.nextPid) :
    (state.edit task change).Numbered := by
  constructor
  · intro other member
    obtain ⟨former, known, rfl⟩ := mem_map.mp member
    split
    · rename_i here
      exact here ▸ used (here ▸ known)
    · exact numbered.below former known
  · have pids : ((state.edit task change).tasks.map fun other => other.identity.pid) =
        state.tasks.map fun other => other.identity.pid := by
      refine map_map.trans (map_congr_left fun other _ => ?_)
      by_cases here : other = task
      · simp [here, same]
      · simp [here]
    exact pids ▸ numbered.apart

theorem perform {step : PidStep} {after : PidState} (advances : state.Advances step)
    (performed : state.perform step = some after) : after.Numbered := by
  cases step with
  | spawnTask =>
    cases performed
    exact (numbered.keep _).add le_rfl advances .stored
  | allocatePid cpu requested =>
    rw [PidState.perform] at performed
    split at performed
    · cases performed
    · rename_i pid next allocated
      cases performed
      obtain ⟨rfl, counter⟩ := pid_of_allocated allocated
      rw [counter advances.2]
      exact numbered.add advances.2 advances.1 _
  | insertClonedProcess cpu thread inheritParent =>
    obtain ⟨parent, running, rest⟩ := Option.bind_eq_some_iff.mp performed
    obtain ⟨child, reserved, rest⟩ := Option.bind_eq_some_iff.mp rest
    cases rest
    have bound := numbered.below parent (mem_of_find?_eq_some running)
    refine (numbered.keep _).edit child rfl fun known number inside => ?_
    have own := numbered.below child (mem_of_mem_filter known) _ mem_cons_self
    simp only [numbers, forall_mem_cons] at bound
    cases thread <;> simp [numbers, cloned] at inside <;> grind
  | move task place =>
    cases performed
    exact numbered.edit task rfl (numbered.below task)
  | leave task =>
    cases performed
    exact numbered.keep _
  | regroup task processGroup session =>
    rw [PidState.perform] at performed
    split at performed <;> cases performed
    rename_i used
    have bound : ∀ number ∈ state.tasks.flatMap (·.identity.numbers), number < state.nextPid := by
      intro number inside
      obtain ⟨other, known, inside⟩ := mem_flatMap.mp inside
      exact numbered.below other known number inside
    refine numbered.edit task rfl fun known => ?_
    have own := numbered.below task known
    simp only [numbers, forall_mem_cons] at own ⊢
    exact ⟨own.1, own.2.1, bound _ used.1, bound _ used.2, forall_mem_nil _⟩

end Numbered

/-- One step of the manager or of a task. -/
def Performs (state : PidState) (step : PidStep) (after : PidState) : Prop :=
  state.perform step = some after

/-- While the counter does not saturate and only new numbers are asked for, a number that
is handed out is not in use, and the new task replaces no other. -/
theorem pids_are_unique {steps : List PidStep} {last : PidState}
    (run : Run (Guarded Advances Performs) ⟨1, []⟩ steps last) :
    (∀ cpu requested pid next, last.Advances (.allocatePid cpu requested) →
      last.allocatePid requested = .ok (pid, next) →
      ∀ task ∈ last.tasks, pid ∉ task.identity.numbers) ∧
    ∀ child ∈ last.tasks, ∀ cpu, child.place = .reserved cpu →
      store child.identity.pid last.tasks = last.tasks := by
  have numbered : last.Numbered := by
    refine run.invariant (fun state step after before moves => ?_)
      ⟨nofun, nodup_nil⟩
    exact before.perform moves.1 moves.2
  refine ⟨fun cpu requested pid next advances allocated task member => ?_,
    fun child member cpu reserved => ?_⟩
  · obtain ⟨rfl, -⟩ := pid_of_allocated allocated
    exact numbered.fresh member advances.2
  refine filter_eq_self.mpr fun task known => ?_
  by_contra replaced
  obtain ⟨stored, same⟩ : task.place = .stored ∧ task.identity.pid = child.identity.pid := by
    simpa using replaced
  have equal := inj_on_of_nodup_map numbered.apart known member same
  nomatch stored.symm.trans ((congrArg KnownTask.place equal).trans reserved)

/-- The first task is started and clones itself. -/
def cloneSteps : List PidStep :=
  [.spawnTask, .move ⟨.stored, 1, 1, none, 1, 1⟩ (.running 0), .allocatePid 0 none]

theorem pids_are_unique_cloning : ∃ last, Run (Guarded Advances Performs) ⟨1, []⟩ cloneSteps last ∧
    store 2 last.tasks = last.tasks := by
  have run : Run (Guarded Advances Performs) ⟨1, []⟩ cloneSteps _ :=
    .cons ⟨show 1 < 2 ^ 32 - 1 by decide, rfl⟩ (.cons ⟨trivial, rfl⟩
      (.cons ⟨show 2 < 2 ^ 32 - 1 ∧ 2 ≤ 2 by decide, rfl⟩ .nil))
  exact ⟨_, run, (pids_are_unique run).2 ⟨.reserved 0, 2, 2, none, 2, 2⟩ (by decide) 0 rfl⟩

/-- The first task has left, and its child asks for its number, which is still the number
of its process group and session. -/
theorem pid_of_a_process_group_is_handed_out : ∃ last, Run Performs ⟨1, []⟩
      (cloneSteps ++ [.insertClonedProcess 0 false false, .leave ⟨.running 0, 1, 1, none, 1, 1⟩,
        .move ⟨.stored, 2, 2, some 1, 1, 1⟩ (.running 0)]) last ∧
    last.allocatePid (some 1) = .ok (1, 3) ∧
    ⟨.running 0, 2, 2, some 1, 1, 1⟩ ∈ last.tasks :=
  ⟨_, .cons rfl (.cons rfl (.cons rfl (.cons rfl (.cons rfl (.cons rfl .nil))))), rfl, by decide⟩

end PidState

end AetherKernel.Sched
