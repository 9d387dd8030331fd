import AetherKernel.Sched.Reaping

/-!
# Children are reaped once

As long as pids are new and no exit is handed over to a parent that waits for it,
a child of which the exit has been taken is never heard of again.
-/

namespace AetherKernel.Sched

open Lib Signal Std List

variable {μ : Type}

namespace Kernel

/-- A pid that is asked for is new and is not the pid of a child that a parent
still knows; no exit is handed over to a `wait4` that is blocked, and none is
taken while something else is queued of the child. -/
structure Tidy (kernel : Kernel μ) (label : Step μ × List Event) : Prop where
  distinct : kernel.Distinct label
  unknown : ∀ cpu pid, label.1 = .allocate cpu (some pid) →
    ∀ parent, pid ∉ kernel.parentChildren parent
  fair : Fair kernel label.2

/-- The invariant within a step, as long as it is fair. -/
def Reaped (start : Kernel μ) (flight : Flight) (kernel : Kernel μ) : Prop :=
  (∀ events, kernel.journal = events ++ start.journal → Fair start events) →
    Reaping start flight kernel

end Kernel

namespace Reaping

open Kernel

variable {kernel after : Kernel μ} {step : Step μ} (reaping : Reaping kernel .home kernel)
  {requested : Option Pid} {next pid : Pid}

include reaping

theorem count {next : Nat} (grows : kernel.nextPid ≤ next) :
    Reaping kernel .home { kernel with nextPid := next } :=
  reaping.of_stands (reaping.places.count grows) (.of_eq rfl) (.refl _) (fun _ => id)
    (.of_eq rfl) rfl
    (fun _ => .refl _) (fun _ _ => id) grows

variable
  (unknown : ∀ wanted, requested = some wanted → ∀ parent, wanted ∉ kernel.parentChildren parent)
  (allocated : kernel.allocatePid requested = (.ok pid, { kernel with nextPid := next }))
include unknown allocated

/-- No parent knows the pid that `allocate_pid` gives out. -/
theorem unknown_of_allocated (parent : Pid) : pid ∉ kernel.parentChildren parent := by
  rcases choosePid_ok (allocatePid_ok allocated) with ⟨-, rfl, -⟩ | ⟨asked, -⟩
  · exact fun linked => absurd (reaping.links parent _ linked).1 (Nat.lt_irrefl _)
  · exact unknown pid asked parent

theorem allocate {cpu : Nat} {process : KernelProcess}
    (distinct : kernel.Distinct (.allocate cpu requested, []))
    (activity : (kernel.cpus cpu).activity = .kernel process .running) :
    Reaping kernel .home
      ({ kernel with nextPid := next }.setActivity cpu (.kernel process (.cloning pid))) := by
  obtain ⟨grows, below, nowhere, free⟩ := reaping.places.of_allocated distinct allocated
  have places := (reaping.places.count grows).reserve (congrArg Activity.held activity) nowhere
    below free
  refine (reaping.count grows).turn places ?_ (nofun) ?_ (fun _ => id) fun _ => id
  · rintro _ ⟨⟩
    exact .lives (.held (congrArg Activity.held activity) rfl rfl) rfl
  · rintro _ ⟨⟩
    exact .inr (reaping.unknown_of_allocated unknown allocated)

omit reaping unknown allocated

theorem spawn (parent : Option Pid) (task : Task) (assignedCpu sighand : Nat)
    (reaping : Reaping kernel .home kernel) (below : kernel.nextPid < 2 ^ 32 - 1) :
    Reaping kernel (.unborn (kernel.spawned parent task assignedCpu sighand).kin)
      { kernel with nextPid := min (kernel.nextPid + 1) (2 ^ 32 - 1) } := by
  have grows := (lt_nextPid below).le
  refine (reaping.count grows).bear
    (reaping.places.spawn parent task assignedCpu sighand below) fun other linked => ?_
  exact absurd (reaping.links other _ linked).1 (Nat.lt_irrefl _)

theorem keeps [UserSpaces μ] (reaping : Reaping kernel .home kernel)
    (distinct : kernel.Distinct (step, [])) (unknown : ∀ cpu pid, step = .allocate cpu (some pid) →
      ∀ parent, pid ∉ kernel.parentChildren parent) :
    Keeps True (Reaped kernel) kernel step where
  follows _ _ _ _ _ follows holds fair :=
    reaping_follows follows fair
      (holds (Fair.of_suffix fair (tracks_advances.toTraces.follows follows).journal))
  shows cpu current _ :=
    reaping.stay (.of_eq (Prod.ext rfl (funext (activity_setCurrent _ _ _)))) (.of_eq rfl) rfl rfl
      rfl rfl
  passes _ _ _ _ passes holds fair := by
    rw [passes.journal] at fair
    exact (holds fair).stay passes.stands (.of_eq passes.journal) passes.zombies passes.childEvents
      passes.parentChildren passes.nextPid
  resigns _ resigned _ :=
    reaping.stay (.of_map resigned) (.of_eq rfl) rfl rfl rfl rfl
  regroups _ regroups _ := by
    refine reaping.stay regroups.stands (.of_eq ?_) ?_ ?_ ?_ ?_ <;> rw [regroups.rest]
  looks _ _ _ _ _ _ fair := reaping.look _ _ _ _ fair
  allocates cpu _ _ _ _ same activity allocated _ := by
    subst same
    refine reaping.allocate (fun wanted asked => ?_) allocated distinct activity
    subst asked
    exact unknown cpu wanted rfl
  goesOn _ _ _ goes holds fair :=
    (holds fair).stay (.of_turn goes) (.of_eq rfl) rfl rfl rfl rfl
  takeOff _ _ held _ := reaping.takeOff held
  land _ _ _ _ _ _ _ flown fair := (flown fair).land
  insert _ _ _ params task assignedCpu sighand _ activity _ _ :=
    reaping.insert params task assignedCpu sighand activity
  spawn parent task assignedCpu sighand same _ := by
    subst same
    exact reaping.spawn parent task assignedCpu sighand distinct
  execve _ _ task _ activity _ := by
    refine kept_of_execve (I := Reaping kernel .home) activity
      (reaping.note [_] rfl (forall_mem_singleton.mpr trivial))
      (fun _ _ wakes holds => holds.of_wakes wakes) ?_
    intro middle held holds
    refine holds.turn (holds.places.keep held rfl) ?_ (nofun) (nofun) (fun _ => id) fun _ => id
    rintro _ ⟨⟩
    exact .lives (.held held rfl rfl) rfl

theorem moves [UserSpaces μ] {events : List Event} (sound : Sound kernel)
    (reaping : Reaping kernel .home kernel) (moves : Moves kernel step after)
    (journal : after.journal = events ++ kernel.journal) (tidy : kernel.Tidy (step, events)) :
    Reaping after .home after := by
  have keeps := reaping.keeps tidy.distinct tidy.unknown
  rcases keeps.moves sound.keyed sound.running (fun _ => trivial)
    (fun _ => reaping) moves with still | blocks
  · refine (still fun other same => ?_).restart (fun _ => id) suffix_rfl
    cases append_cancel_right (same.symm.trans journal)
    exact tidy.fair
  · exact reaping.of_blocks blocks

theorem start (cpuCount : Nat) (spaces : Nat → μ) :
    Reaping (new cpuCount spaces) .home (new cpuCount spaces) where
  places := .start cpuCount spaces
  waits _ := id
  exits _ _ _ queued := nomatch queued
  once _ _ := Nat.zero_le _
  dead _ dies := nomatch dies
  links _ _ linked := nomatch linked
  reserved _ _ reserves := nomatch reserves
  past _ past := nomatch past
  silent := trivial
  grown := suffix_rfl

end Reaping

namespace Kernel

/-- A wait has returned the event, and this is what had happened before. -/
def Returned (kernel : Kernel μ) (parent : Pid) (event : ChildEvent) (older : List Event) : Prop :=
  ∃ newer, kernel.journal = newer ++ .consumed parent event :: older ∨
    kernel.journal = newer ++ .seen parent event :: older

theorem Returned.not_spent {kernel : Kernel μ} {parent : Pid} {event : ChildEvent}
    {older : List Event} (returned : kernel.Returned parent event older)
    (silent : Silent kernel.journal) : spent event.pid older = false := by
  rcases returned with ⟨newer, journal | journal⟩
  all_goals
    rw [journal] at silent
    exact silent.of_append.1 event.pid rfl

/-- As long as exits are taken from the queues, no wait returns an event of a
child after its exit, and neither a zombie nor a link nor an event is left of the
child; its descriptor is marked. -/
theorem exit_is_reaped_once [UserSpaces μ] {cpuCount : Nat} {spaces : Nat → μ}
    {labels : List (Step μ × List Event)} {kernel : Kernel μ}
    (run : Run (Guarded Tidy Performs) (new cpuCount spaces) labels kernel) :
    (∀ parent event older, kernel.Returned parent event older → spent event.pid older = false) ∧
      ∀ child, spent child kernel.journal → kernel.zombies child = none ∧
        (∀ parent, child ∉ kernel.parentChildren parent) ∧
        (∀ parent, ∀ event ∈ kernel.childEvents parent, event.pid ≠ child) ∧
        marked child kernel.journal := by
  obtain ⟨-, reaping⟩ := invariant_of_run (P := fun kernel => Reaping kernel .home kernel) run
    (fun sound reaping tidy journal moves => reaping.moves sound moves journal tidy)
    (Reaping.start cpuCount spaces)
  refine ⟨fun parent event older returned => returned.not_spent reaping.silent,
    fun child past => ?_⟩
  obtain ⟨nowhere, unlinked, untold, noted⟩ := reaping.past child past
  refine ⟨Option.eq_none_iff_forall_ne_some.mpr fun zombie found => ?_, fun parent linked => ?_,
    untold, noted⟩
  · obtain ⟨_, comes, -⟩ := nowhere _ (.zombie found rfl)
    nomatch comes
  · obtain ⟨_, comes, -⟩ := unlinked parent linked
    nomatch comes

/-! ## A child that exits -/

/-- Every event of a queue has been recorded. -/
def Logged (kernel : Kernel μ) : Prop :=
  ∀ parent, ∀ event ∈ kernel.childEvents parent, .queued parent event ∈ kernel.journal

theorem logged_moves [UserSpaces μ] (kernel : Kernel μ) (step : Step μ) (after : Kernel μ)
    (sound : Sound kernel) (logged : Logged kernel) (moves : Moves kernel step after) :
    Logged after := by
  have keep {events : List Event} (tells : Tells kernel after events) : Logged after := by
    intro parent event queued
    rw [tells.journal, mem_append]
    exact (tells.queued parent event queued).symm.imp_right (logged parent event)
  rcases tracks_told.moves sound.keyed sound.running (fun _ _ => trivial)
    (fun _ _ _ => .of_eq suffix_rfl rfl rfl) moves with
    ⟨events, tells⟩ |
    ⟨cpu, ready, process, block, context, timers, futexes, -, activity, rfl, -⟩ |
    ⟨cpu, process, signal, action, -, -, rfl⟩
  · exact keep tells
  · exact logged
  · obtain ⟨events, tells⟩ := told_mapProcesses kernel (resigned_shareActions process.sighand
      fun signals => (signals.setAction signal action).2)
    exact keep tells

/-- A check that is enough for a step to be tidy: nothing but exits has been
queued, and none of them is handed over. -/
def tidies [UserSpaces μ] (kernel : Kernel μ) (step : Step μ) : Bool :=
  ((kernel.posts step).all fun
    | .woke _ _ => false
    | .consumed _ _ => kernel.journal.all fun
        | .queued _ ⟨_, .stopped _⟩ | .queued _ ⟨_, .continued⟩ => false
        | _ => true
    | _ => true) && kernel.distinguishes step

theorem tidy_of_tidies [UserSpaces μ] (kernel : Kernel μ) (step : Step μ) (_ : Sound kernel)
    (logged : Logged kernel) (passed : kernel.tidies step) :
    kernel.Tidy (step, kernel.posts step) := by
  unfold tidies at passed
  rw [Bool.and_eq_true, all_eq_true] at passed
  obtain ⟨posted, own⟩ := passed
  constructor
  · exact distinct_of_distinguishes own _
  · rintro cpu pid rfl
    nomatch own
  constructor
  · exact fun parent child status member => nomatch posted _ member
  intro parent child status member other event queued same
  have exits := all_eq_true.mp (posted _ member) _ (logged other event queued)
  obtain ⟨pid, kind⟩ := event
  cases kind with
  | exited status => exact ⟨status, rfl⟩
  | stopped | continued => nomatch exits

/-- The parent takes the exit of its child from the queue. -/
theorem exit_is_reaped_once_from_queue :
    ∃ labels last, Run (Guarded Tidy Performs) (blank 2) labels last ∧
      labels.map Prod.fst = callSteps ++ forkSteps ++ exitSteps ++ (waitSteps .any).take 2 ∧
      spent 2 last.journal ∧ last.zombies 2 = none ∧
      (∀ parent, 2 ∉ last.parentChildren parent) ∧
      (∀ parent, ∀ event ∈ last.childEvents parent, event.pid ≠ 2) ∧ marked 2 last.journal := by
  have found : ((blank 2).performWhere tidies (callSteps ++ forkSteps ++ exitSteps ++
      (waitSteps .any).take 2)).map (fun last => spent 2 last.journal) = some true := by
    decide +kernel
  obtain ⟨last, performed, past⟩ := Option.map_eq_some_iff.mp found
  obtain ⟨labels, same, run⟩ := exists_guarded_run_of_invariant tidy_of_tidies logged_moves
    (sound_new 2 _) (nofun) performed
  exact ⟨labels, last, run, same, past, (exit_is_reaped_once run).2 2 past⟩

/-- The exit is handed over to the parent that waits for it, and the descriptor of
the child is not marked. -/
theorem handed_over_exit_is_not_marked : ∃ labels last, Run Performs (blank 2) labels last ∧
      labels.map Prod.fst = callSteps ++ forkSteps ++ waitSteps .any ++ [.finishBlock 0 false] ++
        exitSteps ∧
      .consumed 1 ⟨2, .exited 0⟩ ∈ last.journal ∧ spent 2 last.journal ∧
      marked 2 last.journal = false := by
  have found : ((blank 2).performAll (callSteps ++ forkSteps ++ waitSteps .any ++
      [.finishBlock 0 false] ++ exitSteps)).map (fun last =>
        (decide (.consumed 1 ⟨2, .exited 0⟩ ∈ last.journal), spent 2 last.journal,
          marked 2 last.journal)) = some (true, true, false) := by
    decide +kernel
  obtain ⟨labels, last, same, run, values⟩ := exists_run found
  simp only [Prod.mk.injEq, decide_eq_true_eq] at values
  exact ⟨labels, last, run, same, values⟩

end Kernel

end AetherKernel.Sched
