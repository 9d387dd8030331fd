import AetherKernel.Lib.Transition
import AetherKernel.Sched.Undisturbed
import AetherKernel.Signal.Resume

/-!
# Every step has a label

A step adds to the journal what it has done, and keeps each process of the
table under its own pid.  So every sequence of steps is a run with labels.
-/

namespace AetherKernel.Sched

open Lib Signal Std Function List

variable {μ : Type}

namespace Kernel

/-- The journal has grown, and processes are still found under their pids, and
those that wait for a futex under its key. -/
structure Advances (before after : Kernel μ) : Prop where
  cpuCount : after.cpuCount = before.cpuCount
  journal : before.journal <:+ after.journal
  keyed : Keyed before → Keyed after
  tracked : before.Tracked → after.Tracked

namespace Advances

variable {first second third : Kernel μ}

theorem trans (earlier : Advances first second) (later : Advances second third) :
    Advances first third :=
  ⟨later.cpuCount.trans earlier.cpuCount, earlier.journal.trans later.journal,
    later.keyed ∘ earlier.keyed, later.tracked ∘ earlier.tracked⟩

theorem of_eq (cpuCount : second.cpuCount = first.cpuCount)
    (journal : first.journal <:+ second.journal) (processes : second.processes = first.processes)
    (blockedFutexes : second.blockedFutexes = first.blockedFutexes) : Advances first second := by
  refine ⟨cpuCount, journal, fun keyed => ?_, fun tracked => ?_⟩
  · unfold Keyed
    rw [processes]
    exact keyed
  · intro _ _ _ _ _ found blocked
    rw [processes] at found
    exact blockedFutexes ▸ tracked _ _ _ _ _ found blocked

/-- The state of a process is not changed. -/
theorem tracked_of_state (processes : ∀ pid process, second.processes pid = some process →
      ∃ former, first.processes pid = some former ∧ former.state = process.state)
    (blockedFutexes : second.blockedFutexes = first.blockedFutexes) (tracked : first.Tracked) :
    second.Tracked := by
  intro pid process _ _ _ found blocked
  obtain ⟨former, known, same⟩ := processes pid process found
  exact blockedFutexes ▸ tracked _ _ _ _ _ known (same.trans blocked)

theorem of_stirs {calm : Prop} (stirs : Stirs calm first second) : Advances first second := by
  obtain ⟨events, journal, -⟩ := stirs.journal
  refine ⟨stirs.cpuCount, ⟨events, journal.symm⟩, fun keyed pid process found => ?_, stirs.tracked⟩
  obtain ⟨origin, known, touched⟩ := stirs.exists_origin found
  rw [touched.identity]
  exact keyed pid origin known

end Advances

variable {kernel : Kernel μ} {pid other : Pid} {process stored : KernelProcess}

theorem found_store (found : (kernel.store pid process).processes other = some stored) :
    other = pid ∧ stored = process ∨ other ≠ pid ∧ kernel.processes other = some stored := by
  by_cases here : other = pid
  · subst here
    simp only [store, update_self, Option.some.injEq] at found
    exact .inl ⟨rfl, found.symm⟩
  · simp only [store, update_of_ne here] at found
    exact .inr ⟨here, found⟩

theorem found_drop (found : (kernel.drop pid).processes other = some stored) :
    other ≠ pid ∧ kernel.processes other = some stored := by
  by_cases here : other = pid
  · subst here
    simp [drop] at found
  · simp only [drop, update_of_ne here] at found
    exact ⟨here, found⟩

variable (kernel) {before after : Kernel μ}

theorem keyed_store (process : KernelProcess) (keyed : Keyed kernel) :
    Keyed (kernel.store process.pid process) := by
  intro pid stored found
  rcases found_store found with ⟨rfl, rfl⟩ | ⟨-, found⟩
  · rfl
  · exact keyed pid stored found

theorem advances_drop (pid : Pid) : Advances kernel (kernel.drop pid) :=
  ⟨rfl, suffix_rfl, fun keyed other process found =>
    keyed other process (found_drop found).2,
    fun tracked _ _ _ _ _ found => tracked _ _ _ _ _ (found_drop found).2⟩

theorem advances_mapProcesses {change : KernelProcess → KernelProcess}
    (signals : ∀ process, Resigned process (change process)) :
    Advances kernel (kernel.mapProcesses change) := by
  refine ⟨rfl, suffix_rfl, fun keyed pid process found => ?_,
    Advances.tracked_of_state (fun pid process found => ?_) rfl⟩
  all_goals obtain ⟨origin, known, rfl⟩ := Option.map_eq_some_iff.mp found
  · rw [signals]
    exact keyed pid origin known
  · exact ⟨origin, known, by rw [signals]⟩

theorem advances_regroups (regroups : Regroups before after) : Advances before after := by
  refine ⟨?_, ?_, fun keyed pid process found => ?_,
    Advances.tracked_of_state (fun pid process found => ?_) ?_⟩
  · rw [regroups.rest]
  · rw [regroups.rest]
  · obtain ⟨origin, known, group, rfl⟩ := regroups.exists_origin found
    exact keyed pid origin known
  · obtain ⟨origin, known, group, rfl⟩ := regroups.exists_origin found
    exact ⟨origin, known, rfl⟩
  · rw [regroups.rest]

theorem advances_notes (notes : Notes before after) : Advances before after := by
  obtain ⟨events, journal, -⟩ := notes.journal
  refine ⟨by rw [notes.rest], ⟨events, journal.symm⟩, fun keyed => ?_,
    Advances.tracked_of_state (fun _ process found => ?_) (by rw [notes.rest])⟩
  · unfold Keyed
    rw [notes.processes]
    exact keyed
  · exact ⟨process, notes.processes ▸ found, rfl⟩

theorem tracks_advances : Tracks (fun _ => True) (Advances (μ := μ)) where
  trans _ _ _ := .trans
  stirs _ _ := .of_stirs
  aside _ _ aside := by
    refine .of_eq aside.cpuCount (aside.journal ▸ suffix_rfl) aside.processes ?_
    rw [aside.rest]
  count _ _ := .of_eq rfl suffix_rfl rfl rfl
  notes _ _ := advances_notes
  signal kernel pid info := .of_stirs (stirs_signalProcess kernel pid info)
  hear _ _ _ _ := .of_eq rfl suffix_rfl rfl rfl
  queue _ _ _ _ := .of_eq rfl (suffix_cons _ _) rfl rfl
  pass _ _ _ _ _ _ _ _ _ := .of_eq rfl ((suffix_cons _ _).trans (suffix_cons _ _)) rfl rfl
  woke _ _ _ _ _ _ := .of_eq rfl (suffix_cons _ _) rfl rfl
  created _ _ := .of_eq rfl (suffix_cons _ _) rfl rfl
  left _ _ := .of_eq rfl (suffix_cons _ _) rfl rfl
  store kernel process runnable := ⟨rfl, suffix_rfl, keyed_store kernel process, fun tracked =>
    tracked.store rfl (fun _ _ _ => id) fun _ _ _ blocked => nomatch runnable.symm.trans blocked⟩
  drop := advances_drop
  arm _ _ _ _ := .of_eq rfl suffix_rfl rfl rfl
  exec kernel _ := advances_mapProcesses kernel (resigned_shareActions _ _)
  turn _ _ _ _ := .of_eq rfl suffix_rfl rfl rfl
  passes _ _ _ _ passes := by
    refine ⟨passes.cpuCount, passes.journal ▸ suffix_rfl, passes.keyed,
      Advances.tracked_of_state (fun pid process found => ?_) passes.blockedFutexes⟩
    obtain ⟨origin, known, same⟩ := passes.exists_origin found
    exact ⟨origin, known, by rw [same]⟩
  regroups _ _ := advances_regroups
  takePending kernel pid mask := by
    refine advances_mapProcesses kernel fun process => ?_
    split <;> rfl

section Steps

variable [UserSpaces μ] {kernel after last : Kernel μ} {step : Step μ} {steps : List (Step μ)}
  {G : Kernel μ → Step μ × List Event → Prop} {allowed : Kernel μ → Step μ → Bool}
  {cpuCount : Nat} {spaces : Nat → μ}

theorem advances_moves (sound : Sound kernel)
    (moves : Moves kernel step after) : Advances kernel after := by
  rcases tracks_advances.moves sound.keyed sound.running (fun _ _ => trivial)
    (fun _ _ _ => .of_eq rfl suffix_rfl rfl rfl) moves with
    advances | ⟨cpu, ready, process, block, context, timers, futexes, -, -, rfl, tracks⟩ |
    ⟨cpu, process, signal, action, -, -, rfl⟩
  · exact advances
  · refine ⟨rfl, suffix_rfl, keyed_store kernel { process with
      kernelContext := some context, wakeResult := none, state := .blocked block }, ?_⟩
    exact fun tracked => tracked.store rfl
      (fun key other _ member => tracks key other (.inl member))
      fun key bitset deadline blocked =>
        tracks key process.pid (.inr ⟨rfl, bitset, deadline, blocked⟩)
  · exact advances_mapProcesses kernel (resigned_shareActions _ _)

/-! ## What holds in every state -/

omit [UserSpaces μ] in
theorem sound_new (cpuCount : Nat) (spaces : Nat → μ) : Sound (new cpuCount spaces) :=
  ⟨fun _ _ none => (nomatch none), fun _ _ _ _ _ none => (nomatch none), fun _ _ => rfl,
    fun _ _ held => nomatch held⟩

theorem within_of_moves {cpu : Nat}
    (moves : Moves kernel step after) (acts : actor step = some cpu) : cpu < kernel.cpuCount := by
  cases moves with
  | take within | publish within | trap within | enter within | release within =>
    cases acts
    exact within
  | call within acting => exact Option.some.inj (acting.symm.trans acts) ▸ within
  | spawn | service | takePending | fileReady | tick | memory => nomatch acts

theorem sound_moves (sound : Sound kernel) (moves : Moves kernel step after) : Sound after := by
  have advances := advances_moves sound moves
  refine ⟨advances.keyed sound.keyed, advances.tracked sound.tracked, fun cpu beyond => ?_,
    fun cpu process held => ?_⟩
  · rw [advances.cpuCount] at beyond
    have apart : actor step ≠ some cpu := fun acts =>
      Nat.not_lt_of_le beyond (within_of_moves moves acts)
    have idle := sound.outside cpu beyond
    rw [(undisturbed_moves sound moves apart).not_held (by rw [idle]; rfl), idle]
  by_cases acts : actor step = some cpu
  · have turn := turn_of_moves sound moves acts
    have before := sound.running cpu
    generalize (kernel.cpus cpu).activity = old at turn before
    generalize (after.cpus cpu).activity = new at turn held
    cases turn with
    | idles | trap | release => nomatch held
    | takes _ running =>
      cases held
      exact running
    | publish _ work taken => exact (entered_held held).2.trans (before taken rfl)
    | enter _ user =>
      cases held
      exact before user rfl
    | call turn => exact (turn.held held).2.trans (before _ rfl)
  · obtain ⟨former, holds, resigned⟩ :=
      (undisturbed_moves sound moves acts).exists_held held
    rw [resigned]
    exact sound.running cpu former holds

/-! ## Runs -/

/-- What steps keep in sound states holds after every run from the start. -/
theorem invariant_of_run {P : Kernel μ → Prop} {labels : List (Step μ × List Event)}
    (run : Run (Guarded G Performs) (new cpuCount spaces) labels last)
    (kept : ∀ {kernel step events after}, Sound kernel → P kernel → G kernel (step, events) →
      after.journal = events ++ kernel.journal → Moves kernel step after → P after)
    (initially : P (new cpuCount spaces)) : Sound last ∧ P last := by
  have preserved (kernel : Kernel μ) (label : Step μ × List Event) (after : Kernel μ) :
      Sound kernel ∧ P kernel → Guarded G Performs kernel label after →
        Sound after ∧ P after := by
    rintro ⟨sound, held⟩ ⟨allowed, performed, journal⟩
    have moves := moves_of_perform performed
    exact ⟨sound_moves sound moves, kept sound held allowed journal moves⟩
  exact (run.invariant preserved ⟨sound_new cpuCount spaces, initially⟩ :)

/-- What a step would add to the journal. -/
def posts (kernel : Kernel μ) (step : Step μ) : List Event :=
  match kernel.perform step with
  | none => []
  | some after => after.journal.take (after.journal.length - kernel.journal.length)

/-- Several steps, each of them checked before it is made. -/
def performWhere (allowed : Kernel μ → Step μ → Bool) (kernel : Kernel μ) :
    List (Step μ) → Option (Kernel μ)
  | [] => some kernel
  | step :: rest =>
    if allowed kernel step then
      (kernel.perform step).bind fun kernel => performWhere allowed kernel rest
    else none

/-- Several steps, one after the other. -/
def performAll (kernel : Kernel μ) : List (Step μ) → Option (Kernel μ) :=
  kernel.performWhere fun _ _ => true

/-- Steps that pass a check are a run under any guard that the check implies in
the states in which an invariant holds. -/
theorem exists_guarded_run_of_invariant {invariant : Kernel μ → Prop}
    (enough : ∀ kernel step, Sound kernel → invariant kernel → allowed kernel step →
      G kernel (step, kernel.posts step))
    (kept : ∀ kernel step after, Sound kernel → invariant kernel → Moves kernel step after →
      invariant after) (sound : Sound kernel) (holds : invariant kernel)
    (performed : kernel.performWhere allowed steps = some last) :
    ∃ labels, labels.map Prod.fst = steps ∧ Run (Guarded G Performs) kernel labels last := by
  induction steps generalizing kernel with
  | nil =>
    cases performed
    exact ⟨[], rfl, .nil⟩
  | cons step rest ih =>
    unfold performWhere at performed
    split at performed
    · rename_i passed
      obtain ⟨after, moved, more⟩ := Option.bind_eq_some_iff.mp performed
      have moves := moves_of_perform moved
      obtain ⟨-, ⟨events, journal⟩, -⟩ := advances_moves sound moves
      obtain ⟨labels, same, run⟩ :=
        ih (sound_moves sound moves) (kept kernel step after sound holds moves) more
      have posted : kernel.posts step = events := by simp [posts, moved, ← journal]
      have fits := enough kernel step sound holds passed
      rw [posted] at fits
      exact ⟨(step, events) :: labels, by rw [map_cons, same],
        .cons ⟨fits, moved, journal.symm⟩ run⟩
    · cases performed

variable {A : Type} {view : Kernel μ → A} {value : A}

/-- Steps that pass a check are a run under any guard that the check implies. -/
theorem exists_guarded_run (enough : ∀ kernel step, Sound kernel → allowed kernel step →
      G kernel (step, kernel.posts step))
    (found : ((new cpuCount spaces).performWhere allowed steps).map view = some value) :
    ∃ labels last, labels.map Prod.fst = steps ∧
      Run (Guarded G Performs) (new cpuCount spaces) labels last ∧ view last = value := by
  obtain ⟨last, performed, seen⟩ := Option.map_eq_some_iff.mp found
  obtain ⟨labels, same, run⟩ := exists_guarded_run_of_invariant
    (fun kernel step sound _ => enough kernel step sound) (fun _ _ _ _ _ _ => trivial)
    (sound_new cpuCount spaces) trivial performed
  exact ⟨labels, last, same, run, seen⟩

/-- Steps that can be performed are a run, whatever they have done. -/
theorem exists_run (found : ((new cpuCount spaces).performAll steps).map view = some value) :
    ∃ labels last, labels.map Prod.fst = steps ∧ Run Performs (new cpuCount spaces) labels last ∧
      view last = value := by
  obtain ⟨labels, last, same, run, seen⟩ :=
    exists_guarded_run (G := fun _ _ => True) (fun _ _ _ _ => trivial) found
  exact ⟨labels, last, same, run.mono fun _ _ _ performs => performs.2, seen⟩

end Steps

/-- Every address can be read and written. -/
instance : UserSpaces (BitVec 64 → Byte) :=
  ⟨flatSpace⟩

/-- A machine on which nothing has happened. -/
def blank (cpuCount : Nat) : Kernel (BitVec 64 → Byte) :=
  new cpuCount fun _ _ => 0

/-- A program that starts at the given address. -/
def program (entry : BitVec 64) (addressSpace : Nat) : Task :=
  ⟨UserContext.new entry 0x1000, [], addressSpace⟩

/-- Process 1 has entered a call on the first processor. -/
def callSteps : List (Step (BitVec 64 → Byte)) :=
  [.spawn none (program 0x400000 0) 0 0, .take 0, .publish 0, .enter 0]

end Kernel

end AetherKernel.Sched
