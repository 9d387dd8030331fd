import AetherKernel.Sched.Manager

/-!
# What waking and signalling can change

Most operations of the manager only let processes run again.  They change the
state and the result of a block, fill run queues, and leave everything else
alone; a signal also becomes pending.  This is said once here, and the
invariants of the manager follow from it.
-/

namespace AetherKernel.Sched

open Lib Signal Std Function

/-! ## One process -/

def ProcessState.isBlocked : ProcessState → Bool
  | .blocked _ => true
  | _ => false

/-- The state of a process is the same, or it can run now, or its futex wait
was moved to another key. -/
inductive Eased (before after : KernelProcess) : Prop
  | same (state : after.state = before.state) (result : after.wakeResult = before.wakeResult)
  | woken (state : after.state = .runnable)
      (result : before.state.isBlocked = false → after.wakeResult = before.wakeResult)
  | moved {key target : FutexKey} {bitset : BitVec 32} {deadline : Option Nat}
      (blocked : before.state = .blocked (.futex key bitset deadline))
      (state : after.state = .blocked (.futex target bitset deadline))
      (result : after.wakeResult = before.wakeResult)

/-- A process was woken, moved or signalled; `calm` says that it was not
signalled. -/
structure Touched (calm : Prop) (before after : KernelProcess) : Prop where
  rest : after = { before with
      state := after.state, wakeResult := after.wakeResult, signals := after.signals }
  eased : Eased before after
  signals : calm → after.signals = before.signals

namespace Touched

variable {calm : Prop} {first second third : KernelProcess}

theorem refl (calm : Prop) (process : KernelProcess) : Touched calm process process :=
  ⟨rfl, .same rfl rfl, fun _ => rfl⟩

theorem identity (touched : Touched calm first second) : second.identity = first.identity := by
  rw [touched.rest]

theorem assignedCpu (touched : Touched calm first second) :
    second.assignedCpu = first.assignedCpu := by
  rw [touched.rest]

end Touched

variable {before after first second third : KernelProcess} {μ : Type}

/-- A process that can run is left as it is. -/
theorem Eased.of_runnable (eased : Eased before after) (runnable : before.state = .runnable) :
    after.state = .runnable := by
  cases eased with
  | same state => exact state.trans runnable
  | woken state => exact state
  | moved blocked => exact absurd (runnable.symm.trans blocked) (by simp)

/-- A process is blocked afterwards only if it was before. -/
theorem Eased.blocked {block : BlockType}
    (eased : Eased before after) (blocked : after.state = .blocked block) :
    before.state = .blocked block ∨
      ∃ key target bitset deadline, before.state = .blocked (.futex key bitset deadline) ∧
        block = .futex target bitset deadline := by
  cases eased with
  | same state => exact .inl (state.symm.trans blocked)
  | woken state => exact absurd (state.symm.trans blocked) (by simp)
  | moved former state =>
    have same := state.symm.trans blocked
    cases same
    exact .inr ⟨_, _, _, _, former, rfl⟩

theorem Eased.trans (earlier : Eased first second)
    (later : Eased second third) : Eased first third := by
  cases later with
  | same state result =>
    cases earlier with
    | same former kept => exact .same (state.trans former) (result.trans kept)
    | woken former kept =>
      exact .woken (state.trans former) fun free => result.trans (kept free)
    | moved blocked former kept => exact .moved blocked (state.trans former) (result.trans kept)
  | woken state result =>
    cases earlier with
    | same former kept =>
      exact .woken state fun free => (result (former ▸ free)).trans kept
    | woken former kept =>
      exact .woken state fun free => (result (by rw [former]; rfl)).trans (kept free)
    | moved blocked =>
      exact .woken state fun free => absurd free (by rw [blocked]; simp [ProcessState.isBlocked])
  | moved blocked state result =>
    cases earlier with
    | same former kept => exact .moved (former.symm.trans blocked) state (result.trans kept)
    | woken former => exact absurd (former.symm.trans blocked) (by simp)
    | moved older former kept =>
      have same := former.symm.trans blocked
      cases same
      exact .moved older state (result.trans kept)

theorem Touched.trans {calm : Prop}
    (earlier : Touched calm first second) (later : Touched calm second third) :
    Touched calm first third := by
  refine ⟨?_, earlier.eased.trans later.eased, fun holds => ?_⟩
  · rw [later.rest, earlier.rest]
  · exact (later.signals holds).trans (earlier.signals holds)

/-! ## The manager -/

/-- Futex wakes and signals; the other events are about processes that come and
go, and what their parents are told. -/
def Event.Minor : Event → Prop
  | .counted _ | .notified _ _ => True
  | .created _ | .reaped _ | .queued _ _ | .passed _ _ | .woke _ _ | .consumed _ _ | .seen _ _
  | .marked _ | .left _ => False

theorem Event.minor_counted (pid : Pid) : (Event.counted pid).Minor :=
  trivial

/-- A process that is blocked on a futex is in the set of its key, in which wakes
look for it. -/
def Kernel.Tracked (kernel : Kernel μ) : Prop :=
  ∀ pid process key bitset deadline, kernel.processes pid = some process →
    process.state = .blocked (.futex key bitset deadline) → pid ∈ kernel.blockedFutexes key

/-- Nothing has happened but that processes were woken, moved or signalled. -/
structure Stirs (calm : Prop) (before after : Kernel μ) : Prop where
  cpuCount : after.cpuCount = before.cpuCount
  activity : ∀ cpu, (after.cpus cpu).activity = (before.cpus cpu).activity
  current : ∀ cpu, (after.cpus cpu).current = (before.cpus cpu).current
  queue : ∀ cpu, ∀ pid ∈ (before.cpus cpu).runQueue, pid ∈ (after.cpus cpu).runQueue
  nextPid : after.nextPid = before.nextPid
  zombies : after.zombies = before.zombies
  childEvents : after.childEvents = before.childEvents
  queuedSignals : after.queuedSignals = before.queuedSignals
  processes : ∀ pid, Option.Rel (Touched calm) (before.processes pid) (after.processes pid)
  tracked : before.Tracked → after.Tracked
  journal : ∃ events, after.journal = events ++ before.journal ∧ ∀ event ∈ events, event.Minor

namespace Stirs

variable {calm : Prop} {first second third : Kernel μ} {α : Type} {R : α → α → Prop}

theorem optionRel_trans (trans : ∀ a b c, R a b → R b c → R a c)
    {first second third : Option α} (one : Option.Rel R first second)
    (two : Option.Rel R second third) : Option.Rel R first third := by
  cases one with
  | none => exact two
  | some one =>
    cases two with
    | some two => exact .some (trans _ _ _ one two)

theorem optionRel_refl (reflexive : ∀ a, R a a) (option : Option α) :
    Option.Rel R option option := by
  cases option with
  | none => exact .none
  | some value => exact .some (reflexive value)

/-- An update that does not touch what the relation speaks of. -/
theorem of_eq (cpuCount : second.cpuCount = first.cpuCount := by rfl)
    (cpus : second.cpus = first.cpus := by rfl) (nextPid : second.nextPid = first.nextPid := by rfl)
    (zombies : second.zombies = first.zombies := by rfl)
    (childEvents : second.childEvents = first.childEvents := by rfl)
    (queuedSignals : second.queuedSignals = first.queuedSignals := by rfl)
    (processes : second.processes = first.processes := by rfl)
    (blockedFutexes : second.blockedFutexes = first.blockedFutexes := by rfl)
    (journal : second.journal = first.journal := by rfl) : Stirs calm first second where
  cpuCount
  activity cpu := by rw [cpus]
  current cpu := by rw [cpus]
  queue cpu pid member := by rwa [cpus]
  nextPid
  zombies
  childEvents
  queuedSignals
  processes pid := by
    rw [processes]
    exact optionRel_refl (Touched.refl calm) _
  tracked tracked _ _ _ _ _ found blocked :=
    blockedFutexes ▸ tracked _ _ _ _ _ (processes ▸ found) blocked
  journal := ⟨[], journal, nofun⟩

theorem refl (calm : Prop) (kernel : Kernel μ) : Stirs calm kernel kernel :=
  of_eq

theorem trans (earlier : Stirs calm first second) (later : Stirs calm second third) :
    Stirs calm first third where
  cpuCount := later.cpuCount.trans earlier.cpuCount
  activity cpu := (later.activity cpu).trans (earlier.activity cpu)
  current cpu := (later.current cpu).trans (earlier.current cpu)
  queue cpu pid member := later.queue cpu pid (earlier.queue cpu pid member)
  nextPid := later.nextPid.trans earlier.nextPid
  zombies := later.zombies.trans earlier.zombies
  childEvents := later.childEvents.trans earlier.childEvents
  queuedSignals := later.queuedSignals.trans earlier.queuedSignals
  processes pid :=
    optionRel_trans (fun _ _ _ one two => one.trans two) (earlier.processes pid)
      (later.processes pid)
  tracked tracked := later.tracked (earlier.tracked tracked)
  journal := by
    obtain ⟨old, past, minor⟩ := earlier.journal
    obtain ⟨new, recent, others⟩ := later.journal
    exact ⟨new ++ old, by rw [recent, past, List.append_assoc],
      List.forall_mem_append.mpr ⟨others, minor⟩⟩

variable {process : KernelProcess} {pid : Pid} (stirs : Stirs calm first second)

include stirs

/-- What a process of the table has become. -/
theorem exists_touched (found : first.processes pid = some process) :
    ∃ after, second.processes pid = some after ∧ Touched calm process after := by
  have one := stirs.processes pid
  rw [found] at one
  generalize second.processes pid = after at one
  cases one with
  | some touched => exact ⟨_, rfl, touched⟩

/-- Where a process of the table comes from. -/
theorem exists_origin (found : second.processes pid = some process) :
    ∃ before, first.processes pid = some before ∧ Touched calm before process := by
  have one := stirs.processes pid
  rw [found] at one
  generalize first.processes pid = before at one
  cases one with
  | some touched => exact ⟨_, rfl, touched⟩

theorem isSome_processes (pid : Pid) :
    (second.processes pid).isSome = (first.processes pid).isSome := by
  have one := stirs.processes pid
  generalize first.processes pid = before at one ⊢
  generalize second.processes pid = after at one ⊢
  cases one with
  | none | some => rfl

end Stirs

/-! ## Elementary updates -/

namespace Kernel

variable {calm : Prop} {process : KernelProcess} {kernel : Kernel μ} {pid : Pid}

/-- A process is replaced; the others stay in their sets. -/
theorem Tracked.store {second : Kernel μ} (tracked : kernel.Tracked)
    (processes : second.processes = update kernel.processes pid (some after))
    (others : ∀ key other, other ≠ pid → other ∈ kernel.blockedFutexes key →
      other ∈ second.blockedFutexes key)
    (own : ∀ key bitset deadline, after.state = .blocked (.futex key bitset deadline) →
      pid ∈ second.blockedFutexes key) : second.Tracked := by
  intro other process key bitset deadline found blocked
  rw [processes] at found
  by_cases here : other = pid
  · subst here
    rw [update_self] at found
    cases found
    exact own key bitset deadline blocked
  · rw [update_of_ne here] at found
    exact others key other here (tracked _ _ _ _ _ found blocked)

/-- A process is replaced, and the sets of blocked processes follow it. -/
theorem stirs_update (found : kernel.processes pid = some process)
    (touched : Touched calm process after) (timers : TreeMap Nat (TreeSet Pid))
    {futexes : FutexKey → TreeSet Pid} (tracked : kernel.Tracked → { kernel.store pid after with
        blockedTimers := timers, blockedFutexes := futexes }.Tracked) :
    Stirs calm kernel
      { kernel.store pid after with blockedTimers := timers, blockedFutexes := futexes } where
  __ := Stirs.refl calm kernel
  tracked
  processes other := by
    by_cases here : other = pid
    · subst here
      simp only [store, update_self, found]
      exact .some touched
    · simp only [store, update_of_ne here]
      exact Stirs.optionRel_refl (Touched.refl calm) _

theorem stirs_store (found : kernel.processes pid = some process)
    (touched : Touched calm process after)
    (still : ∀ block, after.state = .blocked block → process.state = .blocked block) :
    Stirs calm kernel (kernel.store pid after) :=
  stirs_update found touched kernel.blockedTimers fun tracked =>
    tracked.store rfl (fun _ _ _ => id) fun _ _ _ blocked =>
      tracked _ _ _ _ _ found (still _ blocked)

theorem stirs_enqueueRunnablePid (calm : Prop) (kernel : Kernel μ) (pid : Pid) (cpu : Nat) :
    Stirs calm kernel (kernel.enqueueRunnablePid pid cpu) := by
  unfold enqueueRunnablePid
  dsimp only
  split
  · exact .refl calm kernel
  refine { Stirs.refl calm kernel with
    activity := ?_, current := ?_, queue := ?_, tracked := id }
  all_goals
    intro other
    by_cases here : other = cpu
    · subst here
      simp +contextual [setCpu]
    · simp [setCpu, update_of_ne here]

variable (kernel : Kernel μ) (pid : Pid)

theorem mem_runQueue_enqueueRunnablePid (cpu : Nat) :
    pid ∈ ((kernel.enqueueRunnablePid pid cpu).cpus cpu).runQueue := by
  unfold enqueueRunnablePid
  dsimp only
  split
  · assumption
  · simp [setCpu]

theorem enqueueRunnablePid_eq (cpu : Nat) :
    kernel.enqueueRunnablePid pid cpu =
      { kernel with cpus := (kernel.enqueueRunnablePid pid cpu).cpus } := by
  unfold enqueueRunnablePid
  dsimp only
  split <;> rfl

@[simp]
theorem processes_enqueueRunnablePid (cpu : Nat) :
    (kernel.enqueueRunnablePid pid cpu).processes = kernel.processes := by
  rw [enqueueRunnablePid_eq]

theorem stirs_record {event : Event} (minor : event.Minor) :
    Stirs calm kernel (kernel.record event) where
  __ := Stirs.refl calm kernel
  tracked := id
  journal := ⟨[event], rfl, fun _ member => by rw [List.mem_singleton.mp member]; exact minor⟩

/-- The tables of blocked processes are not looked at here. -/
theorem trackBlockedProcess_eq (state : ProcessState) :
    ∃ timers futexes, kernel.trackBlockedProcess pid state =
      { kernel with blockedTimers := timers, blockedFutexes := futexes } := by
  unfold trackBlockedProcess
  split
  · cases ‹Option Nat› <;> exact ⟨_, _, rfl⟩
  · exact ⟨_, _, rfl⟩
  · rename_i deadline
    cases deadline <;> exact ⟨_, _, rfl⟩
  · exact ⟨_, _, rfl⟩

theorem untrackBlockedProcess_eq (state : ProcessState) :
    ∃ timers futexes, kernel.untrackBlockedProcess pid state =
      { kernel with blockedTimers := timers, blockedFutexes := futexes } := by
  unfold untrackBlockedProcess
  split
  · cases ‹Option Nat› <;> exact ⟨_, _, rfl⟩
  · exact ⟨_, _, rfl⟩
  · rename_i deadline
    cases deadline <;> exact ⟨_, _, rfl⟩
  · exact ⟨_, _, rfl⟩

@[simp]
theorem processes_untrackBlockedProcess (state : ProcessState) :
    (kernel.untrackBlockedProcess pid state).processes = kernel.processes := by
  obtain ⟨timers, futexes, same⟩ := kernel.untrackBlockedProcess_eq pid state
  rw [same]

theorem touched_woken (calm : Prop) (blocked : process.state.isBlocked) (result : BlockResult) :
    Touched calm process { process with wakeResult := some result, state := .runnable } :=
  ⟨rfl, .woken rfl fun free => absurd (blocked.symm.trans free) (by decide), fun _ => rfl⟩

theorem mem_untrackBlockedProcess {key : FutexKey} {other : Pid} (apart : other ≠ pid)
    (state : ProcessState) (member : other ∈ kernel.blockedFutexes key) :
    other ∈ (kernel.untrackBlockedProcess pid state).blockedFutexes key := by
  have erased (known : FutexKey) :
      other ∈ update kernel.blockedFutexes known ((kernel.blockedFutexes known).erase pid) key := by
    by_cases here : key = known
    · subst here
      rw [update_self]
      exact TreeSet.mem_erase.mpr ⟨by simpa using apart.symm, member⟩
    · rwa [update_of_ne here]
  unfold untrackBlockedProcess
  split
  · cases ‹Option Nat› <;> exact member
  · exact member
  · rename_i deadline
    cases deadline <;> exact erased _
  · exact member

theorem mem_trackBlockedProcess {key : FutexKey} {other : Pid} (state : ProcessState)
    (member : other ∈ kernel.blockedFutexes key ∨
      other = pid ∧ ∃ bitset deadline, state = .blocked (.futex key bitset deadline)) :
    other ∈ (kernel.trackBlockedProcess pid state).blockedFutexes key := by
  unfold trackBlockedProcess
  split
  · rcases member with member | ⟨-, _, _, ⟨⟩⟩
    cases ‹Option Nat› <;> exact member
  · rcases member with member | ⟨-, _, _, ⟨⟩⟩
    exact member
  · rename_i known _ deadline
    have inserted :
        other ∈ update kernel.blockedFutexes known
          ((kernel.blockedFutexes known).insert pid) key := by
      by_cases here : key = known
      · subst here
        rw [update_self, TreeSet.mem_insert]
        exact member.symm.imp_left fun own => by simp [own.1]
      · rw [update_of_ne here]
        refine member.resolve_right ?_
        rintro ⟨-, _, _, ⟨⟩⟩
        exact here rfl
    cases deadline <;> exact inserted
  · rename_i other
    refine member.resolve_right ?_
    rintro ⟨-, bitset, deadline, same⟩
    exact other _ _ _ same

/-- Processes are taken out of the sets when they can run. -/
theorem stirs_untrackBlockedProcess {pid : Pid} (found : kernel.processes pid = some process)
    (free : process.state.isBlocked = false) (state : ProcessState) :
    Stirs calm kernel (kernel.untrackBlockedProcess pid state) := by
  have tracked (tracked : kernel.Tracked) : (kernel.untrackBlockedProcess pid state).Tracked := by
    intro other waiter key bitset deadline stored blocked
    rw [processes_untrackBlockedProcess] at stored
    refine kernel.mem_untrackBlockedProcess pid ?_ state (tracked _ _ _ _ _ stored blocked)
    rintro rfl
    cases found.symm.trans stored
    rw [blocked] at free
    cases free
  obtain ⟨timers, futexes, same⟩ := kernel.untrackBlockedProcess_eq pid state
  rw [same] at tracked ⊢
  exact { Stirs.refl calm kernel with tracked }

theorem store_untrackBlockedProcess (state : ProcessState) :
    (kernel.untrackBlockedProcess pid state).store pid process =
      (kernel.store pid process).untrackBlockedProcess pid state := by
  unfold untrackBlockedProcess
  split
  · cases ‹Option Nat› <;> rfl
  · rfl
  · rename_i deadline
    cases deadline <;> rfl
  · rfl

theorem stirs_unblock {pid : Pid}
    (found : kernel.processes pid = some process) (blocked : process.state.isBlocked)
    (result : BlockResult) : Stirs calm kernel (kernel.unblock pid process result) := by
  unfold unblock
  dsimp only
  rw [store_untrackBlockedProcess]
  refine Stirs.trans ?_ (stirs_enqueueRunnablePid calm _ pid _)
  exact (stirs_store found (touched_woken calm blocked result) nofun).trans
    (stirs_untrackBlockedProcess _ (update_self ..) rfl _)

/-- A process that waits for another futex is in the set of its new key. -/
theorem stirs_move {key target : FutexKey} {bitset : BitVec 32} {deadline : Option Nat}
    {pid : Pid} (found : kernel.processes pid = some process)
    (waiting : process.state = .blocked (.futex key bitset deadline)) :
    Stirs calm kernel (((kernel.untrackBlockedProcess pid process.state).store pid
      { process with state := .blocked (.futex target bitset deadline) }).trackBlockedProcess pid
        (.blocked (.futex target bitset deadline))) := by
  rw [store_untrackBlockedProcess]
  generalize moved : ({ process with state := .blocked (.futex target bitset deadline) } :
    KernelProcess) = after
  have touched : Touched calm process after := by
    subst moved
    exact ⟨rfl, .moved waiting rfl rfl, fun _ => rfl⟩
  have others (key : FutexKey) (other : Pid) (apart : other ≠ pid)
      (member : other ∈ kernel.blockedFutexes key) :=
    mem_trackBlockedProcess _ pid (.blocked (.futex target bitset deadline))
      (.inl ((kernel.store pid after).mem_untrackBlockedProcess pid apart process.state member))
  have own := mem_trackBlockedProcess ((kernel.store pid after).untrackBlockedProcess pid
    process.state) pid (.blocked (.futex target bitset deadline)) (.inr ⟨rfl, _, _, rfl⟩)
  obtain ⟨_, _, same⟩ := (kernel.store pid after).untrackBlockedProcess_eq pid process.state
  rw [same] at others own ⊢
  obtain ⟨_, _, same⟩ := trackBlockedProcess_eq
    { kernel.store pid after with blockedTimers := _, blockedFutexes := _ } pid
    (.blocked (.futex target bitset deadline))
  rw [same] at others own ⊢
  refine stirs_update found touched _ fun tracked => tracked.store rfl others ?_
  intro known _ _ blocked
  subst moved
  cases blocked
  exact own

/-! ## Signals -/

theorem touched_signalled (now : Nat) (info : SignalInfo) (process : KernelProcess) :
    Touched False process (signalled now info process) := by
  unfold signalled
  dsimp only
  split
  · split
    all_goals
      first
        | exact ⟨rfl, .woken rfl fun free => absurd free (by simp_all [ProcessState.isBlocked]),
            fun never => never.elim⟩
        | exact ⟨rfl, .same rfl rfl, fun never => never.elim⟩
  · exact ⟨rfl, .same rfl rfl, fun never => never.elim⟩

/-- A signal does not move a process to another block. -/
theorem blocked_of_signalled {now : Nat} {info : SignalInfo} {block : BlockType}
    (blocked : (signalled now info process).state = .blocked block) :
    process.state = .blocked block := by
  unfold signalled at blocked
  dsimp only at blocked
  split at blocked
  · split at blocked <;> first | cases blocked | exact blocked
  · exact blocked

theorem settle_eq (old new : KernelProcess) :
    ∃ cpus timers futexes, kernel.settle pid old new =
      { kernel.store pid new with cpus, blockedTimers := timers, blockedFutexes := futexes } := by
  unfold settle
  split
  · obtain ⟨timers, futexes, same⟩ := ((kernel.store pid new).enqueueRunnablePid pid
      new.assignedCpu).untrackBlockedProcess_eq pid old.state
    rw [same, enqueueRunnablePid_eq]
    exact ⟨_, _, _, rfl⟩
  · exact ⟨_, _, _, rfl⟩

theorem stirs_settle {pid : Pid}
    (found : kernel.processes pid = some process) (touched : Touched calm process after)
    (still : ∀ block, after.state = .blocked block → process.state = .blocked block) :
    Stirs calm kernel (kernel.settle pid process after) := by
  unfold settle
  refine (stirs_store found touched still).trans ?_
  split
  · rename_i ready
    have stored :
      ((kernel.store pid after).enqueueRunnablePid pid after.assignedCpu).processes pid =
        some after := by
      rw [processes_enqueueRunnablePid]
      exact update_self ..
    refine (stirs_enqueueRunnablePid calm _ pid _).trans (stirs_untrackBlockedProcess _ stored ?_ _)
    rw [ready.1]
    rfl
  · exact .refl calm _

theorem stirs_signalProcess (info : SignalInfo) :
    Stirs False kernel (kernel.signalProcess pid info) := by
  unfold signalProcess
  split
  · exact .refl False kernel
  rename_i process found
  refine Stirs.trans ?_ (stirs_record _ (show (Event.notified pid info).Minor from trivial))
  apply kernel.stirs_settle found
  · split
    · have resumed : Touched False process { process with state := .runnable } :=
        ⟨rfl, .woken rfl fun _ => rfl, fun _ => rfl⟩
      exact resumed.trans (touched_signalled _ _ _)
    · exact touched_signalled _ _ _
  · intro block blocked
    have before := blocked_of_signalled blocked
    split at before
    · cases before
    · exact before

end Kernel

end AetherKernel.Sched
