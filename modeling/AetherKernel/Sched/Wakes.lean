import AetherKernel.Sched.Stirs

/-!
# How processes are woken

Timers, files, futexes and the end of other processes let a process run again.
All of this is done by a few updates of the manager, which are listed here;
what each of them preserves, all of the operations preserve.
-/

namespace AetherKernel.Sched

open Lib Signal Std

variable {μ : Type} {own : Pid} {moving : Prop} {before after : Kernel μ}

/-- The updates that wake processes.  They are made on behalf of the process
`own`; only if `moving` holds, armed waits may change their keys. -/
inductive Wakes (own : Pid) (moving : Prop) : Kernel μ → Kernel μ → Prop
  | refl (kernel : Kernel μ) : Wakes own moving kernel kernel
  | trans {first second third : Kernel μ} :
      Wakes own moving first second → Wakes own moving second third → Wakes own moving first third
  | tables {before after : Kernel μ}
      (rest : after = { before with
          blockedTimers := after.blockedTimers
          fileWaitQueue := after.fileWaitQueue
          spaces := after.spaces }) : Wakes own moving before after
  | enqueue (kernel : Kernel μ) (pid : Pid) (cpu : Nat) :
      Wakes own moving kernel (kernel.enqueueRunnablePid pid cpu)
  | untrack {kernel : Kernel μ} {pid : Pid} {process : KernelProcess}
      (found : kernel.processes pid = some process) (free : process.state.isBlocked = false)
      (state : ProcessState) : Wakes own moving kernel (kernel.untrackBlockedProcess pid state)
  | ready {kernel : Kernel μ} {pid : Pid} {process : KernelProcess} {result : BlockResult}
      (found : kernel.processes pid = some process) (blocked : process.state.isBlocked)
      (plain : ∀ late, result ≠ .futex true late) :
      Wakes own moving kernel
        (kernel.store pid { process with wakeResult := some result, state := .runnable })
  | revive {kernel : Kernel μ} {pid : Pid} {process : KernelProcess}
      (found : kernel.processes pid = some process) (free : process.state.isBlocked = false) :
      Wakes own moving kernel (kernel.store pid { process with state := .runnable })
  /-- A futex wake counts a process that is blocked. -/
  | release {kernel : Kernel μ} {pid : Pid} {process : KernelProcess} {key : FutexKey}
      {bitset : BitVec 32} {deadline : Option Nat} (found : kernel.processes pid = some process)
      (waiting : process.state = .blocked (.futex key bitset deadline)) :
      Wakes own moving kernel
        ((kernel.unblock pid process (.futex true false)).record (.counted pid))
  /-- A futex wake counts a process whose wait is armed. -/
  | race {kernel : Kernel μ} {pid : Pid} {wait : ArmedFutexWait}
      (armed : kernel.armedFutexWaits[pid]? = some wait) (fresh : wait.racedWake = false) :
      Wakes own moving kernel ({ kernel with
            armedFutexWaits :=
              kernel.armedFutexWaits.insert pid { wait with racedWake := true } }.record
          (.counted pid))
  | rekey {kernel : Kernel μ} {pid : Pid} {wait : ArmedFutexWait} (allowed : moving)
      (target : FutexKey) :
      Wakes own moving kernel { kernel with
          armedFutexWaits := kernel.armedFutexWaits.insert pid { wait with key := target } }
  | move {kernel : Kernel μ} {pid : Pid} {process : KernelProcess} {key : FutexKey}
      {bitset : BitVec 32} {deadline : Option Nat} (found : kernel.processes pid = some process)
      (waiting : process.state = .blocked (.futex key bitset deadline)) (target : FutexKey) :
      Wakes own moving kernel (((kernel.untrackBlockedProcess pid process.state).store pid
        { process with state := .blocked (.futex target bitset deadline) }).trackBlockedProcess pid
          (.blocked (.futex target bitset deadline)))
  | disarm (kernel : Kernel μ) : Wakes own moving kernel (kernel.disarmFutexWait own)

theorem Wakes.mono {other : Prop} (imp : moving → other)
    (wakes : Wakes own moving before after) : Wakes own other before after := by
  induction wakes with
  | refl kernel => exact .refl kernel
  | trans _ _ earlier later => exact earlier.trans later
  | tables rest => exact .tables rest
  | enqueue kernel pid cpu => exact .enqueue kernel pid cpu
  | untrack found free state => exact .untrack found free state
  | ready found blocked plain => exact .ready found blocked plain
  | revive found free => exact .revive found free
  | release found waiting => exact .release found waiting
  | race armed fresh => exact .race armed fresh
  | rekey allowed target => exact .rekey (imp allowed) target
  | move found waiting target => exact .move found waiting target
  | disarm kernel => exact .disarm kernel

open Kernel in
/-- Seen from the processes, each update is a wake or a move. -/
theorem Wakes.stirs (wakes : Wakes own moving before after)
    (calm : Prop) : Stirs calm before after := by
  induction wakes with
  | refl kernel => exact .refl calm kernel
  | trans _ _ earlier later => exact earlier.trans later
  | tables rest =>
    rw [rest]
    exact Stirs.of_eq
  | enqueue kernel pid cpu => exact stirs_enqueueRunnablePid calm kernel pid cpu
  | untrack found free state => exact stirs_untrackBlockedProcess _ found free state
  | ready found blocked => exact stirs_store found (touched_woken calm blocked _) nofun
  | revive found free => exact stirs_store found ⟨rfl, .woken rfl fun _ => rfl, fun _ => rfl⟩ nofun
  | release found waiting =>
    exact (stirs_unblock _ found (by rw [waiting]; rfl) _).trans
      (stirs_record _ (Event.minor_counted _))
  | race armed fresh =>
    refine Stirs.trans ?_ (stirs_record _ (Event.minor_counted _))
    exact Stirs.of_eq
  | rekey | disarm => exact Stirs.of_eq
  | move found waiting target => exact stirs_move _ found waiting

/-- The tables of children and of thread groups are the same. -/
structure Families (before after : Kernel μ) : Prop where
  parentChildren : after.parentChildren = before.parentChildren
  threadGroups : after.threadGroups = before.threadGroups
  groupExitStatus : after.groupExitStatus = before.groupExitStatus

namespace Families

theorem refl (kernel : Kernel μ) : Families kernel kernel :=
  ⟨rfl, rfl, rfl⟩

theorem trans {first second third : Kernel μ} (earlier : Families first second)
    (later : Families second third) : Families first third :=
  ⟨later.parentChildren.trans earlier.parentChildren, later.threadGroups.trans earlier.threadGroups,
    later.groupExitStatus.trans earlier.groupExitStatus⟩

end Families

namespace Kernel

variable (kernel : Kernel μ)

theorem families_enqueueRunnablePid (pid : Pid) (cpu : Nat) :
    Families kernel (kernel.enqueueRunnablePid pid cpu) := by
  rw [enqueueRunnablePid_eq]
  exact ⟨rfl, rfl, rfl⟩

theorem families_signalProcess (pid : Pid) (info : SignalInfo) :
    Families kernel (kernel.signalProcess pid info) := by
  unfold signalProcess
  split
  · exact .refl kernel
  rename_i process _
  have settled (new : KernelProcess) : Families kernel (kernel.settle pid process new) := by
    obtain ⟨cpus, timers, futexes, same⟩ := kernel.settle_eq pid process new
    rw [same]
    exact ⟨rfl, rfl, rfl⟩
  exact (settled _).trans ⟨rfl, rfl, rfl⟩

end Kernel

open Kernel in
theorem Wakes.families (wakes : Wakes own moving before after) : Families before after := by
  induction wakes with
  | refl kernel => exact .refl kernel
  | trans _ _ earlier later => exact earlier.trans later
  | tables rest =>
    rw [rest]
    exact ⟨rfl, rfl, rfl⟩
  | enqueue kernel pid cpu => exact kernel.families_enqueueRunnablePid pid cpu
  | release =>
    obtain ⟨timers, futexes, same⟩ := untrackBlockedProcess_eq _ _ _
    rw [unblock, same, enqueueRunnablePid_eq]
    exact ⟨rfl, rfl, rfl⟩
  | untrack =>
    obtain ⟨timers, futexes, same⟩ := untrackBlockedProcess_eq _ _ _
    rw [same]
    exact ⟨rfl, rfl, rfl⟩
  | move =>
    obtain ⟨_, _, same⟩ := trackBlockedProcess_eq _ _ _
    rw [same]
    obtain ⟨_, _, same⟩ := untrackBlockedProcess_eq _ _ _
    rw [same]
    exact ⟨rfl, rfl, rfl⟩
  | ready | revive | race | rekey | disarm => exact ⟨rfl, rfl, rfl⟩

namespace Kernel

/-! ## Blocks -/

variable (kernel : Kernel μ)

variable {result : BlockResult} {pid : Pid}

theorem wakes_unblock {process : KernelProcess} (found : kernel.processes pid = some process)
    (blocked : process.state.isBlocked) (plain : ∀ late, result ≠ .futex true late) :
    Wakes own moving kernel (kernel.unblock pid process result) := by
  unfold unblock
  dsimp only
  rw [store_untrackBlockedProcess]
  refine Wakes.trans ?_ (.enqueue _ pid _)
  exact (Wakes.ready found blocked plain).trans (.untrack (Function.update_self ..) rfl _)

theorem wakes_wakeProcessWithResult (pid : Pid) (plain : ∀ late, result ≠ .futex true late) :
    Wakes own moving kernel (kernel.wakeProcessWithResult pid result) := by
  unfold wakeProcessWithResult
  split
  · exact .refl kernel
  rename_i process found
  split
  · rename_i block state
    exact kernel.wakes_unblock found (by rw [state]; rfl) plain
  · exact .refl kernel

/-! ## Futexes -/

theorem wakes_pickArmed {serve : Kernel μ → Pid → Kernel μ} {key : FutexKey}
    {bitset : BitVec 32} (turn : ∀ kernel pid wait, kernel.armedFutexWaits[pid]? = some wait →
      wait.racedWake = false → Wakes own moving kernel (serve kernel pid)) (count : Nat) :
    Wakes own moving kernel (kernel.pickArmed serve key bitset count).2 := by
  refine pick_rel .refl .trans (fun kernel pid accepted => ?_) _ _
  obtain ⟨wait, armed, matching⟩ := Option.any_eq_true _ _ |>.mp accepted
  refine turn kernel pid wait armed ?_
  simp only [armedMatches, Bool.and_eq_true, Bool.not_eq_true'] at matching
  exact matching.2

theorem blockedMatches_iff {key : FutexKey} {bitset : BitVec 32} {process : KernelProcess} :
    blockedMatches key bitset process ↔ ∃ waitBitset deadline,
      process.state = .blocked (.futex key waitBitset deadline) ∧ waitBitset &&& bitset ≠ 0 := by
  unfold blockedMatches
  split
  · rename_i state
    simp [state]
  · rename_i other
    exact iff_of_false (by decide) fun ⟨waitBitset, deadline, state, _⟩ => other _ _ _ state

theorem wakes_pickBlocked {serve : Kernel μ → Pid → Kernel μ} {key : FutexKey}
    {bitset : BitVec 32} (turn : ∀ kernel pid process waitBitset deadline,
      kernel.processes pid = some process →
      process.state = .blocked (.futex key waitBitset deadline) →
      Wakes own moving kernel (serve kernel pid)) (count served : Nat) :
    Wakes own moving kernel (kernel.pickBlocked serve key bitset count served).2 := by
  refine pick_rel .refl .trans (fun kernel pid accepted => ?_) _ _
  obtain ⟨process, found, matching⟩ := Option.any_eq_true _ _ |>.mp accepted
  obtain ⟨waitBitset, deadline, state, -⟩ := blockedMatches_iff.mp matching
  exact turn kernel pid process waitBitset deadline found state

theorem wakes_wakeFutex (key : FutexKey) (bitset : BitVec 32) (count : Nat) :
    Wakes own moving kernel (kernel.wakeFutex key bitset count).2 := by
  have armed : Wakes own moving kernel (kernel.wakeArmedFutexWaits key bitset count).2 := by
    unfold wakeArmedFutexWaits
    split
    · exact .refl kernel
    refine kernel.wakes_pickArmed (fun kernel pid wait armed fresh => ?_) count
    rw [wakeArmed, armed]
    exact .race armed fresh
  unfold wakeFutex
  dsimp only
  split
  · exact armed
  refine armed.trans (wakes_pickBlocked _ (fun kernel pid process _ _ found state => ?_) count _)
  rw [wakeBlocked, found]
  exact .release found state

theorem wakes_requeueFutex (allowed : moving) (source target : FutexKey)
    (wakeCount requeueCount : Nat) (bitset : BitVec 32) :
    Wakes own moving kernel
      (kernel.requeueFutex source target wakeCount requeueCount bitset).2 := by
  unfold requeueFutex
  refine (kernel.wakes_wakeFutex source bitset wakeCount).trans ?_
  refine Wakes.trans ?_ (wakes_pickBlocked _ (fun kernel pid process _ _ found state => ?_) _ _)
  · unfold requeueArmedFutexWaits
    split
    · exact .refl _
    refine wakes_pickArmed _ (fun kernel pid wait armed _ => ?_) _
    rw [requeueArmed, armed]
    exact .rekey allowed target
  · rw [requeueBlocked, found]
    dsimp only
    rw [state]
    have moved : Wakes own moving kernel _ := .move found state target
    rwa [state] at moved

/-! ## Thread groups, timers and files -/

theorem wakes_expelMember (pid : Pid) : Wakes own moving kernel (kernel.expelMember pid) := by
  unfold expelMember
  split
  · exact .refl kernel
  rename_i process found
  split
  · exact .refl kernel
  · rename_i block state
    exact kernel.wakes_unblock found (by rw [state]; rfl) (by simp)
  rename_i notBlocked
  refine Wakes.trans ?_ (.enqueue _ pid _)
  refine .revive found ?_
  cases state : process.state with
  | blocked block => exact absurd state (notBlocked block)
  | runnable | running | stopped | exited | faulted => rfl

theorem wakes_foldl {α : Type} {body : Kernel μ → α → Kernel μ}
    (turn : ∀ kernel a, Wakes own moving kernel (body kernel a)) (list : List α) :
    Wakes own moving kernel (list.foldl body kernel) := by
  induction list generalizing kernel with
  | nil => exact .refl kernel
  | cons a rest ih => exact (turn kernel a).trans (ih _)

theorem wakes_wakeExpiredLoop (waiters : List Pid) :
    Wakes own moving kernel (wakeExpiredLoop waiters kernel) := by
  induction waiters generalizing kernel with
  | nil => exact .refl kernel
  | cons pid rest ih =>
    rw [wakeExpiredLoop]
    split
    · exact (wakes_wakeProcessWithResult _ _ (by simp)).trans (ih _)
    · exact (wakes_wakeProcessWithResult _ _ (by simp)).trans (ih _)
    · exact (wakes_wakeProcessWithResult _ _ (by simp)).trans (ih _)
    · exact ih kernel

theorem wakes_wakeExpiredTimersLoop (now turns : Nat) :
    Wakes own moving kernel (wakeExpiredTimersLoop now turns kernel) := by
  induction turns generalizing kernel with
  | zero => exact .refl kernel
  | succ turns ih =>
    rw [wakeExpiredTimersLoop]
    split
    · exact .refl kernel
    split
    · exact .refl kernel
    · refine Wakes.trans ?_ (ih _)
      refine Wakes.trans ?_ (wakes_wakeExpiredLoop _ _)
      exact .tables rfl

theorem wakes_wakeReadyLoop (ready : List Pid) :
    Wakes own moving kernel (wakeReadyLoop ready kernel) := by
  induction ready generalizing kernel with
  | nil => exact .refl kernel
  | cons pid rest ih =>
    rw [wakeReadyLoop]
    split
    · exact (wakes_wakeProcessWithResult _ _ (by simp)).trans (ih _)
    · exact (wakes_wakeProcessWithResult _ _ (by simp)).trans (ih _)
    · exact ih kernel

theorem wakes_wakeReadyFileBlocks : Wakes own moving kernel kernel.wakeReadyFileBlocks := by
  refine Wakes.trans ?_ (wakes_wakeReadyLoop _ _)
  exact .tables rfl

theorem wakes_wakeVforkParent (parent child : Pid) :
    Wakes own moving kernel (kernel.wakeVforkParent parent child) := by
  unfold wakeVforkParent
  split
  · exact .refl kernel
  rename_i process found
  split
  · rename_i state
    refine Wakes.trans ?_ (.enqueue _ _ _)
    exact .ready found (by rw [state]; rfl) (by simp)
  · exact .refl kernel

/-! ## Memory and exit -/

section Memory

variable [UserSpaces μ]

theorem wakes_readWord {kernel : Kernel μ} {width space : Nat} {address : BitVec 64}
    {read : Option (BitVec width) × Kernel μ}
    (same : kernel.readWord width space address = read) : Wakes own moving kernel read.2 := by
  rw [← same]
  exact .tables rfl

theorem wakes_writeWord {kernel : Kernel μ} {width space : Nat} {address : BitVec 64}
    {word : BitVec width} {written : Bool × Kernel μ}
    (same : kernel.writeWord space address word = written) : Wakes own moving kernel written.2 := by
  rw [← same]
  exact .tables rfl

/-- A waiter that is told can run. -/
theorem wakeWaiter_eq (own : Pid) (moving : Prop) {kernel : Kernel μ} {parent : Pid}
    {process : KernelProcess} (found : kernel.processes parent = some process)
    (blocked : process.state.isBlocked) (api : WaitChildApi) (statusPtr : BitVec 64)
    (event : ChildEvent) :
    ∃ middle woken, Wakes own moving kernel middle ∧ middle.processes parent = some woken ∧
      woken.state = .runnable ∧
      kernel.wakeWaiter parent process api statusPtr event =
        middle.record (.woke parent event) := by
  unfold wakeWaiter
  refine ⟨_, _, ?_, (congrFun (processes_enqueueRunnablePid _ _ _) parent).trans
    (Function.update_self _ _ _), rfl, rfl⟩
  split
  · refine Wakes.trans ?_ (.enqueue _ _ _)
    exact Wakes.trans (wakes_writeWord rfl) (.ready found blocked (by simp))
  · exact (Wakes.ready found blocked (by simp)).trans (.enqueue _ _ _)

variable (kernel : Kernel μ) (process : KernelProcess)

omit [UserSpaces μ] in
theorem wakes_wakeFutexScopes (uaddr : BitVec 64) (count : Nat) (bitset : BitVec 32) :
    Wakes own moving kernel (kernel.wakeFutexScopes process uaddr count bitset) :=
  (wakes_wakeFutex _ _ _ _).trans (wakes_wakeFutex _ _ _ _)

theorem wakes_cleanupRobustWord (uaddr : BitVec 64) :
    Wakes own moving kernel (kernel.cleanupRobustWord process uaddr) := by
  unfold cleanupRobustWord
  split
  · exact wakes_readWord ‹_›
  refine (wakes_readWord ‹_›).trans ?_
  split
  · exact .refl _
  split
  · exact wakes_writeWord ‹_›
  refine (wakes_writeWord ‹_›).trans ?_
  split
  · exact wakes_wakeFutexScopes _ _ _ _ _
  · exact .refl _

theorem wakes_cleanupRobustEntry (offset entry : BitVec 64) :
    Wakes own moving kernel (kernel.cleanupRobustEntry process offset entry) := by
  unfold cleanupRobustEntry
  dsimp only
  split
  · exact .refl kernel
  · exact wakes_cleanupRobustWord _ _ _

theorem wakes_cleanupRobustLoop (head offset : BitVec 64) (turns : Nat) (entry : BitVec 64) :
    Wakes own moving kernel (cleanupRobustLoop process head offset turns entry kernel) := by
  induction turns generalizing entry kernel with
  | zero => exact .refl kernel
  | succ turns ih =>
    rw [cleanupRobustLoop]
    split
    · exact .refl kernel
    split
    · exact wakes_readWord ‹_›
    · exact (wakes_readWord ‹_›).trans ((wakes_cleanupRobustEntry _ _ _ _).trans (ih _ _))

theorem wakes_cleanupRobustList :
    Wakes own moving kernel (kernel.cleanupRobustList process) := by
  unfold cleanupRobustList
  split
  · exact .refl kernel
  split
  · exact .refl kernel
  dsimp only
  split
  · exact wakes_readWord ‹_›
  refine (wakes_readWord ‹_›).trans ?_
  split
  · exact wakes_readWord ‹_›
  refine (wakes_readWord ‹_›).trans ?_
  split
  · exact wakes_readWord ‹_›
  refine (wakes_readWord ‹_›).trans ?_
  split
  · exact (wakes_cleanupRobustLoop _ _ _ _ _ _).trans (wakes_cleanupRobustEntry _ _ _ _)
  · exact wakes_cleanupRobustLoop _ _ _ _ _ _

theorem wakes_finishProcessExit :
    Wakes process.pid moving kernel (kernel.finishProcessExit process) := by
  have cleaned : Wakes process.pid moving kernel
      ((kernel.disarmFutexWait process.pid).cleanupRobustList process) :=
    (Wakes.disarm kernel).trans (wakes_cleanupRobustList _ _)
  unfold finishProcessExit
  dsimp only
  split
  · exact cleaned
  refine cleaned.trans ?_
  split
  · rename_i written
    exact wakes_writeWord written
  · rename_i written
    exact (wakes_writeWord written).trans (wakes_wakeFutexScopes _ _ _ _ _)

end Memory

end Kernel

end AetherKernel.Sched
