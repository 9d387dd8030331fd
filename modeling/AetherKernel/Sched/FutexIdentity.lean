import AetherKernel.Sched.Journal

/-!
# Which futex a call is about

A wake finds exactly the waits under its key, in every state that the machine
can reach.  But the key of a futex without the private flag is the address alone,
whatever memory the process has there.
-/

namespace AetherKernel.Sched

open Lib Std Function

/-! ## What wakes do to waits -/

namespace Kernel

variable {μ : Type} {kernel : Kernel μ} {key : FutexKey} {bitset : BitVec 32} {count : Nat}
  {pid : Pid}

/-- What is seen of the armed waits. -/
def armedWaits (kernel : Kernel μ) (pid : Pid) : Option ArmedFutexWait :=
  kernel.armedFutexWaits[pid]?

/-- The waits under a key that have a common bit are ended, or moved, as
`armedTo` and `blockedTo` say; if `all` holds, none of them is left out.  All other
waits are as they were. -/
structure Serves (key : FutexKey) (bitset : BitVec 32)
    (armedTo : ArmedFutexWait → ArmedFutexWait) (blockedTo : KernelProcess → KernelProcess)
    (all : Prop) (before after : Kernel μ) : Prop where
  armed : Served (armedMatches key bitset) armedTo all before.armedWaits after.armedWaits
  blocked : Served (blockedMatches key bitset) blockedTo all before.processes after.processes

theorem mem_armedTargets (few : (kernel.armedTargets key bitset count).length < count)
    {wait : ArmedFutexWait} (armed : kernel.armedWaits pid = some wait)
    (matching : armedMatches key bitset wait) : pid ∈ kernel.armedTargets key bitset count := by
  unfold armedTargets at few ⊢
  rw [List.length_map, List.length_take] at few
  rw [List.take_of_length_le (by omega)]
  have listed := TreeMap.mem_toList_iff_getElem?_eq_some.mpr armed
  exact List.mem_map_of_mem (List.mem_filter.mpr ⟨listed, matching⟩)

theorem any_of_mem_armedTargets (target : pid ∈ kernel.armedTargets key bitset count) :
    (kernel.armedWaits pid).any (armedMatches key bitset) := by
  obtain ⟨⟨_, wait⟩, member, rfl⟩ := List.mem_map.mp target
  obtain ⟨listed, matching⟩ := List.mem_filter.mp (List.mem_of_mem_take member)
  rw [armedWaits, TreeMap.mem_toList_iff_getElem?_eq_some.mp listed]
  exact matching

theorem nodup_armedTargets : (kernel.armedTargets key bitset count).Nodup := by
  have apart := TreeMap.distinct_keys_toList (t := kernel.armedFutexWaits)
  refine List.Pairwise.map _ (fun _ _ differ => differ) ?_
  refine ((apart.filter _).sublist (List.take_sublist ..)).imp fun {a b} differ same => ?_
  exact differ (by rw [same]; exact ReflCmp.compare_self)

/-- The two loops of a wake, or of a requeue: the processes that are blocked are
served after the waits that are armed. -/
def pickWaits (armedServe blockedServe : Kernel μ → Pid → Kernel μ) (key : FutexKey)
    (bitset : BitVec 32) (count : Nat) (kernel : Kernel μ) : Nat × Kernel μ :=
  let (served, kernel) := kernel.pickArmed armedServe key bitset count
  kernel.pickBlocked blockedServe key bitset count served

/-- What the loops do to a wait, and to its process. -/
structure Serving (key : FutexKey) (bitset : BitVec 32)
    (armedServe blockedServe : Kernel μ → Pid → Kernel μ)
    (armedTo : ArmedFutexWait → ArmedFutexWait) (blockedTo : KernelProcess → KernelProcess) :
    Prop where
  armed : ∀ kernel pid, (kernel.armedWaits pid).any (armedMatches key bitset) →
    (armedServe kernel pid).armedWaits =
      update kernel.armedWaits pid ((kernel.armedWaits pid).map armedTo)
  blocked : ∀ kernel pid, (kernel.processes pid).any (blockedMatches key bitset) →
    (blockedServe kernel pid).processes =
      update kernel.processes pid ((kernel.processes pid).map blockedTo)
  keepsBlocked : ∀ kernel pid, (armedServe kernel pid).processes = kernel.processes ∧
    (armedServe kernel pid).blockedFutexes = kernel.blockedFutexes
  keepsArmed : ∀ kernel pid, (blockedServe kernel pid).armedWaits = kernel.armedWaits

section Serving

variable {armedServe blockedServe : Kernel μ → Pid → Kernel μ}
  {armedTo : ArmedFutexWait → ArmedFutexWait} {blockedTo : KernelProcess → KernelProcess}
  (serving : Serving key bitset armedServe blockedServe armedTo blockedTo)
include serving

/-- The loop serves each of its targets. -/
theorem pickArmed_spec (kernel : Kernel μ) (count : Nat) :
    (kernel.pickArmed armedServe key bitset count).1 =
        (kernel.armedTargets key bitset count).length ∧
      ∀ pid, (kernel.pickArmed armedServe key bitset count).2.armedWaits pid =
        if pid ∈ kernel.armedTargets key bitset count then (kernel.armedWaits pid).map armedTo
        else kernel.armedWaits pid := by
  obtain ⟨chosen, picked, number, views⟩ :=
    pick_spec serving.armed nodup_armedTargets
      (kernel.armedTargets key bitset count).length 0 kernel
  rw [List.filter_eq_self.mpr fun pid => any_of_mem_armedTargets, Nat.sub_zero,
    List.take_length] at picked
  subst picked
  rw [Nat.zero_add] at number
  exact ⟨number, views⟩

theorem pickWaits_spec (tracked : kernel.Tracked) (count : Nat) :
    (pickWaits armedServe blockedServe key bitset count kernel).1 ≤ count ∧
      Serves key bitset armedTo blockedTo
        ((pickWaits armedServe blockedServe key bitset count kernel).1 < count) kernel
        (pickWaits armedServe blockedServe key bitset count kernel).2 := by
  unfold pickWaits
  obtain ⟨number, views⟩ := pickArmed_spec serving kernel count
  have kept : (kernel.pickArmed armedServe key bitset count).2.processes = kernel.processes ∧
      (kernel.pickArmed armedServe key bitset count).2.blockedFutexes = kernel.blockedFutexes :=
    pick_rel (R := fun first second : Kernel μ => second.processes = first.processes ∧
        second.blockedFutexes = first.blockedFutexes) (fun _ => ⟨rfl, rfl⟩)
      (fun earlier later => ⟨later.1.trans earlier.1, later.2.trans earlier.2⟩)
      (fun kernel pid _ => serving.keepsBlocked kernel pid) _ _
  generalize kernel.pickArmed armedServe key bitset count = first at number views kept
  obtain ⟨served, middle⟩ := first
  dsimp only at number views kept ⊢
  have within : served ≤ count := by
    rw [number, armedTargets, List.length_map, List.length_take]
    omega
  have same : (middle.pickBlocked blockedServe key bitset count served).2.armedWaits =
      middle.armedWaits :=
    pick_rel (R := fun first second : Kernel μ => second.armedWaits = first.armedWaits)
      (fun _ => rfl) (fun earlier later => later.trans earlier)
      (fun kernel pid _ => serving.keepsArmed kernel pid) _ _
  have nodup : (middle.blockedFutexes key).toList.Nodup :=
    TreeSet.distinct_toList.imp fun {a b} differ same =>
      differ (by rw [same]; exact ReflCmp.compare_self)
  obtain ⟨chosen, picked, total, states⟩ := pick_spec serving.blocked nodup count served middle
  change (middle.pickBlocked blockedServe key bitset count served).1 = _ at total
  rw [kept.1] at picked states
  rw [← same] at views
  have length := congrArg List.length picked
  rw [List.length_take] at length
  refine ⟨by omega, served_of_chosen (fun pid => any_of_mem_armedTargets)
    (fun all pid wait armed => ?_) views,
    served_of_chosen (fun pid member => ?_) (fun all pid process found matching => ?_) states⟩
  · exact mem_armedTargets (by omega) armed
  · rw [picked] at member
    exact (List.mem_filter.mp (List.mem_of_mem_take member)).2
  · obtain ⟨waitBitset, deadline, state, -⟩ := blockedMatches_iff.mp matching
    rw [picked, List.take_of_length_le (by omega), List.mem_filter, TreeSet.mem_toList,
      kept.2, found]
    exact ⟨tracked _ _ _ _ _ found state, matching⟩

end Serving

theorem armedWaits_insert (kernel : Kernel μ) (pid : Pid) (wait : ArmedFutexWait) :
    armedWaits { kernel with armedFutexWaits := kernel.armedFutexWaits.insert pid wait } =
      update kernel.armedWaits pid (some wait) := by
  funext other
  rw [armedWaits, TreeMap.getElem?_insert]
  by_cases here : other = pid
  · subst here
    rw [if_pos ReflCmp.compare_self, update_self]
  · rw [if_neg fun same => here (LawfulEqCmp.eq_of_compare same).symm, update_of_ne here]
    rfl

/-- The process was woken out of its block. -/
def roused (process : KernelProcess) : KernelProcess :=
  { process with wakeResult := some (.futex true false), state := .runnable }

/-- The process waits for another key. -/
def rekeyed (target : FutexKey) (process : KernelProcess) : KernelProcess :=
  match process.state with
  | .blocked (.futex _ waitBitset deadline) =>
    { process with state := .blocked (.futex target waitBitset deadline) }
  | _ => process

theorem serving_wake : Serving key bitset wakeArmed (wakeBlocked (μ := μ))
    (fun wait => { wait with racedWake := true }) roused where
  armed kernel pid matching := by
    obtain ⟨wait, armed, -⟩ := Option.any_eq_true _ _ |>.mp matching
    unfold wakeArmed
    rw [show kernel.armedFutexWaits[pid]? = some wait from armed, armed]
    exact armedWaits_insert kernel pid _
  blocked kernel pid matching := by
    obtain ⟨process, found, -⟩ := Option.any_eq_true _ _ |>.mp matching
    rw [wakeBlocked, found]
    simp [record, unblock, store, roused]
  keepsBlocked kernel pid := by
    unfold wakeArmed
    split <;> exact ⟨rfl, rfl⟩
  keepsArmed kernel pid := by
    unfold wakeBlocked
    split
    · rfl
    · rw [record, unblock, enqueueRunnablePid_eq]
      obtain ⟨_, _, same⟩ := kernel.untrackBlockedProcess_eq pid _
      rw [same]
      rfl

theorem serving_requeue (target : FutexKey) : Serving key bitset (requeueArmed target)
    (requeueBlocked (μ := μ) target) (fun wait => { wait with key := target })
    (rekeyed target) where
  armed kernel pid matching := by
    obtain ⟨wait, armed, -⟩ := Option.any_eq_true _ _ |>.mp matching
    unfold requeueArmed
    rw [show kernel.armedFutexWaits[pid]? = some wait from armed, armed]
    exact armedWaits_insert kernel pid _
  blocked kernel pid matching := by
    obtain ⟨process, found, waits⟩ := Option.any_eq_true _ _ |>.mp matching
    obtain ⟨waitBitset, deadline, state, -⟩ := blockedMatches_iff.mp waits
    obtain ⟨_, _, same⟩ := trackBlockedProcess_eq _ _ _
    simp only [requeueBlocked, found, state, Option.map_some, rekeyed]
    rw [same]
    simp [store]
  keepsBlocked kernel pid := by
    unfold requeueArmed
    split <;> exact ⟨rfl, rfl⟩
  keepsArmed kernel pid := by
    unfold requeueBlocked
    split
    · rfl
    split
    · obtain ⟨_, _, same⟩ := trackBlockedProcess_eq _ _ _
      dsimp only
      rw [same]
      obtain ⟨_, _, same⟩ := kernel.untrackBlockedProcess_eq pid _
      rw [same]
      rfl
    · rfl

/-- The loop over the armed waits does nothing when there is nothing to serve. -/
theorem pickArmed_of_zero (serve : Kernel μ → Pid → Kernel μ) (count : Nat) :
    (if count = 0 then (0, kernel) else kernel.pickArmed serve key bitset count) =
      kernel.pickArmed serve key bitset count := by
  split
  · subst count
    simp [pickArmed, armedTargets, pick]
  · rfl

theorem wakeFutex_eq (kernel : Kernel μ) (key : FutexKey) (bitset : BitVec 32) (count : Nat) :
    kernel.wakeFutex key bitset count =
      pickWaits wakeArmed wakeBlocked key bitset count kernel := by
  unfold wakeFutex wakeArmedFutexWaits pickWaits
  rw [pickArmed_of_zero]
  dsimp only
  split
  · rename_i enough
    exact (pick_of_le enough _ _).symm
  · rfl

theorem requeueFutex_eq (kernel : Kernel μ) (source target : FutexKey)
    (wakeCount requeueCount : Nat) (bitset : BitVec 32) :
    kernel.requeueFutex source target wakeCount requeueCount bitset =
      ((kernel.wakeFutex source bitset wakeCount).1,
        (pickWaits (requeueArmed target) (requeueBlocked target) source bitset requeueCount
          (kernel.wakeFutex source bitset wakeCount).2).2) := by
  unfold requeueFutex requeueArmedFutexWaits pickWaits
  simp only [pickArmed_of_zero]

end Kernel

/-! ## Calls and memory -/

/-- A `FUTEX_WAIT`, `FUTEX_WAKE` or `FUTEX_REQUEUE`, with the page tables at the
time: the physical word behind each address of each address space. -/
structure FutexCall where
  addressSpace : Nat
  uaddr : BitVec 64
  isPrivate : Bool
  tables : Nat → BitVec 64 → Option Nat

/-- What a call that does not wait asks for. -/
inductive FutexRequest where
  | wake (bitset : BitVec 32) (count : Nat)
  | requeue (uaddr : BitVec 64) (wakeCount requeueCount : Nat)

namespace FutexRequest

def bitset : FutexRequest → BitVec 32
  | .wake bitset _ => bitset
  | .requeue _ _ _ => BitVec.allOnes 32

def wakeCount : FutexRequest → Nat
  | .wake _ count | .requeue _ count _ => count

end FutexRequest

namespace FutexCall

open Kernel

variable (call wait wake : FutexCall) {μ : Type}

def key : FutexKey :=
  futexKey call.addressSpace call.uaddr call.isPrivate

/-- The part of `futex` that wakes and requeues. -/
def futex (kernel : Kernel μ) : FutexRequest → Nat × Kernel μ
  | .wake bitset count => kernel.wakeFutex call.key bitset count
  | .requeue uaddr wakeCount requeueCount =>
    kernel.requeueFutex call.key (futexKey call.addressSpace uaddr call.isPrivate) wakeCount
      requeueCount (BitVec.allOnes 32)

/-- Both addresses are backed by one physical word. -/
def SameWord : Prop :=
  ∃ word, wait.tables wait.addressSpace wait.uaddr = some word ∧
    wake.tables wake.addressSpace wake.uaddr = some word

/-- The calls are about one futex. -/
def SameFutex : Prop :=
  if wait.isPrivate then wait.addressSpace = wake.addressSpace ∧ wait.uaddr = wake.uaddr
  else wait.SameWord wake

/-- A wake or a requeue ends every wait on its futex that has a common bit, unless
it has ended as many as it may; waits on another futex stay as they are.  A wait is
armed, or its process is blocked. -/
structure Reaches (kernel : Kernel μ) (request : FutexRequest) : Prop where
  bounded : (wake.futex kernel request).1 ≤ request.wakeCount
  armed : ∀ (pid : Pid) entry, kernel.armedFutexWaits[pid]? = some entry → entry.key = wait.key →
    (wait.SameFutex wake → entry.bitset &&& request.bitset ≠ 0 →
      (wake.futex kernel request).1 < request.wakeCount →
      (wake.futex kernel request).2.armedFutexWaits[pid]? =
        some { entry with racedWake := true }) ∧
    (¬wait.SameFutex wake → (wake.futex kernel request).2.armedFutexWaits[pid]? = some entry)
  blocked : ∀ pid process bitset deadline, kernel.processes pid = some process →
    process.state = .blocked (.futex wait.key bitset deadline) →
    (wait.SameFutex wake → bitset &&& request.bitset ≠ 0 →
      (wake.futex kernel request).1 < request.wakeCount →
      (wake.futex kernel request).2.processes pid = some (roused process)) ∧
    (¬wait.SameFutex wake → (wake.futex kernel request).2.processes pid = some process)

/-- Equal keys are those of one futex, and whatever has happened before, wakes
and requeues reach the waits on their futex and no others. -/
structure Identified : Prop where
  keys : wait.key = wake.key ↔ wait.SameFutex wake
  reaches : ∀ (μ : Type) [UserSpaces μ] cpuCount spaces labels (last : Kernel μ),
    Run Performs (new cpuCount spaces) labels last → ∀ request, wait.Reaches wake last request

variable {wait wake}

theorem key_eq_iff (kind : wait.isPrivate = wake.isPrivate) : wait.key = wake.key ↔
    (wait.isPrivate → wait.addressSpace = wake.addressSpace) ∧ wait.uaddr = wake.uaddr := by
  unfold key futexKey
  rw [← kind]
  cases wait.isPrivate <;> simp

variable {kernel : Kernel μ}

/-- A request wakes first, and what it does then concerns the same key. -/
theorem serves_futex (wake : FutexCall) (tracked : kernel.Tracked) (request : FutexRequest) :
    (wake.futex kernel request).1 ≤ request.wakeCount ∧
      ∃ middle armedTo blockedTo all,
        Serves wake.key request.bitset (fun wait => { wait with racedWake := true }) roused
          ((wake.futex kernel request).1 < request.wakeCount) kernel middle ∧
        Serves wake.key request.bitset armedTo blockedTo all middle
          (wake.futex kernel request).2 := by
  have woken (bitset : BitVec 32) (count : Nat) : _ ∧ Serves wake.key bitset _ _ _ _ _ :=
    pickWaits_spec serving_wake tracked count
  simp only [← wakeFutex_eq] at woken
  cases request with
  | wake bitset count =>
    obtain ⟨bounded, serves⟩ := woken bitset count
    exact ⟨bounded, _, id, id, False, serves, fun _ _ found => .inl ⟨found, False.elim⟩,
      fun _ _ found => .inl ⟨found, False.elim⟩⟩
  | requeue uaddr wakeCount requeueCount =>
    obtain ⟨bounded, serves⟩ := woken (BitVec.allOnes 32) wakeCount
    have wakes : Wakes 0 True kernel _ :=
      kernel.wakes_wakeFutex wake.key (BitVec.allOnes 32) wakeCount
    have still := (wakes.stirs True).tracked tracked
    rw [futex, requeueFutex_eq]
    exact ⟨bounded, _, _, _, _, serves, (pickWaits_spec (serving_requeue _) still _).2⟩

theorem reaches_of_keys (keys : wait.key = wake.key ↔ wait.SameFutex wake)
    (tracked : kernel.Tracked) (request : FutexRequest) : wait.Reaches wake kernel request := by
  obtain ⟨bounded, middle, armedTo, blockedTo, all, first, second⟩ :=
    serves_futex wake tracked request
  refine ⟨bounded, fun pid entry found waits => ?_,
    fun pid process bitset deadline found waits => ?_⟩
  · constructor
    · intro same common more
      have key := waits.trans (keys.mpr same)
      rcases first.armed pid entry found with ⟨left, served⟩ | ⟨woken, -⟩
      · -- A wait that is not served has been woken before.
        have raced : entry.racedWake = true := by
          by_contra fresh
          exact served more (by simpa [armedMatches, key, fresh] using common)
        have kept := second.armed.of_not left (by simp [armedMatches, raced])
        rw [← raced]
        exact kept
      · exact second.armed.of_not woken (by simp [armedMatches])
    · intro other
      have unmatched : ¬armedMatches wake.key request.bitset entry := by
        have apart : entry.key ≠ wake.key := waits ▸ fun same => other (keys.mp same)
        simp [armedMatches, apart]
      exact second.armed.of_not (first.armed.of_not found unmatched) unmatched
  · constructor
    · intro same common more
      have waiting : blockedMatches wake.key request.bitset process :=
        blockedMatches_iff.mpr ⟨bitset, deadline, keys.mpr same ▸ waits, common⟩
      rcases first.blocked pid process found with ⟨-, served⟩ | ⟨woken, -⟩
      · exact absurd waiting (served more)
      · exact second.blocked.of_not woken (by simp [blockedMatches, roused])
    · intro other
      have unmatched : ¬blockedMatches wake.key request.bitset process := by
        intro waiting
        obtain ⟨_, _, state, -⟩ := blockedMatches_iff.mp waiting
        have same := waits.symm.trans state
        injection same with same
        injection same with key
        exact other (keys.mp key)
      exact second.blocked.of_not (first.blocked.of_not found unmatched) unmatched

/-- A call at address 4096 of a space whose words there are its own. -/
def ownPage (addressSpace : Nat) : FutexCall :=
  ⟨addressSpace, 4096, false, fun space _ => some space⟩

end FutexCall

end AetherKernel.Sched
