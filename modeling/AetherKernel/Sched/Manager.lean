import AetherKernel.Lib.Pick
import AetherKernel.Sched.Kernel

/-!
# The process manager

The operations behind the lock, in the order in which they use each other.
-/

namespace AetherKernel.Sched

open Lib Signal Std Function

namespace Kernel

variable {μ : Type}

/-! ## Blocked processes -/

variable (timers : TreeMap Nat (TreeSet Pid))

/-- Add a process to the set of a key. -/
def addTimer (deadline : Nat) (pid : Pid) : TreeMap Nat (TreeSet Pid) :=
  timers.insert deadline ((timers.getD deadline ∅).insert pid)

/-- Remove a process from the set of a key, and the set when it is empty. -/
def removeTimer (deadline : Nat) (pid : Pid) : TreeMap Nat (TreeSet Pid) :=
  match timers[deadline]? with
  | none => timers
  | some waiters =>
    let waiters := waiters.erase pid
    if waiters.isEmpty then timers.erase deadline else timers.insert deadline waiters

variable (kernel : Kernel μ)

def trackTimer (pid : Pid) : Option Nat → Kernel μ
  | none => kernel
  | some deadline => { kernel with blockedTimers := addTimer kernel.blockedTimers deadline pid }

def untrackTimer (pid : Pid) : Option Nat → Kernel μ
  | none => kernel
  | some deadline => { kernel with blockedTimers := removeTimer kernel.blockedTimers deadline pid }

def trackBlockedProcess (pid : Pid) : ProcessState → Kernel μ
  | .blocked (.poll deadline) => kernel.trackTimer pid deadline
  | .blocked (.timer target _ _ _) => kernel.trackTimer pid (some target)
  | .blocked (.futex key _ deadline) =>
    let waiters := (kernel.blockedFutexes key).insert pid
    { kernel with blockedFutexes := update kernel.blockedFutexes key waiters }.trackTimer
      pid deadline
  | _ => kernel

def untrackBlockedProcess (pid : Pid) : ProcessState → Kernel μ
  | .blocked (.poll deadline) => kernel.untrackTimer pid deadline
  | .blocked (.timer target _ _ _) => kernel.untrackTimer pid (some target)
  | .blocked (.futex key _ deadline) =>
    let waiters := (kernel.blockedFutexes key).erase pid
    { kernel with
      blockedFutexes := update kernel.blockedFutexes key waiters }.untrackTimer pid deadline
  | _ => kernel

/-- Take a process of the table out of its block. -/
def unblock (pid : Pid) (process : KernelProcess) (result : BlockResult) : Kernel μ :=
  let kernel := kernel.untrackBlockedProcess pid process.state
  let kernel := kernel.store pid { process with wakeResult := some result, state := .runnable }
  kernel.enqueueRunnablePid pid process.assignedCpu

def wakeProcessWithResult (pid : Pid) (result : BlockResult) : Kernel μ :=
  match kernel.processes pid with
  | none => kernel
  | some process =>
    match process.state with
    | .blocked _ => kernel.unblock pid process result
    | _ => kernel

/-! ## Futexes -/

def armFutexWait (pid : Pid) (key : FutexKey) (bitset : BitVec 32) : Kernel μ :=
  { kernel with armedFutexWaits := kernel.armedFutexWaits.insert pid ⟨key, bitset, false⟩ }

def disarmFutexWait (pid : Pid) : Kernel μ :=
  { kernel with armedFutexWaits := kernel.armedFutexWaits.erase pid }

/-- The armed wait is for the key, has a common bit and has not been woken. -/
def armedMatches (key : FutexKey) (bitset : BitVec 32) (wait : ArmedFutexWait) : Bool :=
  wait.key = key && wait.bitset &&& bitset ≠ 0 && !wait.racedWake

/-- The armed waits that a wake or a requeue is for, in the order of pids. -/
def armedTargets (key : FutexKey) (bitset : BitVec 32) (count : Nat) : List Pid :=
  ((kernel.armedFutexWaits.toList.filter fun entry =>
    armedMatches key bitset entry.2).take count).map Prod.fst

/-- `wait.raced_wake = true`. -/
def wakeArmed (kernel : Kernel μ) (pid : Pid) : Kernel μ :=
  match kernel.armedFutexWaits[pid]? with
  | none => kernel
  | some wait =>
    { kernel with
      armedFutexWaits := kernel.armedFutexWaits.insert pid { wait with racedWake := true } }.record
        (.counted pid)

/-- `wait.key = to`. -/
def requeueArmed (target : FutexKey) (kernel : Kernel μ) (pid : Pid) : Kernel μ :=
  match kernel.armedFutexWaits[pid]? with
  | none => kernel
  | some wait =>
    { kernel with
      armedFutexWaits := kernel.armedFutexWaits.insert pid { wait with key := target } }

/-- The loops of `wake_armed_futex_waits` and `requeue_armed_futex_waits` over
their targets, which check each wait again. -/
def pickArmed (serve : Kernel μ → Pid → Kernel μ) (key : FutexKey) (bitset : BitVec 32)
    (count : Nat) : Nat × Kernel μ :=
  let targets := kernel.armedTargets key bitset count
  pick (fun kernel pid => kernel.armedFutexWaits[pid]?) (Option.any (armedMatches key bitset)) serve
    targets.length targets 0 kernel

def wakeArmedFutexWaits (key : FutexKey) (bitset : BitVec 32) (count : Nat) : Nat × Kernel μ :=
  if count = 0 then (0, kernel) else kernel.pickArmed wakeArmed key bitset count

def requeueArmedFutexWaits (source target : FutexKey) (requeueCount : Nat)
    (bitset : BitVec 32) : Nat × Kernel μ :=
  if requeueCount = 0 then (0, kernel)
  else kernel.pickArmed (requeueArmed target) source bitset requeueCount

/-- The process is blocked on the key, with a common bit. -/
def blockedMatches (key : FutexKey) (bitset : BitVec 32) (process : KernelProcess) : Bool :=
  match process.state with
  | .blocked (.futex waitKey waitBitset _) => waitKey = key && waitBitset &&& bitset ≠ 0
  | _ => false

def wakeBlocked (kernel : Kernel μ) (pid : Pid) : Kernel μ :=
  match kernel.processes pid with
  | none => kernel
  | some process => (kernel.unblock pid process (.futex true false)).record (.counted pid)

/-- A blocked process that waits for another key now. -/
def requeueBlocked (target : FutexKey) (kernel : Kernel μ) (pid : Pid) : Kernel μ :=
  match kernel.processes pid with
  | none => kernel
  | some process =>
    match process.state with
    | .blocked (.futex _ waitBitset deadline) =>
      let kernel := kernel.untrackBlockedProcess pid process.state
      let state := .blocked (.futex target waitBitset deadline)
      let kernel := kernel.store pid { process with state }
      kernel.trackBlockedProcess pid state
    | _ => kernel

/-- The loops of `wake_futex` and `requeue_futex` over the processes blocked on
the key. -/
def pickBlocked (serve : Kernel μ → Pid → Kernel μ) (key : FutexKey) (bitset : BitVec 32)
    (count served : Nat) : Nat × Kernel μ :=
  pick processes (Option.any (blockedMatches key bitset)) serve count
    (kernel.blockedFutexes key).toList served kernel

def wakeFutex (key : FutexKey) (bitset : BitVec 32) (count : Nat) : Nat × Kernel μ :=
  let (woke, kernel) := kernel.wakeArmedFutexWaits key bitset count
  if count ≤ woke then (woke, kernel) else kernel.pickBlocked wakeBlocked key bitset count woke

/-- Only the processes that were woken are counted in the result. -/
def requeueFutex (source target : FutexKey) (wakeCount requeueCount : Nat)
    (bitset : BitVec 32) : Nat × Kernel μ :=
  let (woke, kernel) := kernel.wakeFutex source bitset wakeCount
  let (moved, kernel) := kernel.requeueArmedFutexWaits source target requeueCount bitset
  (woke, (kernel.pickBlocked (requeueBlocked target) source bitset requeueCount moved).2)

/-! ## Signals -/

/-- `supports_user_handlers`. -/
def supportsUserHandlers : Bool :=
  true

/-- `TIMER_ABSTIME`. -/
def timerAbstime : BitVec 64 := 1

def timerResult (now target : Nat) (rmtp flags : BitVec 64) : BlockResult :=
  .timer (decide (target ≤ now)) (target - now) rmtp (flags &&& timerAbstime ≠ 0)

/-- What a signal does to a process of the table: it becomes pending, and ends
some of the blocks if a signal can be delivered. -/
def signalled (now : Nat) (info : SignalInfo) (process : KernelProcess) : KernelProcess :=
  let process := { process with signals := process.signals.enqueue info }
  if process.signals.hasDeliverable supportsUserHandlers then
    match process.state with
    | .blocked .signalSuspend =>
      { process with
        signals := process.signals.leaveSigsuspend
        wakeResult := some .signalInterrupted
        state := .runnable }
    | .blocked (.timer target _ rmtp flags) =>
      { process with
        wakeResult := some (timerResult now target rmtp flags)
        state := .runnable }
    | .blocked (.poll _) | .blocked (.futex _ _ _) =>
      { process with wakeResult := some .signalInterrupted, state := .runnable }
    | _ => process
  else process

/-- Store what has become of a process, and queue it if it can run now. -/
def settle (pid : Pid) (old new : KernelProcess) : Kernel μ :=
  let kernel := kernel.store pid new
  if new.state = .runnable ∧ old.state ≠ .runnable then
    (kernel.enqueueRunnablePid pid new.assignedCpu).untrackBlockedProcess pid old.state
  else kernel

/-- `SIGCONT` starts a stopped process again. -/
def continued (info : SignalInfo) (process : KernelProcess) : Bool :=
  info.signal = sigcont && match process.state with
    | .stopped _ => true
    | _ => false

/-- `notify_signal` without the child event that a continued process posts. -/
def signalProcess (pid : Pid) (info : SignalInfo) : Kernel μ :=
  match kernel.processes pid with
  | none => kernel
  | some process =>
    let resumed := if continued info process then { process with state := .runnable } else process
    (kernel.settle pid process (signalled kernel.monotonicNanos info resumed)).record
      (.notified pid info)

/-- A running process takes its signals when it is next dispatched. -/
def queueSignalForRunning (pid : Pid) (info : SignalInfo) : Kernel μ :=
  match kernel.runningCpuOf pid with
  | none => kernel
  | some _ =>
    { kernel with
      queuedSignals :=
        update kernel.queuedSignals pid (kernel.queuedSignals pid ++ [info]) }

def drainQueuedSignals (process : KernelProcess) : KernelProcess × Kernel μ :=
  let pid := process.pid
  ({ process with signals := (kernel.queuedSignals pid).foldl SignalState.enqueue process.signals },
    { kernel with queuedSignals := update kernel.queuedSignals pid [] })

/-! ## Children -/

def trackChildLink (parent : Option Pid) (child : Pid) : Kernel μ :=
  match parent with
  | none => kernel
  | some parent =>
    let children := (kernel.parentChildren parent).insert child
    { kernel with parentChildren := update kernel.parentChildren parent children }

def untrackChildLink (parent : Option Pid) (child : Pid) : Kernel μ :=
  match parent with
  | none => kernel
  | some parent =>
    let children := (kernel.parentChildren parent).erase child
    { kernel with parentChildren := update kernel.parentChildren parent children }

def childProcessGroup (pid : Pid) : Option Pid :=
  match kernel.processes pid with
  | some process => some process.processGroup
  | none =>
    match kernel.zombies pid with
    | some zombie => some zombie.processGroup
    | none => kernel.runningProcessGroupOf pid

def childMatchesWaitSelector (selector : WaitChildSelector) (child : Pid) : Bool :=
  match selector with
  | .any => true
  | .pid pid => child = pid
  | .processGroup group => kernel.childProcessGroup child = some group

/-- The zombie of a child is gone once the parent has been told. -/
def removeZombie (pid : Pid) : Kernel μ :=
  match kernel.zombies pid with
  | none => kernel
  | some zombie =>
    let kernel := { kernel with zombies := update kernel.zombies pid none }
    (kernel.untrackChildLink zombie.parent pid).record (.reaped pid)

/-- The zombie of a child that a wait has asked for. -/
def reapZombie (pid : Pid) : Kernel μ :=
  match kernel.zombies pid with
  | none => kernel
  | some _ => (kernel.removeZombie pid).record (.marked pid)

def eventMatches (selector : WaitChildSelector) (options : BitVec 64) (event : ChildEvent) : Bool :=
  kernel.childMatchesWaitSelector selector event.pid && childEventMatchesOptions event.kind options

def waitChildEvent (parent : Pid) (selector : WaitChildSelector)
    (options : BitVec 64) (consume : Bool) : Option ChildEvent × Kernel μ :=
  match (kernel.childEvents parent).find? (kernel.eventMatches selector options) with
  | none => (none, kernel)
  | some event =>
    if consume then
      let events := (kernel.childEvents parent).eraseP (kernel.eventMatches selector options)
      let kernel := { kernel with childEvents := update kernel.childEvents parent events }
      let kernel := kernel.record (.consumed parent event)
      match event.kind with
      | .exited _ => (some event, kernel.reapZombie event.pid)
      | _ => (some event, kernel)
    else (some event, kernel.record (.seen parent event))

def hasWaitableChild (parent : Pid) (selector : WaitChildSelector) : Bool :=
  (kernel.parentChildren parent).toList.any (kernel.childMatchesWaitSelector selector)

def parentSigchldAction (parent : Option Pid) : Option SignalAction :=
  (parent.bind kernel.processes).bind fun process => process.signals.actions[sigchld]?

def queueChildEvent (parent : Pid) (event : ChildEvent) : Kernel μ :=
  { kernel with
    childEvents :=
      update kernel.childEvents parent (kernel.childEvents parent ++ [event]) }.record
        (.queued parent event)

/-- A `wait4` that ends without a look at the queue has also reaped the child. -/
def handOver (parent : Pid) (event : ChildEvent) : Kernel μ :=
  let kernel := kernel.record (.consumed parent event)
  match event.kind with
  | .exited _ => kernel.removeZombie event.pid
  | _ => kernel

section Memory

variable [UserSpaces μ] (kernel : Kernel μ)

/-- Let a parent run that is blocked for this event. -/
def wakeWaiter (parent : Pid) (process : KernelProcess) (api : WaitChildApi)
    (statusPtr : BitVec 64) (event : ChildEvent) : Kernel μ :=
  let kernel := if api = .wait4 ∧ statusPtr ≠ 0 then
      (kernel.writeWord process.addressSpace statusPtr (waitStatus event.kind)).2
    else kernel
  let value := if api = .wait4 then BitVec.ofNat 64 event.pid else 0
  let kernel := kernel.store parent
    { process with wakeResult := some (.completedValue value), state := .runnable }
  (kernel.enqueueRunnablePid parent process.assignedCpu).record (.woke parent event)

def wakeWaitingParent (parent : Pid) (process : KernelProcess)
    (api : WaitChildApi) (statusPtr : BitVec 64) (event : ChildEvent) : Kernel μ :=
  let kernel := kernel.wakeWaiter parent process api statusPtr event
  match api with
  | .waitId => kernel
  | .wait4 => kernel.handOver parent event

/-- Tell a blocked parent, or leave the event for it.  The parent of a `waitid`
is woken and takes the event from the queue. -/
def postChildEvent (parent : Pid) (event : ChildEvent) : Kernel μ :=
  match kernel.processes parent with
  | none => kernel.queueChildEvent parent event
  | some process =>
    match process.state with
    | .blocked (.waitChild selector api statusPtr _ options) =>
      if kernel.eventMatches selector options event && decide (options &&& wnohang = 0) then
        let kernel := kernel.wakeWaitingParent parent process api statusPtr event
        if api = .waitId then kernel.queueChildEvent parent event else kernel
      else (kernel.queueChildEvent parent event).record (.passed parent event)
    | _ => kernel.queueChildEvent parent event

def noCldstop (parent : Pid) : Bool :=
  match kernel.parentSigchldAction (some parent) with
  | none => false
  | some action => action.flags &&& saNocldstop ≠ 0

def notifyChildEvent (parent : Option Pid) (event : ChildEvent) : Kernel μ :=
  match parent with
  | none => kernel
  | some parent =>
    let kernel := kernel.postChildEvent parent event
    if kernel.noCldstop parent then kernel
    else
      match event.kind with
      | .exited _ => kernel
      | .stopped signal => kernel.signalProcess parent (.childStop event.pid signal)
      | .continued => kernel.signalProcess parent (.childContinue event.pid)

def notifySignal (pid : Pid) (info : SignalInfo) : Kernel μ :=
  match kernel.processes pid with
  | none => kernel
  | some process =>
    let kernel := kernel.signalProcess pid info
    if continued info process then
      kernel.notifyChildEvent process.parent ⟨pid, .continued⟩
    else kernel

/-! ## Sending signals -/

def sendSignal (pid : Pid) (info : SignalInfo) : Kernel μ :=
  match kernel.processes pid with
  | some _ => kernel.notifySignal pid info
  | none => kernel.queueSignalForRunning pid info

def threadGroupMembers (tgid : Pid) : List Pid :=
  (kernel.threadGroups.getD tgid ∅).toList

def threadGroupProcessGroup (tgid : Pid) : Option Pid :=
  (kernel.threadGroupMembers tgid).findSome? fun pid =>
    match kernel.processes pid with
    | some process => some process.processGroup
    | none => kernel.runningProcessGroupOf pid

def threadGroupSession (tgid : Pid) : Option Pid :=
  (kernel.threadGroupMembers tgid).findSome? fun pid =>
    (kernel.processes pid).map fun process => process.session

def processGroupSession (group : Pid) : Option Pid :=
  kernel.threadGroups.keys.findSome? fun tgid =>
    if kernel.threadGroupProcessGroup tgid = some group then kernel.threadGroupSession tgid
    else none

/-- A member that can be signalled, and one that takes the signal at once. -/
def present (pid : Pid) : Bool :=
  (kernel.processes pid).isSome || (kernel.runningCpuOf pid).isSome

def accepts (signal : Nat) (pid : Pid) : Bool :=
  (kernel.processes pid).any (fun process => !isBlocked process.signals.blocked signal) ||
    (kernel.runningCpuOf pid).isSome

/-- The leader is asked first, then the members in the order of pids; who is
there at all is the fallback. -/
def pickThreadGroupTarget (tgid : Pid) (signal : Nat) : Option Pid :=
  let members := kernel.threadGroupMembers tgid
  let leader := members.filter (· = tgid)
  let ordered := (leader ++ members.filter (· ≠ tgid)).filter kernel.present
  (ordered.find? (kernel.accepts signal)).or ordered.head?

def sendSignalThreadGroup (tgid : Pid) (info : SignalInfo) : Kernel μ :=
  match kernel.pickThreadGroupTarget tgid info.signal with
  | none => kernel
  | some target => kernel.sendSignal target info

def sendSignalProcessGroup (group : Pid) (info : SignalInfo) : Kernel μ :=
  let targets := kernel.threadGroups.keys.filter fun tgid =>
    kernel.threadGroupProcessGroup tgid = some group
  targets.foldl (fun kernel tgid => kernel.sendSignalThreadGroup tgid info) kernel

def sendSignalAllThreadGroups (info : SignalInfo) (exclude : Option Pid) : Kernel μ :=
  let targets := kernel.threadGroups.keys.filter fun tgid => tgid ≠ 1 ∧ some tgid ≠ exclude
  targets.foldl (fun kernel tgid => kernel.sendSignalThreadGroup tgid info) kernel

end Memory

/-! ## Thread groups -/

def trackThreadGroup (tgid pid : Pid) : Kernel μ :=
  let members := (kernel.threadGroups.getD tgid ∅).insert pid
  { kernel with threadGroups := kernel.threadGroups.insert tgid members }

def untrackThreadGroup (tgid pid : Pid) : Kernel μ :=
  match kernel.threadGroups[tgid]? with
  | none => kernel
  | some members =>
    let members := members.erase pid
    if members.isEmpty then
      { kernel with
        threadGroups := kernel.threadGroups.erase tgid
        groupExitStatus := update kernel.groupExitStatus tgid none }
    else { kernel with threadGroups := kernel.threadGroups.insert tgid members }

/-- Let a member run so that it finds the exit status of its group. -/
def expelMember (pid : Pid) : Kernel μ :=
  match kernel.processes pid with
  | none => kernel
  | some process =>
    match process.state with
    | .exited _ => kernel
    | .blocked _ => kernel.unblock pid process .signalInterrupted
    | _ =>
      (kernel.store pid { process with state := .runnable }).enqueueRunnablePid pid
        process.assignedCpu

def beginThreadGroupExit (tgid currentPid : Pid) (status : BitVec 32) : Kernel μ :=
  let kernel := { kernel with groupExitStatus := update kernel.groupExitStatus tgid (some status) }
  ((kernel.threadGroupMembers tgid).filter (· ≠ currentPid)).foldl expelMember kernel

/-- A thread takes its group with it. -/
def exitWithGroup (process : KernelProcess) (status : BitVec 32) : Kernel μ :=
  if process.isThread then
    kernel.beginThreadGroupExit process.threadGroup process.pid status
  else kernel

/-! ## Exit -/

section Exit

variable [UserSpaces μ] (kernel : Kernel μ)

def wakeFutexScopes (process : KernelProcess) (uaddr : BitVec 64)
    (count : Nat) (bitset : BitVec 32) : Kernel μ :=
  let kernel := (kernel.wakeFutex ⟨.privateTo process.addressSpace, uaddr⟩ bitset count).2
  (kernel.wakeFutex ⟨.shared, uaddr⟩ bitset count).2

def futexWaiters : BitVec 32 := 0x80000000
def futexOwnerDied : BitVec 32 := 0x40000000
def futexTidMask : BitVec 32 := 0x3fffffff

def cleanupRobustWord (process : KernelProcess) (uaddr : BitVec 64) : Kernel μ :=
  match kernel.readWord 32 process.addressSpace uaddr with
  | (none, kernel) => kernel
  | (some word, kernel) =>
    if word &&& futexTidMask ≠ BitVec.ofNat 32 process.pid then kernel
    else
      match kernel.writeWord process.addressSpace uaddr
          (word &&& futexWaiters ||| futexOwnerDied) with
      | (false, kernel) => kernel
      | (true, kernel) =>
        if word &&& futexWaiters ≠ 0 then
          kernel.wakeFutexScopes process uaddr 1 (BitVec.allOnes 32)
        else kernel

def cleanupRobustEntry (process : KernelProcess) (offset : BitVec 64)
    (entry : BitVec 64) : Kernel μ :=
  let uaddr := if offset.slt 0 then checkedSub entry (-offset) else checkedAdd entry offset
  match uaddr with
  | none => kernel
  | some uaddr => kernel.cleanupRobustWord process uaddr

/-- `ROBUST_LIST_LIMIT` bounds the walk over the list. -/
def cleanupRobustLoop (process : KernelProcess) (head offset : BitVec 64) :
    Nat → BitVec 64 → Kernel μ → Kernel μ
  | 0, _, kernel => kernel
  | turns + 1, entry, kernel =>
    if entry = 0 ∨ entry = head then kernel
    else
      match kernel.readWord 64 process.addressSpace entry with
      | (none, kernel) => kernel
      | (some next, kernel) =>
        cleanupRobustLoop process head offset turns next
          (kernel.cleanupRobustEntry process offset entry)

def robustListHeadLen : BitVec 64 := 24
def robustListLimit : Nat := 2048

def cleanupRobustList (process : KernelProcess) : Kernel μ :=
  match process.robustListHead with
  | none => kernel
  | some head =>
    if process.robustListLen < robustListHeadLen then kernel
    else
      let addressSpace := process.addressSpace
      match kernel.readWord 64 addressSpace head with
      | (none, kernel) => kernel
      | (some next, kernel) =>
        match kernel.readWord 64 addressSpace (head + 8) with
        | (none, kernel) => kernel
        | (some offset, kernel) =>
          match kernel.readWord 64 addressSpace (head + 16) with
          | (none, kernel) => kernel
          | (some pending, kernel) =>
            let kernel := cleanupRobustLoop process head offset robustListLimit next kernel
            if pending ≠ 0 ∧ pending ≠ head then
              kernel.cleanupRobustEntry process offset pending
            else kernel

def finishProcessExit (process : KernelProcess) : Kernel μ :=
  let kernel := kernel.disarmFutexWait process.pid
  let kernel := kernel.cleanupRobustList process
  match process.clearChildTid with
  | none => kernel
  | some address =>
    match kernel.writeWord process.addressSpace address (0 : BitVec 32) with
    | (false, kernel) => kernel
    | (true, kernel) =>
      kernel.wakeFutexScopes process address (2 ^ 31 - 1) (BitVec.allOnes 32)

def wakeVforkParent (parent child : Pid) : Kernel μ :=
  match kernel.processes parent with
  | none => kernel
  | some process =>
    if process.state = .blocked (.vfork child) then
      let value := BitVec.ofNat 64 child
      (kernel.store parent
        { process with wakeResult := some (.completedValue value), state := .runnable }
        ).enqueueRunnablePid parent process.assignedCpu
    else kernel

/-- The parent ignores `SIGCHLD`, or wants no zombies. -/
def ignoresSigchld (parent : Option Pid) : Bool :=
  (kernel.parentSigchldAction parent).any fun action => action.handler = sigIgn

def wantsNoZombies (parent : Option Pid) : Bool :=
  (kernel.parentSigchldAction parent).any fun action => action.flags &&& saNocldwait ≠ 0

/-- What the exit of a process does before its parent is told. -/
def leaveSystem (process : KernelProcess) : Kernel μ :=
  let pid := process.pid
  let kernel := { kernel with queuedSignals := update kernel.queuedSignals pid [] }
  let kernel := kernel.finishProcessExit process
  let kernel := match process.vforkParent with
    | none => kernel
    | some parent => kernel.wakeVforkParent parent pid
  kernel.untrackThreadGroup process.threadGroup pid

def signalParent (parent : Option Pid) (info : SignalInfo) : Kernel μ :=
  match parent with
  | none => kernel
  | some parent => kernel.notifySignal parent info

/-- What is left of a process is its zombie, unless nobody is to know. -/
def bury (process : KernelProcess) (status : BitVec 32) (forget : Bool) : Kernel μ :=
  let pid := process.pid
  let parent := process.parent
  if forget then
    ((kernel.record (.marked pid)).untrackChildLink parent pid).record (.reaped pid)
  else
    let zombie : ZombieProcess := ⟨parent, process.processGroup⟩
    let kernel := { kernel with zombies := update kernel.zombies pid (some zombie) }
    kernel.notifyChildEvent parent ⟨pid, .exited status⟩

def reapExitedProcess (process : KernelProcess) (status : BitVec 32) : Kernel μ :=
  let pid := process.pid
  let kernel := (kernel.record (.left process.serial)).leaveSystem process
  if process.isThread then (kernel.record (.marked pid)).record (.reaped pid)
  else
    let parent := process.parent
    let ignore := kernel.ignoresSigchld parent
    let noZombies := kernel.wantsNoZombies parent
    let kernel := if ignore then kernel else kernel.signalParent parent (.childExit pid status)
    kernel.bury process status (parent.isNone || ignore || noZombies)

/-! ## Giving a process back -/

/-- The result a block on files gets when one of them is ready. -/
def fileReadyResult : ProcessState → Option BlockResult
  | .blocked (.file _ _) => some (.file true)
  | .blocked (.poll _) => some (.poll false)
  | _ => none

/-- `ready` is what polling the files of the process finds. -/
def requeueProcess (process : KernelProcess) (ready : Bool) : Kernel μ :=
  let pid := process.pid
  match process.state with
  | .runnable => (kernel.enqueueRunnablePid pid process.assignedCpu).store pid process
  | .stopped _ | .blocked _ =>
    match if ready then fileReadyResult process.state else none with
    | some result =>
      (kernel.enqueueRunnablePid pid process.assignedCpu).store pid
        { process with wakeResult := some result, state := .runnable }
    | none => (kernel.trackBlockedProcess pid process.state).store pid process
  | .exited status => kernel.reapExitedProcess process status
  | .running | .faulted _ _ => kernel

/-- A wake that came while the wait was armed is found here. -/
def blockFromDisposition (process : KernelProcess) (block : BlockType) : KernelProcess × Kernel μ :=
  let pid := process.pid
  let process := { process with wakeResult := none }
  match block with
  | .futex key bitset _ =>
    let armed := kernel.armedFutexWaits[pid]?
    let kernel := kernel.disarmFutexWait pid
    if armed = some ⟨key, bitset, true⟩ then
      ({ process with wakeResult := some (.futex true false), state := .runnable }, kernel)
    else ({ process with state := .blocked block }, kernel)
  | _ => ({ process with state := .blocked block }, kernel)

def finishKernelBlock (process : KernelProcess) (block : BlockType) (ready : Bool) : Kernel μ :=
  let kernel := match block with
    | .futex _ _ _ => kernel
    | _ => kernel.disarmFutexWait process.pid
  let (process, kernel) := kernel.blockFromDisposition process block
  kernel.requeueProcess process ready

/-- Change the signal actions of the processes that share a table. -/
def shareActions (sighand : Nat) (change : SignalState → SignalState) (process : KernelProcess) :
    KernelProcess :=
  if process.sighand = sighand then
    { process with
      signals := { process.signals with actions := (change process.signals).actions } }
  else process

def commitPendingExec (process : KernelProcess) : Bool × KernelProcess × Kernel μ :=
  match process.pendingExec with
  | none => (false, process, kernel)
  | some task =>
    (true, { process with
        pendingExec := none
        task
        signals := process.signals.prepareForExec
        wakeResult := none },
      kernel.mapProcesses (shareActions process.sighand SignalState.prepareForExec))

def returnValue : Except SysErr (BitVec 64) → BitVec 64
  | .ok value => value
  | .error error => error.errno

def finishSyscallDispatch (process : KernelProcess) (disposition : SyscallDisposition) : Kernel μ :=
  let kernel := kernel.disarmFutexWait process.pid
  match disposition with
  | .returned value =>
    if process.state = .running then
      let (replaced, process, kernel) := kernel.commitPendingExec process
      let context := if replaced then process.context
        else process.context.setReturnValue (returnValue value)
      kernel.requeueProcess { process with
          pendingSyscall := false
          wakeResult := none
          context
          state := .runnable } false
    else kernel.requeueProcess process false
  | .exit status =>
    kernel.requeueProcess { process with pendingSyscall := false, state := .exited status } false
  | .exitGroup status =>
    (kernel.beginThreadGroupExit process.threadGroup process.pid status
      ).requeueProcess { process with pendingSyscall := false, state := .exited status } false

/-! ## Dispatch -/

/-- The exit status of a death by signal. -/
def signalStatus (signal : Nat) : BitVec 32 :=
  128 + BitVec.ofNat 32 signal

/-- Build the frame of a handler on the stack of the process. -/
def deliverSignal (process : KernelProcess) (info : SignalInfo)
    (action : SignalAction) : Bool × KernelProcess × Kernel μ :=
  let addressSpace := process.addressSpace
  let thread : Signal.KernelProcess μ :=
    ⟨process.context, process.fpuState, kernel.spaces addressSpace, process.signals⟩
  match deliverSignalToUser UserSpaces.space info action thread with
  | none => (false, process, kernel)
  | some (outcome, thread) =>
    let task := { process.task with context := thread.context, fpuState := thread.fpuState }
    let delivered := match outcome with
      | .ok () => true
      | .error _ => false
    (delivered, { process with task, signals := thread.signals }, { kernel with
        spaces := update kernel.spaces addressSpace thread.addressSpace })

/-- The address of the pid of a new thread is written when it first runs. -/
def prepareChildReturn (process : KernelProcess) : KernelProcess × Kernel μ :=
  match process.setChildTid with
  | none => (process, kernel)
  | some address =>
    let process := { process with setChildTid := none }
    match kernel.writeWord process.addressSpace address
        (BitVec.ofNat 32 process.pid) with
    | (true, kernel) => (process, kernel)
    | (false, kernel) => ({ process with state := .exited (signalStatus sigsegv) }, kernel)

/-- What becomes of an attempt to dispatch a process. -/
inductive Dispatch where
  /-- Go on with the next pid of the queue. -/
  | skip
  /-- The turn of the loop is used up, but there is nothing to run. -/
  | event
  | run (work : DispatchWork) (process : KernelProcess)

/-- What a signal does at dispatch: the process goes on, or the dispatch ends
here. -/
def takeSignal (process : KernelProcess) (currentCpu : Nat) : Option KernelProcess × Kernel μ :=
  let pid := process.pid
  let (delivery, signals) := process.signals.takeNextDelivery supportsUserHandlers
  let process := { process with signals }
  match delivery with
  | .none | .ignored _ => (some process, kernel)
  | .deliver info action =>
    match kernel.deliverSignal process info action with
    | (true, process, kernel) => (some process, kernel)
    | (false, process, kernel) =>
      if info.signal = sigchld then (some process, kernel)
      else
        let status := signalStatus info.signal
        (some { process with state := .exited status }, kernel.exitWithGroup process status)
  | .exit info =>
    let status := signalStatus info.signal
    (some { process with state := .exited status }, kernel.exitWithGroup process status)
  | .stop info =>
    -- The process is not put back into the table.
    (none, kernel.notifyChildEvent process.parent ⟨pid, .stopped info.signal⟩)
  | .continue _ =>
    match process.state with
    | .stopped _ =>
      let kernel := kernel.notifyChildEvent process.parent ⟨pid, .continued⟩
      let kernel := kernel.store pid { process with state := .runnable }
      (none, kernel.enqueueRunnablePid pid currentCpu)
    | _ => (some process, kernel)

/-- `process.state = Running`, or the end of a process that has exited. -/
def launch (process : KernelProcess) (work : DispatchWork) : Dispatch × Kernel μ :=
  (.run work { process with state := .running }, kernel)

def reapDispatched (process : KernelProcess) (status : BitVec 32) : Dispatch × Kernel μ :=
  (.event, kernel.reapExitedProcess process status)

def resumeTaken (process : KernelProcess) : Dispatch × Kernel μ :=
  match process.state with
  | .exited status => kernel.reapDispatched process status
  | _ =>
    if process.kernelContext.isSome then kernel.launch process .kernelContinuation
    else if process.pendingSyscall then kernel.launch process .kernelSyscall
    else
      let (process, kernel) := kernel.prepareChildReturn process
      match process.state with
      | .exited status => kernel.reapDispatched process status
      | _ => kernel.launch process .process

/-- The dispatch of a process that was taken out of the table. -/
def dispatchTaken (process : KernelProcess) (currentCpu : Nat) : Dispatch × Kernel μ :=
  match kernel.groupExitStatus process.threadGroup with
  | some status => kernel.reapDispatched { process with state := .exited status } status
  | none =>
    if process.pendingSyscall || process.kernelContext.isSome then kernel.resumeTaken process
    else
      match kernel.takeSignal process currentCpu with
      | (none, kernel) => (.event, kernel)
      | (some process, kernel) => kernel.resumeTaken process

def takeNextProcessForPid (pid : Pid) (currentCpu : Nat) : Dispatch × Kernel μ :=
  match kernel.processes pid with
  | none => (.skip, kernel)
  | some process =>
    let kernel := kernel.drop pid
    let (process, kernel) := kernel.drainQueuedSignals process
    if process.assignedCpu ≠ currentCpu then
      (.skip, (kernel.store pid process).enqueueRunnablePid pid process.assignedCpu)
    else kernel.dispatchTaken process currentCpu

/-- `try_take_current_cpu_work`: each turn takes one pid off the queue. -/
def takeLoop (currentCpu : Nat) : Nat → Kernel μ → Dispatch × Kernel μ
  | 0, kernel => (.event, kernel)
  | turns + 1, kernel =>
    let state := kernel.cpus currentCpu
    match state.runQueue with
    | [] => (.event, kernel)
    | pid :: rest =>
      let kernel := kernel.setCpu currentCpu { state with runQueue := rest }
      match kernel.takeNextProcessForPid pid currentCpu with
      | (.skip, kernel) => takeLoop currentCpu turns kernel
      | outcome => outcome

/-! ## Exceptions -/

/-- Why a process left user mode other than by a system call. -/
inductive RunReason where
  | interrupt (vector : Nat)
  /-- `handled` is the answer of the address space to a page fault. -/
  | exception (vector : Nat) (errorCode : BitVec 64) (handled : Bool)

def pageFaultVector : Nat := 14

def exceptionSignal (vector : Nat) : Option Nat :=
  if vector = 0 then some sigfpe
  else if vector = 1 ∨ vector = 3 then some sigtrap
  else if vector = 6 then some sigill
  else if vector = 13 ∨ vector = pageFaultVector then some sigsegv
  else none

def queueSynchronousFaultSignal (process : KernelProcess) (signal : Nat)
    (code : BitVec 32) : KernelProcess × Kernel μ :=
  match process.signals.actions[signal]? with
  | none => ({ process with state := .exited (signalStatus signal) }, kernel)
  | some action =>
    if supportsUserHandlers && action.handler ≠ sigDfl && action.handler ≠ sigIgn &&
        process.signals.blocked &&& sigbit signal = 0 then
      ({ process with
          signals := process.signals.enqueue (.kernel signal code)
          state := .runnable }, kernel)
    else
      ({ process with state := .exited (signalStatus signal) },
        kernel.exitWithGroup process (signalStatus signal))

def finishProcess (process : KernelProcess) (reason : RunReason) : Kernel μ :=
  match reason with
  | .interrupt _ =>
    let (process, kernel) := kernel.drainQueuedSignals process
    kernel.requeueProcess { process with state := .runnable } false
  | .exception vector errorCode handled =>
    if vector = pageFaultVector ∧ handled then
      kernel.requeueProcess { process with state := .runnable } false
    else
      let (process, kernel) := kernel.drainQueuedSignals process
      match exceptionSignal vector with
      | some signal =>
        let (process, kernel) :=
          kernel.queueSynchronousFaultSignal process signal (errorCode.setWidth 32)
        kernel.requeueProcess process false
      | none => kernel.requeueProcess { process with state := .faulted vector errorCode } false

end Exit

/-! ## Timers and files -/

/-- The processes in the set of an expired deadline. -/
def wakeExpiredLoop : List Pid → Kernel μ → Kernel μ
  | [], kernel => kernel
  | pid :: rest, kernel =>
    match (kernel.processes pid).map KernelProcess.state with
    | some (.blocked (.timer _ _ rmtp flags)) =>
      wakeExpiredLoop rest
        (kernel.wakeProcessWithResult pid (.timer true 0 rmtp (flags &&& timerAbstime ≠ 0)))
    | some (.blocked (.futex _ _ _)) =>
      wakeExpiredLoop rest (kernel.wakeProcessWithResult pid (.futex false true))
    | some (.blocked (.poll _)) =>
      wakeExpiredLoop rest (kernel.wakeProcessWithResult pid (.poll true))
    | _ => wakeExpiredLoop rest kernel

/-- Every deadline up to the current time is taken off the table. -/
def wakeExpiredTimersLoop (now : Nat) : Nat → Kernel μ → Kernel μ
  | 0, kernel => kernel
  | turns + 1, kernel =>
    match kernel.blockedTimers.minEntry? with
    | none => kernel
    | some (deadline, waiters) =>
      if now < deadline then kernel
      else
        let kernel := { kernel with blockedTimers := kernel.blockedTimers.erase deadline }
        wakeExpiredTimersLoop now turns (wakeExpiredLoop waiters.toList kernel)

def wakeExpiredTimers : Kernel μ :=
  wakeExpiredTimersLoop kernel.monotonicNanos kernel.blockedTimers.size kernel

def wakeReadyLoop : List Pid → Kernel μ → Kernel μ
  | [], kernel => kernel
  | pid :: rest, kernel =>
    match (kernel.processes pid).map KernelProcess.state with
    | some (.blocked (.file _ _)) =>
      wakeReadyLoop rest (kernel.wakeProcessWithResult pid (.file true))
    | some (.blocked (.poll _)) =>
      wakeReadyLoop rest (kernel.wakeProcessWithResult pid (.poll false))
    | _ => wakeReadyLoop rest kernel

def wakeReadyFileBlocks : Kernel μ :=
  wakeReadyLoop kernel.fileWaitQueue { kernel with fileWaitQueue := [] }

/-! ## New processes -/

/-- The numbers with which `allocate_pid` compares one that is asked for. -/
def inUse (pid : Pid) : Bool :=
  (kernel.processes pid).isSome || (kernel.zombies pid).isSome || (kernel.runningCpuOf pid).isSome

def allocatePid (requested : Option Pid) : Except SysErr Pid × Kernel μ :=
  match choosePid kernel.inUse kernel.nextPid requested with
  | .error error => (.error error, kernel)
  | .ok (pid, nextPid) => (.ok pid, { kernel with nextPid })

def insertProcess (process : KernelProcess) : Kernel μ :=
  let pid := process.pid
  ((kernel.store pid process).enqueueRunnablePid pid process.assignedCpu).record (.created pid)

def insertClonedProcess (process : KernelProcess) : Kernel μ :=
  let kernel := kernel.trackThreadGroup process.threadGroup process.pid
  let kernel := if process.isThread then kernel
    else kernel.trackChildLink process.parent process.pid
  kernel.insertProcess process

/-- A process that has not run yet. -/
def freshProcess (serial : Nat) (identity : ProcessIdentity) (task : Task)
    (assignedCpu sighand : Nat) (signals : SignalState) : KernelProcess where
  serial
  vforkChild := none
  identity
  task
  assignedCpu
  kernelContext := none
  pendingExec := none
  pendingSyscall := false
  vforkParent := none
  setChildTid := none
  robustListHead := none
  robustListLen := 0
  clearChildTid := none
  sighand
  signals
  wakeResult := none
  state := .runnable

def spawnTask (parent : Option Pid) (task : Task) (assignedCpu sighand : Nat) : Kernel μ :=
  let pid := kernel.nextPid
  let kernel := { kernel with nextPid := min (pid + 1) (2 ^ 32 - 1) }
  let kernel := kernel.trackChildLink parent pid
  let kernel := kernel.trackThreadGroup pid pid
  kernel.insertProcess
    (freshProcess kernel.journal.length ⟨pid, pid, parent, pid, pid⟩ task assignedCpu sighand
      SignalState.new)

/-! ## Process groups -/

/-- `process.identity.process_group = group` for a process of the table. -/
def setProcessGroup (group : Pid) (kernel : Kernel μ) (pid : Pid) : Kernel μ :=
  match kernel.processes pid with
  | none => kernel
  | some process =>
    kernel.store pid { process with processGroup := group }

/-- The caller changes its own group. -/
def setpgidSelf (caller : KernelProcess) (group : Pid) : Except SysErr KernelProcess × Kernel μ :=
  if caller.session = caller.pid then (.error .perm, kernel)
  else if group ≠ caller.pid ∧ group ≠ caller.processGroup ∧
      kernel.processGroupSession group ≠ some caller.session then (.error .perm, kernel)
  else
    let siblings := (kernel.threadGroupMembers caller.threadGroup).filter (· ≠ caller.pid)
    (.ok { caller with processGroup := group }, siblings.foldl (setProcessGroup group) kernel)

/-- The loop of `setpgid` over the members of the group of a child: it stops
with an error at the first that is not in the table. -/
def setpgidLoop (group : Pid) : List Pid → Kernel μ → Except SysErr Unit × Kernel μ
  | [], kernel => (.ok (), kernel)
  | pid :: rest, kernel =>
    match kernel.processes pid with
    | none => (.error .srch, kernel)
    | some _ => setpgidLoop group rest (kernel.setProcessGroup group pid)

def threadGroupOf (pid : Pid) : Option Pid :=
  match kernel.processes pid with
  | some process => some process.threadGroup
  | none => kernel.runningThreadGroupOf pid

def setpgidChild (caller : KernelProcess) (target group : Pid) : Except SysErr Unit × Kernel μ :=
  match kernel.threadGroupOf target with
  | none => (.error .srch, kernel)
  | some tgid =>
    let children := kernel.parentChildren caller.pid
    if ¬(children.contains tgid ∨ children.contains target) then (.error .srch, kernel)
    else
      let members := kernel.threadGroupMembers tgid
      match members.findSome? kernel.processes with
      | none => (.error .srch, kernel)
      | some representative =>
        if representative.session ≠ caller.session then (.error .perm, kernel)
        else if representative.session = tgid then (.error .perm, kernel)
        else if group ≠ tgid ∧ group ≠ caller.processGroup ∧
            kernel.processGroupSession group ≠ some caller.session then
          (.error .perm, kernel)
        else setpgidLoop group members kernel

/-- The caller as it is afterwards, and the result of the call. -/
def setpgid (caller : KernelProcess) (targetPid processGroup : Pid) :
    KernelProcess × Except SysErr Unit × Kernel μ :=
  let target := if targetPid = 0 then caller.pid else targetPid
  let group := if processGroup = 0 then target else processGroup
  if target = caller.pid then
    match kernel.setpgidSelf caller group with
    | (.error error, kernel) => (caller, .error error, kernel)
    | (.ok caller, kernel) => (caller, .ok (), kernel)
  else
    let (result, kernel) := kernel.setpgidChild caller target group
    (caller, result, kernel)

end Kernel

end AetherKernel.Sched
