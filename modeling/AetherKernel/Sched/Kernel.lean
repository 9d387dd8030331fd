import AetherKernel.Sched.Process

/-!
# Processors and the process manager

The state behind the lock of the process manager, together with what each
processor is doing.  A process is in the table of the manager, or a processor
has taken it out and holds it, or only its zombie is left.
-/

namespace AetherKernel.Sched

open Lib Signal Std Function

/-- Where the system call of a running process stands. -/
inductive Stage where
  /-- Anywhere in a call, between its uses of the manager. -/
  | running
  /-- `clone_process` has been given a pid and has not inserted the child. -/
  | cloning (pid : Pid)
  /-- `clone_process` has inserted a child that the call is to wait for. -/
  | vforked (child : Pid)
  /-- `futex_blocking` has armed the wait and not yet read the word. -/
  | futexArmed (wait : FutexWait)
  /-- The word did not have the expected value, or could not be read. -/
  | futexFailed (disposition : SyscallDisposition)
  | futexMatched (wait : FutexWait)
  /-- `wait4` or `waitid` is about to look for an event. -/
  | childWait (wait : ChildWait)
  /-- `wait_child_event` has found nothing. -/
  | childChecked (wait : ChildWait) (selector : WaitChildSelector)
  /-- `has_waitable_child` has found a child. -/
  | childWaitable (wait : ChildWait) (selector : WaitChildSelector)
  /-- The call has switched to the scheduler and waits for its block to be
  recorded. -/
  | blocking (block : BlockType) (context : KernelContext)
  | returning (disposition : SyscallDisposition)

/-- The child of a `vfork` for which the call is going to block. -/
def Stage.awaits : Stage → Option Pid
  | .vforked child | .blocking (.vfork child) _ => some child
  | _ => none

/-- The pid that a clone has been given. -/
def Stage.reserves : Stage → Option Pid
  | .cloning pid => some pid
  | _ => none

/-- The kinds of `DispatchWork` that carry a process. -/
inductive DispatchWork where
  | process
  | kernelContinuation
  | kernelSyscall
  deriving DecidableEq

inductive Activity where
  | idle
  /-- Taken out of the table, not yet visible to other processors. -/
  | dispatched (work : DispatchWork) (process : KernelProcess)
  | user (process : KernelProcess)
  | kernel (process : KernelProcess) (stage : Stage)
  /-- The process has been given back and is still shown as running. -/
  | leaving

/-- The process that a processor holds. -/
def Activity.held : Activity → Option KernelProcess
  | .idle | .leaving => none
  | .dispatched _ process | .user process | .kernel process _ => some process

@[simp]
theorem Activity.held_leaving : Activity.leaving.held = none :=
  rfl

@[simp]
theorem Activity.held_dispatched (work : DispatchWork) (process : KernelProcess) :
    (Activity.dispatched work process).held = some process :=
  rfl

variable (process : KernelProcess)

@[simp]
theorem Activity.held_user : (Activity.user process).held = some process :=
  rfl

@[simp]
theorem Activity.held_kernel (stage : Stage) :
    (Activity.kernel process stage).held = some process :=
  rfl

def Activity.awaits : Activity → Option Pid
  | .kernel _ stage => stage.awaits
  | .idle | .leaving | .dispatched _ _ | .user _ => none

def Activity.reserves : Activity → Option Pid
  | .kernel _ stage => stage.reserves
  | .idle | .leaving | .dispatched _ _ | .user _ => none

def Activity.map (change : KernelProcess → KernelProcess) : Activity → Activity
  | .idle => .idle
  | .leaving => .leaving
  | .dispatched work process => .dispatched work (change process)
  | .user process => .user (change process)
  | .kernel process stage => .kernel (change process) stage

structure Cpu where
  runQueue : List Pid
  current : Option RunningProcessSnapshot
  activity : Activity

/-- What the manager has done, for the specifications to refer to. -/
inductive Event where
  | created (pid : Pid)
  | reaped (pid : Pid)
  /-- A child event was put into the queue of the parent. -/
  | queued (parent : Pid) (event : ChildEvent)
  /-- A child event was not what the blocked parent waits for. -/
  | passed (parent : Pid) (event : ChildEvent)
  /-- A child event ended the wait of the parent. -/
  | woke (parent : Pid) (event : ChildEvent)
  /-- A signal reached a process of the table. -/
  | notified (pid : Pid) (info : SignalInfo)
  /-- A futex wake counted a waiter. -/
  | counted (pid : Pid)
  /-- A wait was given a child event, which is gone then. -/
  | consumed (parent : Pid) (event : ChildEvent)
  /-- A wait was given a child event, which stays in the queue. -/
  | seen (parent : Pid) (event : ChildEvent)
  /-- `pidfd.mark_reaped()`. -/
  | marked (pid : Pid)
  /-- A process has replaced its program, or has exited. -/
  | left (serial : Nat)
  deriving DecidableEq

/-- The memory of all address spaces has one type of contents. -/
class UserSpaces (μ : Type) where
  space : UserSpace μ

structure Kernel (μ : Type) where
  cpuCount : Nat
  cpus : Nat → Cpu
  nextPid : Pid
  processes : Pid → Option KernelProcess
  zombies : Pid → Option ZombieProcess
  threadGroups : TreeMap Pid (TreeSet Pid)
  groupExitStatus : Pid → Option (BitVec 32)
  queuedSignals : Pid → List SignalInfo
  parentChildren : Pid → TreeSet Pid
  childEvents : Pid → List ChildEvent
  blockedTimers : TreeMap Nat (TreeSet Pid)
  blockedFutexes : FutexKey → TreeSet Pid
  armedFutexWaits : TreeMap Pid ArmedFutexWait
  fileWaitQueue : List Pid
  spaces : Nat → μ
  monotonicNanos : Nat
  /-- Everything that has happened, newest first. -/
  journal : List Event

namespace Kernel

variable {μ : Type}

/-- `ProcessManager::new`, with all processors idle. -/
def new (cpuCount : Nat) (spaces : Nat → μ) : Kernel μ where
  cpuCount
  cpus _ := ⟨[], none, .idle⟩
  nextPid := 1
  processes _ := none
  zombies _ := none
  threadGroups := ∅
  groupExitStatus _ := none
  queuedSignals _ := []
  parentChildren _ := ∅
  childEvents _ := []
  blockedTimers := ∅
  blockedFutexes _ := ∅
  armedFutexWaits := ∅
  fileWaitQueue := []
  spaces
  monotonicNanos := 0
  journal := []

/-! ## Elementary updates -/

variable (kernel : Kernel μ)

def record (event : Event) : Kernel μ :=
  { kernel with journal := event :: kernel.journal }

/-- `processes.insert(pid, process)`. -/
def store (pid : Pid) (process : KernelProcess) : Kernel μ :=
  { kernel with processes := update kernel.processes pid (some process) }

/-- `processes.remove(&pid)`. -/
def drop (pid : Pid) : Kernel μ :=
  { kernel with processes := update kernel.processes pid none }

def setCpu (cpu : Nat) (state : Cpu) : Kernel μ :=
  { kernel with cpus := update kernel.cpus cpu state }

def setActivity (cpu : Nat) (activity : Activity) : Kernel μ :=
  kernel.setCpu cpu { kernel.cpus cpu with activity }

def setCurrent (cpu : Nat) (current : Option RunningProcessSnapshot) : Kernel μ :=
  kernel.setCpu cpu { kernel.cpus cpu with current }

@[simp]
theorem cpus_setActivity_self (cpu : Nat) (activity : Activity) :
    (kernel.setActivity cpu activity).cpus cpu = { kernel.cpus cpu with activity } := by
  simp [setActivity, setCpu]

@[simp]
theorem cpus_setActivity_of_ne {cpu other : Nat} (apart : other ≠ cpu) (activity : Activity) :
    (kernel.setActivity cpu activity).cpus other = kernel.cpus other := by
  simp [setActivity, setCpu, update_of_ne apart]

/-- Change every process, wherever it is; for state that processes share. -/
def mapProcesses (change : KernelProcess → KernelProcess) : Kernel μ :=
  { kernel with
    processes := fun pid => (kernel.processes pid).map change
    cpus := fun cpu =>
      { kernel.cpus cpu with activity := (kernel.cpus cpu).activity.map change } }

/-- `enqueue_runnable_pid`: a pid is in a run queue once. -/
def enqueueRunnablePid (pid : Pid) (cpu : Nat) : Kernel μ :=
  let state := kernel.cpus cpu
  if pid ∈ state.runQueue then kernel
  else kernel.setCpu cpu { state with runQueue := state.runQueue ++ [pid] }

/-! ## Running processes -/

def runningCpuOf (pid : Pid) : Option Nat :=
  (List.range kernel.cpuCount).find? fun cpu => (kernel.cpus cpu).current.any (·.pid = pid)

def runningSnapshotOf (pid : Pid) : Option RunningProcessSnapshot :=
  (kernel.runningCpuOf pid).bind fun cpu => (kernel.cpus cpu).current

def runningProcessGroupOf (pid : Pid) : Option Pid :=
  (kernel.runningSnapshotOf pid).map RunningProcessSnapshot.processGroup

def runningThreadGroupOf (pid : Pid) : Option Pid :=
  (kernel.runningSnapshotOf pid).map RunningProcessSnapshot.threadGroup

/-! ## User memory -/

section Memory

variable [UserSpaces μ]

/-- `read_user_exact`, little-endian. -/
def readWord (width : Nat) (kernel : Kernel μ) (addressSpace : Nat) (address : BitVec 64) :
    Option (BitVec width) × Kernel μ :=
  let (bytes, memory) :=
    UserSpaces.space.readUserExact (kernel.spaces addressSpace) address (width / 8)
  (bytes.map fun bytes => BitVec.ofNat width (Bytes.toNat bytes),
    { kernel with spaces := update kernel.spaces addressSpace memory })

/-- `write`, and whether all of the word was written. -/
def writeWord {width : Nat} (kernel : Kernel μ) (addressSpace : Nat) (address : BitVec 64)
    (word : BitVec width) : Bool × Kernel μ :=
  let (written, memory) :=
    UserSpaces.space.write (kernel.spaces addressSpace) address (Bytes.ofWord word)
  (written = some (width / 8), { kernel with spaces := update kernel.spaces addressSpace memory })

end Memory

end Kernel

end AetherKernel.Sched
