import AetherKernel.Signal.Frame

/-!
# Processes as the scheduler sees them

What the process manager reads and writes of a process: who it is, why it does
not run, and how a system call that was suspended goes on.
-/

namespace AetherKernel.Sched

open Lib Signal

abbrev Pid :=
  Nat

/-! ## Identity -/

structure ProcessIdentity where
  pid : Pid
  threadGroup : Pid
  parent : Option Pid
  processGroup : Pid
  session : Pid
  deriving DecidableEq

/-- The numbers that `allocate_pid` chooses, the second one for the next time, when some
are in use. -/
def choosePid (inUse : Pid → Bool) (nextPid : Pid) : Option Pid → Except SysErr (Pid × Pid)
  | some pid =>
    if pid = 0 then .error .inval
    else if inUse pid then .error .exists
    else .ok (pid, if nextPid ≤ pid then min (pid + 1) (2 ^ 32 - 1) else nextPid)
  | none => .ok (nextPid, min (nextPid + 1) (2 ^ 32 - 1))

theorem choosePid_ok {inUse : Pid → Bool} {nextPid pid next : Pid} {requested : Option Pid}
    (chosen : choosePid inUse nextPid requested = .ok (pid, next)) :
    requested = none ∧ pid = nextPid ∧ next = min (pid + 1) (2 ^ 32 - 1) ∨
      requested = some pid ∧ inUse pid = false ∧
        next = if nextPid ≤ pid then min (pid + 1) (2 ^ 32 - 1) else nextPid := by
  unfold choosePid at chosen
  split at chosen
  · split at chosen
    · cases chosen
    split at chosen
    · cases chosen
    · rename_i free
      cases chosen
      exact .inr ⟨rfl, by simpa using free, rfl⟩
  · cases chosen
    exact .inl ⟨rfl, rfl, rfl⟩

theorem lt_nextPid {pid : Pid} (below : pid < 2 ^ 32 - 1) : pid < min (pid + 1) (2 ^ 32 - 1) :=
  Nat.lt_min.mpr ⟨Nat.lt_succ_self _, below⟩

/-- The identity of the child of a clone. -/
def ProcessIdentity.cloned (identity : ProcessIdentity) (pid : Pid) (thread inheritParent : Bool) :
    ProcessIdentity where
  pid
  threadGroup := if thread then identity.threadGroup else pid
  parent := if thread || inheritParent then identity.parent else some identity.threadGroup
  processGroup := identity.processGroup
  session := identity.session

/-! ## Futexes -/

inductive FutexScope where
  | privateTo (addressSpace : Nat)
  | shared
  deriving DecidableEq

structure FutexKey where
  scope : FutexScope
  uaddr : BitVec 64
  deriving DecidableEq

def futexKey (addressSpace : Nat) (uaddr : BitVec 64) (isPrivate : Bool) : FutexKey :=
  if isPrivate then ⟨.privateTo addressSpace, uaddr⟩ else ⟨.shared, uaddr⟩

structure ArmedFutexWait where
  key : FutexKey
  bitset : BitVec 32
  racedWake : Bool
  deriving DecidableEq

/-! ## Waiting for children -/

inductive WaitChildSelector where
  | any
  | pid (pid : Pid)
  | processGroup (group : Pid)
  deriving DecidableEq

inductive WaitChildApi where
  | wait4
  | waitId
  deriving DecidableEq

inductive ChildEventKind where
  | exited (status : BitVec 32)
  | stopped (signal : Nat)
  | continued
  deriving DecidableEq

structure ChildEvent where
  pid : Pid
  kind : ChildEventKind
  deriving DecidableEq

def wnohang : BitVec 64 := 1
def wuntraced : BitVec 64 := 2
def wexited : BitVec 64 := 4
def wcontinued : BitVec 64 := 8
def wnowait : BitVec 64 := 0x01000000

def childEventMatchesOptions (kind : ChildEventKind) (options : BitVec 64) : Bool :=
  match kind with
  | .exited _ => true
  | .stopped _ => options &&& wuntraced ≠ 0
  | .continued => options &&& wcontinued ≠ 0

def waitStatus : ChildEventKind → BitVec 32
  | .exited status => if 128 ≤ status.toInt then status - 128 else (status &&& 0xff) <<< 8
  | .stopped signal => BitVec.ofNat 32 signal <<< 8 ||| 0x7f
  | .continued => 0xffff

structure ZombieProcess where
  parent : Option Pid
  processGroup : Pid
  deriving DecidableEq

/-! ## Blocking -/

/-- How a system call asks to be suspended. -/
inductive BlockType where
  | timer (targetNanos requestNanos : Nat) (rmtp flags : BitVec 64)
  | file (fd : Nat) (events : BitVec 32)
  | poll (deadlineNanos : Option Nat)
  | futex (key : FutexKey) (bitset : BitVec 32) (deadlineNanos : Option Nat)
  | signalSuspend
  | vfork (child : Pid)
  | waitChild (selector : WaitChildSelector) (api : WaitChildApi) (statusPtr infoPtr : BitVec 64)
      (options : BitVec 64)
  deriving DecidableEq

/-- What a suspended call is told when it goes on. -/
inductive BlockResult where
  | timer (completed : Bool) (remainingNanos : Nat) (rmtp : BitVec 64) (isAbsolute : Bool)
  | file (ready : Bool)
  | poll (timedOut : Bool)
  | futex (woke timedOut : Bool)
  | signalInterrupted
  | completedValue (value : BitVec 64)
  deriving DecidableEq

/-- `ProcessBlock` has the same cases as the request it comes from. -/
abbrev ProcessBlock :=
  BlockType

inductive ProcessState where
  | runnable
  | running
  | stopped (signal : Nat)
  | blocked (block : ProcessBlock)
  | exited (status : BitVec 32)
  | faulted (vector : Nat) (errorCode : BitVec 64)
  deriving DecidableEq

inductive SyscallDisposition where
  | returned (value : Except SysErr (BitVec 64))
  | exit (status : BitVec 32)
  | exitGroup (status : BitVec 32)
  deriving DecidableEq

namespace SyscallDisposition

def ok (value : BitVec 64) : SyscallDisposition :=
  .returned (.ok value)

def err (error : SysErr) : SyscallDisposition :=
  .returned (.error error)

end SyscallDisposition

/-! ## System calls that wait -/

/-- A `FUTEX_WAIT` whose arguments have been checked. -/
structure FutexWait where
  uaddr : BitVec 64
  key : FutexKey
  expected : BitVec 32
  bitset : BitVec 32
  deadlineNanos : Option Nat
  deriving DecidableEq

/-- Which child a wait is for: given by its arguments, or by a process
descriptor that is looked up again each time. -/
inductive ChildTarget where
  | fixed (selector : WaitChildSelector)
  | pidfd
  deriving DecidableEq

/-- A `wait4` or `waitid` whose options have been checked. -/
structure ChildWait where
  api : WaitChildApi
  target : ChildTarget
  statusPtr : BitVec 64
  infoPtr : BitVec 64
  options : BitVec 64
  deriving DecidableEq

namespace ChildWait

variable (wait : ChildWait)

def nohang : Bool :=
  wait.options &&& wnohang ≠ 0

def consume : Bool :=
  wait.api = .wait4 || wait.options &&& wnowait = 0

/-- A fixed target has one selector; a process descriptor may have come to
refer to another process. -/
def Selects (selector : WaitChildSelector) : Prop :=
  match wait.target with
  | .fixed fixed => selector = fixed
  | .pidfd => ∃ pid, selector = .pid pid

instance (wait : ChildWait) (selector : WaitChildSelector) : Decidable (wait.Selects selector) :=
  match wait with
  | ⟨_, .fixed fixed, _, _, _⟩ => inferInstanceAs (Decidable (selector = fixed))
  | ⟨_, .pidfd, _, _, _⟩ =>
    match selector with
    | .pid pid => .isTrue ⟨pid, rfl⟩
    | .any => .isFalse fun ⟨_, same⟩ => nomatch same
    | .processGroup _ => .isFalse fun ⟨_, same⟩ => nomatch same

def block (selector : WaitChildSelector) : BlockType :=
  .waitChild selector wait.api wait.statusPtr wait.infoPtr wait.options

end ChildWait

/-- Where a suspended system call goes on; `other` stands for the calls whose
rest is not modelled. -/
inductive KernelContext where
  | futexWait
  | childWait (wait : ChildWait)
  | vforkWait
  | other
  deriving DecidableEq

/-- `BuiltProcess`; the address space is named by its identity. -/
structure Task where
  context : UserContext
  fpuState : List Byte
  addressSpace : Nat

structure KernelProcess extends identity : ProcessIdentity, task : Task where
  /-- When the process was created; specifications tell processes apart by it,
  because a pid can be used again. -/
  serial : Nat
  /-- The `serial` and the pid of the child for which a `vfork` waits; this too is
  for specifications only. -/
  vforkChild : Option (Nat × Pid)
  assignedCpu : Nat
  kernelContext : Option KernelContext
  pendingExec : Option Task
  /-- Whether a system call has been entered and not completed. -/
  pendingSyscall : Bool
  vforkParent : Option Pid
  setChildTid : Option (BitVec 64)
  robustListHead : Option (BitVec 64)
  robustListLen : BitVec 64
  clearChildTid : Option (BitVec 64)
  /-- The table of signal actions, which threads share. -/
  sighand : Nat
  signals : SignalState
  wakeResult : Option BlockResult
  state : ProcessState

/-- What the manager does not change of a process. -/
structure Kin where
  serial : Nat
  pid : Pid
  threadGroup : Pid
  parent : Option Pid
  assignedCpu : Nat
  vforkParent : Option Pid
  vforkChild : Option (Nat × Pid)
  deriving Inhabited

namespace KernelProcess

variable (process : KernelProcess)

def isThread : Bool :=
  process.threadGroup ≠ process.pid

def kin : Kin where
  serial := process.serial
  pid := process.pid
  threadGroup := process.threadGroup
  parent := process.parent
  assignedCpu := process.assignedCpu
  vforkParent := process.vforkParent
  vforkChild := process.vforkChild

theorem isThread_iff : process.isThread ↔ process.kin.threadGroup ≠ process.kin.pid := by
  simp [isThread, kin]

/-- `self.process.wake_result.take().unwrap_or(SignalInterrupted)`. -/
def resumeResult : BlockResult :=
  process.wakeResult.getD .signalInterrupted

end KernelProcess

/-- What other processors see of a running process. -/
structure RunningProcessSnapshot where
  pid : Pid
  threadGroup : Pid
  processGroup : Pid
  deriving DecidableEq

def KernelProcess.runningSnapshot (process : KernelProcess) : RunningProcessSnapshot :=
  ⟨process.pid, process.threadGroup, process.processGroup⟩

/-- The result of a `clone` that has waited for its child. -/
def vforkDisposition : BlockResult → SyscallDisposition
  | .completedValue value => .ok value
  | _ => .err .intr

/-- The result of a `FUTEX_WAIT` that was suspended. -/
def futexDisposition : BlockResult → SyscallDisposition
  | .futex true _ => .ok 0
  | .futex false true => .err .timedOut
  | _ => .err .intr

end AetherKernel.Sched
