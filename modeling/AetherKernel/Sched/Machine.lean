import AetherKernel.Sched.Manager

/-!
# Steps of the machine

A step is one use of the manager under its lock, or something that a processor
does on its own between two of them.  System calls are followed as far as their
waits depend on it; what else they do is left open.
-/

namespace AetherKernel.Sched

open Lib Signal Std

/-- Uses of the manager that are not about the caller: by any system call, or
by the scheduler loop of a processor. -/
inductive Service where
  | sendSignal (pid : Pid) (info : SignalInfo)
  | sendSignalThreadGroup (tgid : Pid) (info : SignalInfo)
  | sendSignalProcessGroup (group : Pid) (info : SignalInfo)
  | sendSignalAllThreadGroups (info : SignalInfo) (exclude : Option Pid)
  | wakeFutex (key : FutexKey) (bitset : BitVec 32) (count : Nat)
  | requeueFutex (source target : FutexKey) (wakeCount requeueCount : Nat) (bitset : BitVec 32)
  | wakeExpiredTimers
  | wakeReadyFileBlocks

/-- What a system call does to its own process without the manager. -/
inductive OwnChange where
  | blockedMask (mask : BitVec 64)
  | enterSigsuspend (mask : BitVec 64)
  | leaveSigsuspend
  | robustList (head : Option (BitVec 64)) (len : BitVec 64)
  | clearChildTid (address : Option (BitVec 64))
  | setsid

def OwnChange.apply (process : KernelProcess) : OwnChange → KernelProcess
  | .blockedMask mask => { process with signals := process.signals.setBlockedMask mask }
  | .enterSigsuspend mask => { process with signals := process.signals.enterSigsuspend mask }
  | .leaveSigsuspend => { process with signals := process.signals.leaveSigsuspend }
  | .robustList head len => { process with robustListHead := head, robustListLen := len }
  | .clearChildTid address => { process with clearChildTid := address }
  | .setsid =>
    if process.processGroup = process.pid then process
    else { process with processGroup := process.pid, session := process.pid }

theorem OwnChange.state_apply (change : OwnChange) (process : KernelProcess) :
    (change.apply process).state = process.state := by
  cases change <;> try rfl
  simp only [OwnChange.apply]
  split <;> rfl

/-- What `clone_process` reads of its parameters to build the child. -/
structure CloneParams where
  thread : Bool
  inheritParent : Bool
  sharesVm : Bool
  shareSighand : Bool
  isVfork : Bool
  clearChildTid : Option (BitVec 64)

def CloneParams.validate (params : CloneParams) : Bool :=
  (!params.thread || params.shareSighand && params.sharesVm) &&
    (!params.shareSighand || params.sharesVm) && (!params.isVfork || params.sharesVm)

/-- A thread shares the memory, and so does the child of a `vfork`. -/
theorem CloneParams.sharesVm_of_validate {params : CloneParams} (valid : params.validate)
    (needs : params.thread ∨ params.isVfork) : params.sharesVm := by
  unfold validate at valid
  grind

/-- The child of a clone.  The processor and the identity of a new table of
actions are chosen elsewhere. -/
def cloneChild (serial : Nat) (parent : KernelProcess) (params : CloneParams) (pid : Pid)
    (task : Task) (cpu sighand : Nat) : KernelProcess :=
  let identity := parent.identity.cloned pid params.thread params.inheritParent
  { Kernel.freshProcess serial identity task (if params.sharesVm then parent.assignedCpu else cpu)
      (if params.shareSighand then parent.sighand else sighand) parent.signals.cloned with
    vforkParent := if params.isVfork then some parent.pid else none
    clearChildTid := params.clearChildTid }

inductive Step (μ : Type) where
  | spawn (parent : Option Pid) (task : Task) (assignedCpu sighand : Nat)
  | take (cpu : Nat)
  | publish (cpu : Nat)
  | trap (cpu : Nat) (reason : Kernel.RunReason)
  | enter (cpu : Nat)
  | release (cpu : Nat)
  | change (cpu : Nat) (change : OwnChange)
  | setAction (cpu : Nat) (signal : Nat) (action : SignalAction)
  | setpgid (cpu : Nat) (target group : Pid)
  | allocate (cpu : Nat) (requested : Option Pid)
  | insert (cpu : Nat) (params : CloneParams) (task : Task) (assignedCpu sighand : Nat)
  | abandon (cpu : Nat)
  | vforkWait (cpu : Nat)
  | execve (cpu : Nat) (task : Task)
  | futexWait (cpu : Nat) (uaddr : BitVec 64) (isPrivate : Bool) (expected bitset : BitVec 32)
      (deadline : Option Nat)
  | futexRead (cpu : Nat)
  | futexDisarm (cpu : Nat)
  | futexBlock (cpu : Nat)
  | waitChild (cpu : Nat) (wait : ChildWait)
  | checkChild (cpu : Nat) (selector : WaitChildSelector)
  | probeChild (cpu : Nat)
  | blockOnChild (cpu : Nat) (selector : WaitChildSelector)
  | blockOn (cpu : Nat) (block : BlockType)
  | compute (cpu : Nat) (disposition : SyscallDisposition)
  | finishBlock (cpu : Nat) (ready : Bool)
  | finishReturn (cpu : Nat)
  | service (service : Service)
  | takePending (pid : Pid) (mask : BitVec 64)
  | fileReady (pid : Pid)
  | tick (nanos : Nat)
  | memory (addressSpace : Nat) (contents : μ)

namespace Kernel

variable {μ : Type} [UserSpaces μ] (kernel : Kernel μ)

def serve : Service → Kernel μ
  | .sendSignal pid info => kernel.sendSignal pid info
  | .sendSignalThreadGroup tgid info => kernel.sendSignalThreadGroup tgid info
  | .sendSignalProcessGroup group info => kernel.sendSignalProcessGroup group info
  | .sendSignalAllThreadGroups info exclude => kernel.sendSignalAllThreadGroups info exclude
  | .wakeFutex key bitset count => (kernel.wakeFutex key bitset count).2
  | .requeueFutex source target wakeCount requeueCount bitset =>
    (kernel.requeueFutex source target wakeCount requeueCount bitset).2
  | .wakeExpiredTimers => kernel.wakeExpiredTimers
  | .wakeReadyFileBlocks => kernel.wakeReadyFileBlocks

/-! ## Dispatch -/

/-- A suspended call goes on with the result of its block. -/
def resumeStage (context : KernelContext) (result : BlockResult) : Stage :=
  match context with
  | .futexWait => .returning (futexDisposition result)
  | .childWait wait =>
    match wait.api, result with
    | .wait4, .completedValue value => .returning (.ok value)
    | .waitId, .completedValue _ => .childWait wait
    | _, _ => .returning (.err .intr)
  | .vforkWait => .returning (vforkDisposition result)
  | .other => .running

/-- What the processor does with the work it has taken. -/
def entered (work : DispatchWork) (process : KernelProcess) : Activity :=
  match work with
  | .process => .user process
  | .kernelSyscall => .kernel process .running
  | .kernelContinuation =>
    .kernel { process with wakeResult := none }
      (resumeStage (process.kernelContext.getD .other) process.resumeResult)

def take (cpu : Nat) : Kernel μ :=
  match takeLoop cpu (kernel.cpus cpu).runQueue.length kernel with
  | (.run work process, kernel) => kernel.setActivity cpu (.dispatched work process)
  | (_, kernel) => kernel

/-! ## Futex waits -/

/-- `futex_blocking` up to the arming of the wait. -/
def startFutexWait (cpu : Nat) (process : KernelProcess) (wait : FutexWait) : Kernel μ :=
  match process.wakeResult with
  | some result =>
    kernel.setActivity cpu
      (.kernel { process with wakeResult := none } (.returning (futexDisposition result)))
  | none =>
    if wait.bitset = 0 then
      kernel.setActivity cpu (.kernel process (.returning (.err .inval)))
    else
      (kernel.armFutexWait process.pid wait.key wait.bitset).setActivity cpu
        (.kernel process (.futexArmed wait))

/-- The word decides whether the wait goes on. -/
def compareWord (wait : FutexWait) : Option (BitVec 32) → Stage
  | none => .futexFailed (.err .fault)
  | some word => if word = wait.expected then .futexMatched wait else .futexFailed (.err .again)

def blockOnFutex (cpu : Nat) (process : KernelProcess) (wait : FutexWait) : Kernel μ :=
  let stage := match process.wakeResult with
    | some result => .returning (futexDisposition result)
    | none => .blocking (.futex wait.key wait.bitset wait.deadlineNanos) .futexWait
  kernel.setActivity cpu (.kernel { process with wakeResult := none } stage)

/-! ## Waits for children -/

/-- `waitid` accepts some flags only, and needs a kind of event to wait for. -/
def waitidAccepts (options : BitVec 64) : Bool :=
  options &&& ~~~(wnohang ||| wuntraced ||| wexited ||| wcontinued ||| wnowait) = 0 &&
    options &&& (wexited ||| wuntraced ||| wcontinued) ≠ 0

variable (process : KernelProcess)

/-- The beginning of `wait4_blocking`, and of each turn of `waitid_blocking`. -/
def startChildWait (wait : ChildWait) : Activity :=
  match wait.api with
  | .wait4 => .kernel process (.childWait wait)
  | .waitId =>
    match process.wakeResult with
    | none | some (.completedValue _) =>
      let process := { process with wakeResult := none }
      if waitidAccepts wait.options then .kernel process (.childWait wait)
      else .kernel process (.returning (.err .inval))
    | some _ => .kernel { process with wakeResult := none } (.returning (.err .intr))

/-- The bytes of the `siginfo` that `waitid` stores. -/
def waitidSiginfo (event : ChildEvent) : List Byte :=
  let (code, status) : BitVec 32 × BitVec 32 := match event.kind with
    | .exited status =>
      if 128 ≤ status.toInt then (cldKilled, status - 128) else (cldExited, status)
    | .stopped signal => (cldStopped, BitVec.ofNat 32 signal)
    | .continued => (cldContinued, 0)
  Bytes.ofNat 4 sigchld ++ Bytes.ofNat 4 0 ++ Bytes.ofWord code ++ Bytes.ofNat 4 0 ++
    Bytes.ofNat 4 event.pid ++ Bytes.ofNat 4 0 ++ Bytes.ofWord status ++ List.replicate 100 0

/-- `write_user_buffer` unless the pointer is null, and what the call returns
then. -/
def replyBytes (process : KernelProcess) (address : BitVec 64)
    (bytes : List Byte) (value : BitVec 64) : SyscallDisposition × Kernel μ :=
  if address = 0 then (.ok value, kernel)
  else
    let addressSpace := process.addressSpace
    let (written, memory) := UserSpaces.space.write (kernel.spaces addressSpace) address bytes
    (if written = some bytes.length then .ok value else .err .fault,
      { kernel with spaces := Function.update kernel.spaces addressSpace memory })

def replyEvent (process : KernelProcess) (wait : ChildWait)
    (event : ChildEvent) : SyscallDisposition × Kernel μ :=
  match wait.api with
  | .wait4 =>
    kernel.replyBytes process wait.statusPtr (Bytes.ofWord (waitStatus event.kind))
      (BitVec.ofNat 64 event.pid)
  | .waitId => kernel.replyBytes process wait.infoPtr (waitidSiginfo event) 0

def checkChild (cpu : Nat) (process : KernelProcess) (wait : ChildWait)
    (selector : WaitChildSelector) : Kernel μ :=
  match kernel.waitChildEvent process.pid selector wait.options wait.consume with
  | (none, kernel) => kernel.setActivity cpu (.kernel process (.childChecked wait selector))
  | (some event, kernel) =>
    let (disposition, kernel) := kernel.replyEvent process wait event
    kernel.setActivity cpu (.kernel process (.returning disposition))

def probeChild (cpu : Nat) (process : KernelProcess) (wait : ChildWait)
    (selector : WaitChildSelector) : Kernel μ :=
  if kernel.hasWaitableChild process.pid selector then
    if wait.nohang then
      let infoPtr := if wait.api = .waitId then wait.infoPtr else 0
      let (disposition, kernel) := kernel.replyBytes process infoPtr (List.replicate 128 0) 0
      kernel.setActivity cpu (.kernel process (.returning disposition))
    else kernel.setActivity cpu (.kernel process (.childWaitable wait selector))
  else kernel.setActivity cpu (.kernel process (.returning (.err .child)))

def blockOnChild (wait : ChildWait) (selector : WaitChildSelector) : Activity :=
  let stage := match process.wakeResult with
    | some result => resumeStage (.childWait wait) result
    | none => .blocking (wait.block selector) (.childWait wait)
  .kernel { process with wakeResult := none } stage

/-- How `clone_process_blocking` goes on with its child. -/
def cloned (params : CloneParams) (serial child : Nat) : Activity :=
  if params.isVfork then
    .kernel { process with vforkChild := some (serial, child) } (.vforked child)
  else .kernel process .running

def blockOnVfork (child : Pid) : Activity :=
  let stage := match process.wakeResult with
    | some result => .returning (vforkDisposition result)
    | none => .blocking (.vfork child) .vforkWait
  .kernel { process with wakeResult := none } stage

/-- `execve` once it has loaded the new program. -/
def execve (cpu : Nat) (process : KernelProcess) (task : Task) : Kernel μ :=
  let kernel := kernel.record (.left process.serial)
  let kernel := match process.vforkParent with
    | none => kernel
    | some parent => kernel.wakeVforkParent parent process.pid
  kernel.setActivity cpu
    (.kernel { process with pendingExec := some task, vforkParent := none } .running)

/-- The blocks that are asked for by calls that are not followed here. -/
def isOther : BlockType → Bool
  | .futex _ _ _ | .vfork _ | .waitChild _ _ _ _ _ => false
  | _ => true

def blockOn (block : BlockType) : Activity :=
  match process.wakeResult with
  | some _ => .kernel { process with wakeResult := none } .running
  | none => .kernel process (.blocking block .other)

/-! ## The steps -/

/-- A step of a processor that is executing a system call. -/
def performCall (cpu : Nat) (process : KernelProcess) (stage : Stage) : Step μ → Option (Kernel μ)
  | .change _ change =>
    match stage with
    | .running => some (kernel.setActivity cpu (.kernel (change.apply process) .running))
    | _ => none
  | .setAction _ signal action =>
    match stage with
    | .running =>
      some (kernel.mapProcesses (shareActions process.sighand fun signals =>
        (signals.setAction signal action).2))
    | _ => none
  | .setpgid _ target group =>
    match stage with
    | .running =>
      let (process, _, kernel) := kernel.setpgid process target group
      some (kernel.setActivity cpu (.kernel process .running))
    | _ => none
  | .allocate _ requested =>
    match stage with
    | .running =>
      match kernel.allocatePid requested with
      | (.error _, _) => some kernel
      | (.ok pid, kernel) => some (kernel.setActivity cpu (.kernel process (.cloning pid)))
    | _ => none
  | .insert _ params task assignedCpu sighand =>
    match stage with
    | .cloning pid =>
      if params.validate then
        let serial := kernel.journal.length
        let child := cloneChild serial process params pid task assignedCpu sighand
        some ((kernel.insertClonedProcess child).setActivity cpu (cloned process params serial pid))
      else none
    | _ => none
  | .abandon _ =>
    match stage with
    | .cloning _ => some (kernel.setActivity cpu (.kernel process .running))
    | _ => none
  | .vforkWait _ =>
    match stage with
    | .vforked child => some (kernel.setActivity cpu (blockOnVfork process child))
    | _ => none
  | .execve _ task =>
    match stage with
    | .running => some (kernel.execve cpu process task)
    | _ => none
  | .futexWait _ uaddr isPrivate expected bitset deadline =>
    match stage with
    | .running =>
      let key := futexKey process.addressSpace uaddr isPrivate
      some (kernel.startFutexWait cpu process ⟨uaddr, key, expected, bitset, deadline⟩)
    | _ => none
  | .futexRead _ =>
    match stage with
    | .futexArmed wait =>
      let (word, kernel) := kernel.readWord 32 process.addressSpace wait.uaddr
      some (kernel.setActivity cpu (.kernel process (compareWord wait word)))
    | _ => none
  | .futexDisarm _ =>
    match stage with
    | .futexFailed disposition =>
      some ((kernel.disarmFutexWait process.pid).setActivity cpu
        (.kernel process (.returning disposition)))
    | _ => none
  | .futexBlock _ =>
    match stage with
    | .futexMatched wait => some (kernel.blockOnFutex cpu process wait)
    | _ => none
  | .waitChild _ wait =>
    match stage with
    | .running => some (kernel.setActivity cpu (startChildWait process wait))
    | _ => none
  | .checkChild _ selector =>
    match stage with
    | .childWait wait =>
      if wait.Selects selector then some (kernel.checkChild cpu process wait selector)
      else none
    | _ => none
  | .probeChild _ =>
    match stage with
    | .childChecked wait selector => some (kernel.probeChild cpu process wait selector)
    | _ => none
  | .blockOnChild _ selector =>
    match stage with
    | .childWaitable wait _ =>
      if wait.Selects selector then
        some (kernel.setActivity cpu (blockOnChild process wait selector))
      else none
    | _ => none
  | .blockOn _ block =>
    match stage with
    | .running =>
      -- Without a continuation to resume, the wait panics.
      if isOther block && process.kernelContext.isSome then
        some (kernel.setActivity cpu (blockOn process block))
      else none
    | _ => none
  | .compute _ disposition =>
    match stage with
    | .running => some (kernel.setActivity cpu (.kernel process (.returning disposition)))
    | _ => none
  | .finishBlock _ ready =>
    match stage with
    | .blocking block context =>
      some ((kernel.setActivity cpu .leaving).finishKernelBlock
        { process with kernelContext := some context } block ready)
    | _ => none
  | .finishReturn _ =>
    match stage with
    | .returning disposition =>
      some ((kernel.setActivity cpu .leaving).finishSyscallDispatch
        { process with kernelContext := none } disposition)
    | _ => none
  | _ => none

/-- The processor that makes a step. -/
def actor : Step μ → Option Nat
  | .take cpu | .publish cpu | .trap cpu _ | .enter cpu | .release cpu | .change cpu _
  | .setAction cpu _ _ | .setpgid cpu _ _ | .allocate cpu _ | .insert cpu _ _ _ _ | .abandon cpu
  | .vforkWait cpu | .execve cpu _
  | .futexWait cpu _ _ _ _ _ | .futexRead cpu | .futexDisarm cpu | .futexBlock cpu
  | .waitChild cpu _ | .checkChild cpu _ | .probeChild cpu | .blockOnChild cpu _ | .blockOn cpu _
  | .compute cpu _ | .finishBlock cpu _ | .finishReturn cpu => some cpu
  | .spawn _ _ _ _ | .service _ | .takePending _ _ | .fileReady _ | .tick _ | .memory _ _ => none

/-- A step of a processor, by what the processor is doing. -/
def performOn (cpu : Nat) (step : Step μ) : Option (Kernel μ) :=
  match (kernel.cpus cpu).activity, step with
  | .idle, .take _ => some (kernel.take cpu)
  | .dispatched work process, .publish _ =>
    some ((kernel.setCurrent cpu (some process.runningSnapshot)).setActivity cpu
      (entered work process))
  | .user process, .trap _ reason =>
    some ((kernel.setActivity cpu .leaving).finishProcess process reason)
  | .user process, .enter _ =>
    some (kernel.setActivity cpu
      (.kernel { process with pendingSyscall := true, kernelContext := some .other } .running))
  | .leaving, .release _ => some ((kernel.setCurrent cpu none).setActivity cpu .idle)
  | .kernel process stage, step => kernel.performCall cpu process stage step
  | _, _ => none

/-- A step that no processor makes, or that any of them may make. -/
def performFree : Step μ → Option (Kernel μ)
  | .spawn parent task assignedCpu sighand =>
    some (kernel.spawnTask parent task assignedCpu sighand)
  | .service service => some (kernel.serve service)
  | .takePending pid mask =>
    some (kernel.mapProcesses fun process =>
      if process.pid = pid then
        { process with signals := process.signals.takePendingInMask mask }
      else process)
  | .fileReady pid => some { kernel with fileWaitQueue := kernel.fileWaitQueue ++ [pid] }
  | .tick nanos => some { kernel with monotonicNanos := max nanos kernel.monotonicNanos }
  | .memory addressSpace contents =>
    some { kernel with spaces := Function.update kernel.spaces addressSpace contents }
  | _ => none

def perform (step : Step μ) : Option (Kernel μ) :=
  match actor step with
  | some cpu => if cpu < kernel.cpuCount then kernel.performOn cpu step else none
  | none => kernel.performFree step

/-- A step together with what it has done. -/
def Performs (before : Kernel μ) (label : Step μ × List Event) (after : Kernel μ) : Prop :=
  before.perform label.1 = some after ∧ after.journal = label.2 ++ before.journal

end Kernel

end AetherKernel.Sched
