import AetherKernel.Errno
import Mathlib.Data.BitVec

/-!
# Signal actions, masks and alternate stacks

The signal state of one thread: the installed actions, the blocked and pending
signals, and the alternate stack.  Masks and flags are machine words, as user
space sees them.
-/

namespace AetherKernel.Signal

/-! ## Signals and actions -/

/-- The highest signal number. -/
def signalMax : Nat :=
  64

def sigill : Nat := 4
def sigtrap : Nat := 5
def sigfpe : Nat := 8
def sigkill : Nat := 9
def sigsegv : Nat := 11
def sigchld : Nat := 17
def sigcont : Nat := 18
def sigstop : Nat := 19
def sigtstp : Nat := 20
def sigttin : Nat := 21
def sigttou : Nat := 22
def sigurg : Nat := 23
def sigwinch : Nat := 28

/-- The handler that asks for the default action. -/
def sigDfl : BitVec 64 := 0

/-- The handler that asks for the signal to be dropped. -/
def sigIgn : BitVec 64 := 1

def saNocldstop : BitVec 64 := 0x00000001
def saNocldwait : BitVec 64 := 0x00000002
def saSiginfo : BitVec 64 := 0x00000004
def saOnstack : BitVec 64 := 0x08000000
def saRestorer : BitVec 64 := 0x04000000
def saNodefer : BitVec 64 := 0x40000000

/-- What a pending signal carries to its receiver. -/
structure SignalInfo where
  signal : Nat
  code : BitVec 32
  status : BitVec 32
  pid : BitVec 32
  uid : BitVec 32
  deriving DecidableEq

def cldExited : BitVec 32 := 1
def cldKilled : BitVec 32 := 2
def cldStopped : BitVec 32 := 5
def cldContinued : BitVec 32 := 6

namespace SignalInfo

/-- A status of `128` or more is a death by signal. -/
def childExit (pid : Nat) (status : BitVec 32) : SignalInfo :=
  if 128 ≤ status.toInt then ⟨sigchld, cldKilled, status - 128, BitVec.ofNat 32 pid, 0⟩
  else ⟨sigchld, cldExited, status, BitVec.ofNat 32 pid, 0⟩

def childStop (pid signal : Nat) : SignalInfo :=
  ⟨sigchld, cldStopped, BitVec.ofNat 32 signal, BitVec.ofNat 32 pid, 0⟩

def childContinue (pid : Nat) : SignalInfo :=
  ⟨sigchld, cldContinued, 0, BitVec.ofNat 32 pid, 0⟩

def kernel (signal : Nat) (code : BitVec 32) : SignalInfo :=
  ⟨signal, code, 0, 0, 0⟩

end SignalInfo

/-- An installed action; the handler is whatever address user space gave. -/
structure SignalAction where
  handler : BitVec 64
  flags : BitVec 64
  restorer : BitVec 64
  mask : BitVec 64
  deriving DecidableEq

/-- The action every signal starts with. -/
def SignalAction.defaultFor : SignalAction :=
  ⟨sigDfl, 0, 0, 0⟩

/-- The mask bit of a signal; no signal outside `1..64` has one. -/
def sigbit (signal : Nat) : BitVec 64 :=
  if signal = 0 ∨ signalMax < signal then 0 else 1 <<< (signal - 1)

/-- `SIGKILL` and `SIGSTOP` cannot be blocked. -/
def sanitizeMask (mask : BitVec 64) : BitVec 64 :=
  mask &&& ~~~(sigbit sigkill ||| sigbit sigstop)

def isBlocked (mask : BitVec 64) (signal : Nat) : Bool :=
  mask &&& sigbit signal != 0 && signal != sigkill && signal != sigstop

inductive SignalDefault where
  | ignore
  | terminate
  | stop
  | continue
  deriving DecidableEq

def defaultAction (signal : Nat) : SignalDefault :=
  if signal = sigchld ∨ signal = sigurg ∨ signal = sigwinch then .ignore
  else if signal = sigstop ∨ signal = sigtstp ∨ signal = sigttin ∨ signal = sigttou then .stop
  else if signal = sigcont then .continue
  else .terminate

inductive SignalDelivery where
  | none
  | ignored (info : SignalInfo)
  | deliver (info : SignalInfo) (action : SignalAction)
  | exit (info : SignalInfo)
  | stop (info : SignalInfo)
  | continue (info : SignalInfo)
  deriving DecidableEq

/-- What becomes of one pending signal under a mask and an action. -/
def deliveryFor (blocked : BitVec 64) (action : SignalAction) (info : SignalInfo)
    (handlersSupported : Bool) : SignalDelivery :=
  if isBlocked blocked info.signal then .none
  else if action.handler = sigIgn then .ignored info
  else if action.handler ≠ sigDfl then
    if handlersSupported then .deliver info action else .exit info
  else
    match defaultAction info.signal with
    | .ignore => .ignored info
    | .terminate => .exit info
    | .stop => .stop info
    | .continue => .continue info

/-! ## Alternate stacks -/

def ssOnstack : BitVec 32 := 1
def ssDisable : BitVec 32 := 2
def ssAutodisarm : BitVec 32 := 0x80000000

def minsigstksz : BitVec 64 := 2048

structure SignalStack where
  ssSp : BitVec 64
  ssFlags : BitVec 32
  pad : BitVec 32
  ssSize : BitVec 64
  deriving DecidableEq

namespace SignalStack

def disabled : SignalStack :=
  ⟨0, ssDisable, 0, 0⟩

variable (stack : SignalStack)

/-- `base.checked_add(size)`. -/
def top : Option (BitVec 64) :=
  if stack.ssSp.toNat + stack.ssSize.toNat < 2 ^ 64 then some (stack.ssSp + stack.ssSize) else none

def configEnabled : Bool :=
  stack.ssFlags &&& ssDisable == 0 && decide (0 < stack.ssSize)

def containsSp (sp : BitVec 64) : Bool :=
  stack.configEnabled && match stack.top with
    | none => false
    | some stackEnd => decide (stack.ssSp ≤ sp) && decide (sp < stackEnd)

def statusFlags (sp : BitVec 64) : BitVec 32 :=
  if stack.configEnabled then
    let flags := stack.ssFlags &&& ssAutodisarm
    if stack.containsSp sp then flags ||| ssOnstack else flags
  else
    ssDisable

def formatOld (sp : BitVec 64) : SignalStack :=
  { stack with ssFlags := stack.statusFlags sp }

def validateNew : Except SysErr Unit :=
  if stack.ssFlags &&& ssDisable ≠ 0 then .ok ()
  else if stack.ssFlags &&& ~~~(ssOnstack ||| ssAutodisarm) ≠ 0 then .error .inval
  else if stack.ssSize < minsigstksz then .error .noMem
  else .ok ()

/-- What `signal_altstack_store` leaves in the destination. -/
def stored (source : SignalStack) : SignalStack :=
  if source.ssFlags &&& ssDisable ≠ 0 then disabled
  else { source with ssFlags := source.ssFlags &&& ~~~ssOnstack &&& ssAutodisarm }

end SignalStack

/-! ## The state of a thread -/

/-- Index `0` of both tables is unused. -/
structure SignalState where
  actions : Vector SignalAction 65
  blocked : BitVec 64
  pending : Vector (Option SignalInfo) 65
  suspendMask : Option (BitVec 64)
  altstack : SignalStack

namespace SignalState

def new : SignalState where
  actions := Vector.replicate 65 SignalAction.defaultFor
  blocked := 0
  pending := Vector.replicate 65 none
  suspendMask := none
  altstack := SignalStack.disabled

variable (state : SignalState)

def setBlockedMask (mask : BitVec 64) : SignalState :=
  { state with blocked := sanitizeMask mask }

/-- Any handler address is accepted, for every signal but the two that cannot
be caught. -/
def setAction (signal : Nat) (action : SignalAction) : Bool × SignalState :=
  if signal = 0 ∨ signalMax < signal ∨ signal = sigkill ∨ signal = sigstop then (false, state)
  else (true, { state with actions := state.actions.setIfInBounds signal action })

/-- A stop signal cancels a pending continue and the other way round. -/
def enqueue (info : SignalInfo) : SignalState :=
  if info.signal = 0 ∨ signalMax < info.signal then state
  else
    let clear (pending : Vector (Option SignalInfo) 65) (signals : List Nat) :=
      signals.foldl (fun table signal => table.setIfInBounds signal none) pending
    let pending :=
      if info.signal = sigcont then clear state.pending [sigstop, sigtstp, sigttin, sigttou]
      else if info.signal = sigstop ∨ info.signal = sigtstp ∨ info.signal = sigttin
          ∨ info.signal = sigttou then clear state.pending [sigcont]
      else state.pending
    { state with pending := pending.setIfInBounds info.signal (some info) }

/-- The scan of `take_next_delivery` over a list of signal numbers. -/
def takeFirst (state : SignalState) (handlersSupported : Bool) :
    List Nat → SignalDelivery × SignalState
  | [] => (.none, state)
  | signal :: rest =>
    match state.pending[signal]?.join, state.actions[signal]? with
    | some info, some action =>
      match deliveryFor state.blocked action info handlersSupported with
      | .none => takeFirst state handlersSupported rest
      | delivery =>
        (delivery, { state with pending := state.pending.setIfInBounds signal none })
    | _, _ => takeFirst state handlersSupported rest

/-- The pending signal of lowest number that is not blocked leaves the table. -/
def takeNextDelivery (handlersSupported : Bool) : SignalDelivery × SignalState :=
  state.takeFirst handlersSupported (List.range' 1 signalMax)

/-- Some pending signal is not blocked. -/
def hasDeliverable (handlersSupported : Bool) : Bool :=
  (List.range' 1 signalMax).any fun signal =>
    match state.pending[signal]?.join, state.actions[signal]? with
    | some info, some action =>
      deliveryFor state.blocked action info handlersSupported ≠ .none
    | _, _ => false

/-- The caller's mask is put aside while a temporary one holds. -/
def enterSigsuspend (mask : BitVec 64) : SignalState :=
  { state with suspendMask := some state.blocked, blocked := sanitizeMask mask }

def leaveSigsuspend : SignalState :=
  match state.suspendMask with
  | none => state
  | some previous => { state with suspendMask := none, blocked := previous }

/-- The scan of `take_pending_in_mask` over a list of signal numbers. -/
def takeInMask (state : SignalState) (masked : BitVec 64) : List Nat → SignalState
  | [] => state
  | signal :: rest =>
    match state.pending[signal]?.join with
    | some info =>
      if sigbit info.signal ≠ 0 ∧ masked &&& sigbit info.signal ≠ 0 then
        { state with pending := state.pending.setIfInBounds signal none }
      else takeInMask state masked rest
    | none => takeInMask state masked rest

/-- A signal descriptor takes a pending signal that its mask names. -/
def takePendingInMask (mask : BitVec 64) : SignalState :=
  state.takeInMask (sanitizeMask mask) (List.range' 1 signalMax)

/-- The state of a new thread or process: nothing is pending. -/
def cloned : SignalState :=
  { state with pending := Vector.replicate 65 none, suspendMask := none }

/-- Handlers of the old image are gone; what was ignored stays so. -/
def prepareForExec : SignalState :=
  { state with
    actions := state.actions.map fun action =>
      if action.handler ≠ sigDfl ∧ action.handler ≠ sigIgn then SignalAction.defaultFor else action
    suspendMask := none
    altstack := SignalStack.disabled }

def restoreAfterSigreturn (mask : BitVec 64) (altstack : SignalStack) : SignalState :=
  { state with blocked := sanitizeMask mask, altstack := altstack.stored }

def shouldUseAltstackForSignal (actionFlags userSp : BitVec 64) : Bool :=
  actionFlags &&& saOnstack != 0 && state.altstack.configEnabled &&
    !state.altstack.containsSp userSp

def armAltstackForSignal : SignalState :=
  if state.altstack.ssFlags &&& ssAutodisarm ≠ 0 then
    { state with altstack := SignalStack.disabled }
  else
    state

end SignalState

end AetherKernel.Signal
