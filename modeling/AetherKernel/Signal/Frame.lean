import AetherKernel.Lib.Bytes
import AetherKernel.Lib.Exec
import AetherKernel.Lib.Word
import AetherKernel.Signal.Context
import AetherKernel.Signal.State

/-!
# Signal frames

Delivering a signal to a handler pushes a frame with the interrupted context on
the user stack; `rt_sigreturn` reads such a frame back.  The frame lies in user
memory, so what is read back is whatever the program has left there.
-/

namespace AetherKernel.Signal

open Lib Exec Bytes Cursor

/-! ## The saved context -/

structure LinuxMContext where
  gregs : Vector (BitVec 64) 23
  fpregs : BitVec 64
  reserved1 : Vector (BitVec 64) 8

structure LinuxUContext where
  ucFlags : BitVec 64
  ucLink : BitVec 64
  ucStack : SignalStack
  ucMcontext : LinuxMContext
  ucSigmask : Vector (BitVec 64) 16
  fpregsMem : List Byte
  ssp : Vector (BitVec 64) 4

/-- `size_of::<LinuxUContext>()`. -/
def ucontextSize : Nat := 968

/-- `size_of::<LinuxSiginfo>()`. -/
def siginfoSize : Nat := 128

def trampolineBytes : List Byte :=
  [0xb8, 15, 0, 0, 0, 0x0f, 0x05, 0x0f, 0x0b]

def ucSigcontextSs : BitVec 64 := 0x2
def ucStrictRestoreSs : BitVec 64 := 0x4
def x8664RedZoneSize : BitVec 64 := 128
def x8664SignalFrameAlign : BitVec 64 := 16
def fpregsMemOffset : BitVec 64 := 424

/-- The bytes that a `repr(C)` array of words occupies. -/
def wordsBytes {width count : Nat} (words : Vector (BitVec width) count) : List Byte :=
  words.toList.flatMap ofWord

def serializeUcontext (ucontext : LinuxUContext) : List Byte :=
  ofWord ucontext.ucFlags ++ ofWord ucontext.ucLink ++
    ofWord ucontext.ucStack.ssSp ++ ofWord ucontext.ucStack.ssFlags ++
    ofWord ucontext.ucStack.pad ++ ofWord ucontext.ucStack.ssSize ++
    wordsBytes ucontext.ucMcontext.gregs ++ ofWord ucontext.ucMcontext.fpregs ++
    wordsBytes ucontext.ucMcontext.reserved1 ++ wordsBytes ucontext.ucSigmask ++
    ucontext.fpregsMem ++ wordsBytes ucontext.ssp

/-- The fields of the frame in the order in which they are read. -/
def ucontextFields : Cursor LinuxUContext := do
  let ucFlags ← word 64
  let ucLink ← word 64
  let ssSp ← word 64
  let ssFlags ← word 32
  let ssPad ← word 32
  let ssSize ← word 64
  let gregs ← words 64 23
  let fpregs ← word 64
  let reserved1 ← words 64 8
  let sigmask ← words 64 16
  let fpregsMem ← slice 512
  let ssp ← words 64 4
  pure ⟨ucFlags, ucLink, ⟨ssSp, ssFlags, ssPad, ssSize⟩, ⟨gregs, fpregs, reserved1⟩,
    sigmask, fpregsMem, ssp⟩

def decodeUcontext (bytes : List Byte) : Option LinuxUContext :=
  if bytes.length ≠ ucontextSize then none
  else
    match ucontextFields bytes 0 with
    | none => none
    | some (ucontext, offset) => if offset ≠ bytes.length then none else some ucontext

/-- `serialize_siginfo`; the fields the kernel does not fill are zero. -/
def serializeSiginfo (info : SignalInfo) : List Byte :=
  ofWord (BitVec.ofNat 32 info.signal) ++ ofWord (0 : BitVec 32) ++
    ofWord info.code ++ ofWord (0 : BitVec 32) ++ ofWord info.pid ++
    ofWord info.uid ++ ofWord info.status ++ List.replicate 100 0

/-- `build_ucontext`; `fpregsMem` is the floating-point state already copied
into the buffer of the frame. -/
def buildUcontext (fpregsMem : List Byte) (context : UserContext) (mask : BitVec 64)
    (altstack : SignalStack) (ucontextAddr : BitVec 64) : LinuxUContext where
  ucFlags := ucSigcontextSs ||| ucStrictRestoreSs
  ucLink := 0
  ucStack := altstack
  ucMcontext :=
    { gregs :=
        let g := context.general
        #v[g.r8, g.r9, g.r10, g.r11, g.r12, g.r13, g.r14, g.r15, g.rdi, g.rsi, g.rbp, g.rbx,
          g.rdx, g.rax, g.rcx, g.rsp, g.rip, g.rflags,
          userCodeSelector ||| userDataSelector <<< 48, context.errorCode, context.trapNum,
          0, 0]
      fpregs := ucontextAddr + fpregsMemOffset
      reserved1 := Vector.replicate 8 0 }
  ucSigmask := (Vector.replicate 16 0).set 0 mask
  fpregsMem := fpregsMem
  ssp := Vector.replicate 4 0

/-- Every register of the frame is taken over as it stands. -/
def restoreUcontext (current : UserContext) (ucontext : LinuxUContext) : UserContext :=
  let gregs := ucontext.ucMcontext.gregs
  { current with
    general :=
      { r8 := gregs[0], r9 := gregs[1], r10 := gregs[2], r11 := gregs[3], r12 := gregs[4]
        r13 := gregs[5], r14 := gregs[6], r15 := gregs[7], rdi := gregs[8], rsi := gregs[9]
        rbp := gregs[10], rbx := gregs[11], rdx := gregs[12], rax := gregs[13]
        rcx := gregs[14], rsp := gregs[15], rip := gregs[16], rflags := gregs[17] }
    errorCode := gregs[19]
    trapNum := gregs[20] }

/-! ## The layout of a frame -/

inductive SignalFrameError where
  | invalidFrame
  | userMemory
  deriving DecidableEq

def checkedSub (a b : BitVec 64) : Option (BitVec 64) :=
  (Word.checkedSub a.toNat b.toNat).map (.ofNat 64)

def checkedAdd (a b : BitVec 64) : Option (BitVec 64) :=
  (Word.checkedAdd a.toNat b.toNat).map (.ofNat 64)

def saturatingSub (a b : BitVec 64) : BitVec 64 :=
  if b ≤ a then a - b else 0

def alignDown (value align : BitVec 64) : BitVec 64 :=
  .ofNat 64 (Word.alignDown value.toNat align.toNat)

structure SignalFrameLayout where
  frameBase : BitVec 64
  ucontextAddr : BitVec 64
  siginfoAddr : BitVec 64
  trampolineAddr : BitVec 64
  usesStackTrampoline : Bool
  returnAddress : List Byte

def SignalFrameLayout.new (userRsp : BitVec 64) (action : SignalAction) :
    Except SignalFrameError SignalFrameLayout :=
  let usesStackTrampoline := action.flags &&& saRestorer == 0 || action.restorer == 0
  let trampolineLen : Nat := if usesStackTrampoline then trampolineBytes.length else 0
  let fixedBytes := BitVec.ofNat 64 (8 + ucontextSize + siginfoSize + trampolineLen)
  match checkedSub userRsp x8664RedZoneSize with
  | none => .error .invalidFrame
  | some stackTop =>
    match (checkedSub stackTop fixedBytes).bind
        (fun base => checkedAdd (alignDown base x8664SignalFrameAlign) 8) with
    | none => .error .invalidFrame
    | some aligned =>
      let frameBase := if saturatingSub stackTop fixedBytes < aligned then
          saturatingSub aligned x8664SignalFrameAlign
        else
          aligned
      let ucontextAddr := frameBase + 8
      let siginfoAddr := ucontextAddr + BitVec.ofNat 64 ucontextSize
      let trampolineAddr := siginfoAddr + BitVec.ofNat 64 siginfoSize
      .ok
        { frameBase, ucontextAddr, siginfoAddr, trampolineAddr, usesStackTrampoline
          returnAddress :=
            ofWord (if usesStackTrampoline then trampolineAddr else action.restorer) }

/-! ## Processes -/

/-- The part of a user address space that signal frames need.  Both accesses may
change the space, because they fault pages in. -/
structure UserSpace (μ : Type) where
  /-- `read_user_exact`: that many bytes, or nothing. -/
  readUserExact : μ → BitVec 64 → Nat → Option (List Byte) × μ
  /-- `write`: how many bytes were written before the space ended. -/
  write : μ → BitVec 64 → List Byte → Option Nat × μ
  length_readUserExact : ∀ space address len bytes after,
    readUserExact space address len = (some bytes, after) → bytes.length = len

/-- What signal handling reads and writes of a process; `fpuState` is the
active part of the floating-point image. -/
structure KernelProcess (μ : Type) where
  context : UserContext
  fpuState : List Byte
  addressSpace : μ
  signals : SignalState

/-- `copy_fpu_state_prefix` into a zeroed buffer of `len` bytes. -/
def copyFpuStatePrefix (fpuState : List Byte) (len : Nat) : List Byte :=
  fpuState.take len ++ List.replicate (len - fpuState.length) 0

/-- `restore_fpu_state_prefix`. -/
def restoreFpuStatePrefix (fpuState source : List Byte) : List Byte :=
  source.take fpuState.length ++ fpuState.drop source.length

section Process

variable {μ ε : Type} (space : UserSpace μ)

/-- Write a whole buffer or report that user memory is not accessible. -/
def writeUser (address : BitVec 64) (bytes : List Byte) :
    Exec (KernelProcess μ) SignalFrameError Unit := do
  let process ← Exec.get
  let (written, addressSpace) := space.write process.addressSpace address bytes
  Exec.set { process with addressSpace }
  if written = some bytes.length then pure () else throw .userMemory

/-- Read exactly that many bytes or fail. -/
def readUser (error : ε) (address : BitVec 64) (len : Nat) :
    Exec (KernelProcess μ) ε (List Byte) := do
  let process ← Exec.get
  let (read, addressSpace) := space.readUserExact process.addressSpace address len
  Exec.set { process with addressSpace }
  match read with
  | some bytes => pure bytes
  | none => throw error

/-- The top of the stack the frame goes on, which is the alternate stack when
the action asks for it and the thread is not on it already. -/
def frameStackTop (action : SignalAction) (rsp : BitVec 64) :
    Exec (KernelProcess μ) SignalFrameError (BitVec 64) := do
  let process ← Exec.get
  if process.signals.shouldUseAltstackForSignal action.flags rsp then
    match process.signals.altstack.top with
    | none => throw .invalidFrame
    | some top => do
        Exec.set { process with signals := process.signals.armAltstackForSignal }
        pure top
  else
    pure rsp

/-- The registers a handler starts with. -/
def enterHandler (context : UserContext) (info : SignalInfo) (action : SignalAction)
    (layout : SignalFrameLayout) : UserContext :=
  let siginfo := action.flags &&& saSiginfo != 0
  { context with
    general :=
      { context.general with
        rip := action.handler
        rsp := layout.frameBase
        rdi := BitVec.ofNat 64 info.signal
        rsi := if siginfo then layout.siginfoAddr else 0
        rdx := if siginfo then layout.ucontextAddr else 0 } }

/-- The mask that holds while the handler runs, before it is sanitized. -/
def handlerMask (saved : BitVec 64) (info : SignalInfo) (action : SignalAction) : BitVec 64 :=
  if action.flags &&& saNodefer = 0 then saved ||| action.mask ||| sigbit info.signal
  else saved ||| action.mask

def deliverSignalToUser (info : SignalInfo) (action : SignalAction) :
    Exec (KernelProcess μ) SignalFrameError Unit := do
  if action.handler = 0 ∨ action.handler = 1 then
    throw .invalidFrame
  else
    let process ← Exec.get
    let saved := process.context
    let savedMask := process.signals.blocked
    let frameAltstack := process.signals.altstack.formatOld saved.rsp
    let stackTop ← frameStackTop action saved.rsp
    let layout ← ofExcept (SignalFrameLayout.new stackTop action)
    let fpregsMem := copyFpuStatePrefix process.fpuState 512
    let ucontext := buildUcontext fpregsMem saved savedMask frameAltstack layout.ucontextAddr
    writeUser space layout.frameBase layout.returnAddress
    writeUser space layout.ucontextAddr (serializeUcontext ucontext)
    writeUser space layout.siginfoAddr (serializeSiginfo info)
    if layout.usesStackTrampoline then
      writeUser space layout.trampolineAddr trampolineBytes
    modify fun process =>
      { process with
        context := enterHandler process.context info action layout
        signals := process.signals.setBlockedMask (handlerMask savedMask info action) }

/-- The floating-point image is read from wherever the frame says it is. -/
def restoreFpregs (ucontext : LinuxUContext) : Exec (KernelProcess μ) SysErr Unit := do
  if ucontext.ucMcontext.fpregs ≠ 0 then
    let fpregs ← readUser space SysErr.fault ucontext.ucMcontext.fpregs 512
    modify fun process =>
      { process with fpuState := restoreFpuStatePrefix process.fpuState fpregs }

def restoreSignalFromUser : Exec (KernelProcess μ) SysErr (BitVec 64) := do
  let process ← Exec.get
  let bytes ← readUser space SysErr.fault process.context.rsp ucontextSize
  match decodeUcontext bytes with
  | none => throw .fault
  | some ucontext => do
      restoreFpregs space ucontext
      let process ← Exec.get
      let restored := restoreUcontext process.context ucontext
      let altstack := { ucontext.ucStack with ssFlags := ucontext.ucStack.ssFlags &&& ~~~ssOnstack }
      match altstack.validateNew with
      | .error _ => throw .fault
      | .ok () => do
          Exec.set { process with
              signals := process.signals.restoreAfterSigreturn ucontext.ucSigmask[0] altstack
              context := restored }
          pure restored.rax

/-- The `rt_sigreturn` system call when it succeeds: its result is stored as
the return value, as for any other call. -/
def rtSigreturn : Exec (KernelProcess μ) SysErr Unit := do
  let value ← restoreSignalFromUser space
  modify fun process => { process with context := process.context.setReturnValue value }

end Process

end AetherKernel.Signal
