import AetherKernel.Signal.Frame

/-!
# What a process is resumed with after a signal

The stored context changes when a trap arrives from user mode, when a signal is
delivered and when `rt_sigreturn` restores a frame.  None of the steps checks the
flags or the instruction pointer, so whether the next entry to user mode is safe
is decided by the words that the program itself supplies.
-/

namespace AetherKernel.Signal

open Lib Exec Cursor Returns Bytes

/-! ## Decoding a frame -/

variable {bytes : List Byte}

/-- The registers of a frame are the words that follow its first 40 bytes. -/
theorem ucontextFields_gregs (size : bytes.length = ucontextSize) :
    ∃ ucontext, ucontextFields bytes 0 = some (ucontext, ucontextSize) ∧ ucontext.ucMcontext.gregs =
        Vector.ofFn fun i => wordAt 64 bytes (40 + 8 * i) := by
  rw [ucontextSize] at size
  -- One fact per field, at the offset where the record has it.
  have ucFlags : word 64 bytes 0 = some (_, 8) := word_apply (by omega)
  have ucLink : word 64 bytes 8 = some (_, 16) := word_apply (by omega)
  have ssSp : word 64 bytes 16 = some (_, 24) := word_apply (by omega)
  have ssFlags : word 32 bytes 24 = some (_, 28) := word_apply (by omega)
  have ssPad : word 32 bytes 28 = some (_, 32) := word_apply (by omega)
  have ssSize : word 64 bytes 32 = some (_, 40) := word_apply (by omega)
  have gregs : words 64 23 bytes 40 =
      some (Vector.ofFn fun i => wordAt 64 bytes (40 + 8 * i), 224) :=
    words_apply (by omega)
  have fpregs : word 64 bytes 224 = some (_, 232) := word_apply (by omega)
  have reserved1 : words 64 8 bytes 232 = some (_, 296) := words_apply (by omega)
  have sigmask : words 64 16 bytes 296 = some (_, 424) := words_apply (by omega)
  have fpregsMem : slice 512 bytes 424 = some (_, 936) := slice_apply (by omega)
  have ssp : words 64 4 bytes 936 = some (_, 968) := words_apply (by omega)
  rw [ucontextFields, bind_apply ucFlags, bind_apply ucLink,
    bind_apply ssSp, bind_apply ssFlags, bind_apply ssPad,
    bind_apply ssSize, bind_apply gregs, bind_apply fpregs,
    bind_apply reserved1, bind_apply sigmask, bind_apply fpregsMem,
    bind_apply ssp]
  exact ⟨_, rfl, rfl⟩

/-- Where the instruction pointer stands in a frame. -/
def ripOffset : Nat := 168

/-- Where the flags stand in a frame. -/
def eflOffset : Nat := 176

/-! ## What each step leaves in the context -/

section Process

variable {μ ε : Type} (space : UserSpace μ) {process after : KernelProcess μ}

variable (process : KernelProcess μ)

theorem writeUser_returns (address : BitVec 64) (bytes : List Byte) :
    (writeUser space address bytes).Returns process
      (fun _ after => after.context = process.context) := by
  apply Returns.get
  apply Returns.set
  split
  · exact pure rfl
  · exact throw rfl

/-- A read leaves the context alone and, when it succeeds, returns what the
space holds there. -/
theorem readUser_returns (error : ε) (address : BitVec 64) (len : Nat) :
    (readUser space error address len).Returns process (fun outcome after =>
      after.context = process.context ∧ ∀ bytes, outcome = .ok bytes →
        (space.readUserExact process.addressSpace address len).1 = some bytes) := by
  apply Returns.get
  apply Returns.set
  split
  · rename_i bytes read
    exact pure ⟨rfl, fun _ same => read.trans (congrArg some (by cases same; rfl))⟩
  · exact throw ⟨rfl, nofun⟩

theorem frameStackTop_returns (action : SignalAction) (rsp : BitVec 64) :
    (frameStackTop action rsp).Returns process
      (fun _ after => after.context = process.context) := by
  apply Returns.get
  split
  · split
    · exact throw rfl
    · exact Returns.set (pure rfl)
  · exact pure rfl

theorem restoreFpregs_returns (ucontext : LinuxUContext) :
    (restoreFpregs space ucontext).Returns process
      (fun _ after => after.context = process.context) := by
  unfold restoreFpregs
  split
  · refine bind (readUser_returns space process _ _ _)
      (fun _ _ kept => kept.1) fun fpregs middle kept => ?_
    exact ⟨_, _, rfl, kept.1⟩
  · exact pure rfl

/-- A delivered signal replaces the instruction pointer and keeps the flags. -/
theorem deliverSignalToUser_returns (info : SignalInfo) (action : SignalAction) :
    (deliverSignalToUser space info action).Returns process (fun outcome after =>
      outcome = .ok () → after.context.rip = action.handler ∧
        after.context.rflags = process.context.rflags) := by
  have failed : ∀ {error : SignalFrameError} {post : Prop},
      (Except.error error : Except SignalFrameError Unit) = .ok () → post :=
    nofun
  unfold deliverSignalToUser
  split
  · exact throw failed
  apply Returns.get
  refine (frameStackTop_returns process action _).bind (fun _ _ _ => failed)
    fun stackTop armed keptArmed => ?_
  have laidOut : (ofExcept (SignalFrameLayout.new stackTop action)).Returns armed
      (fun _ after => after = armed) := ofExcept rfl
  refine laidOut.bind (fun _ _ _ => failed) fun layout _ same => ?_
  subst same
  refine (writeUser_returns space _ _ _).bind (fun _ _ _ => failed) fun _ first keptFirst => ?_
  refine (writeUser_returns space _ _ _).bind (fun _ _ _ => failed) fun _ second keptSecond => ?_
  refine (writeUser_returns space _ _ _).bind (fun _ _ _ => failed) fun _ third keptThird => ?_
  have kept : third.context = process.context :=
    keptThird.trans (keptSecond.trans (keptFirst.trans keptArmed))
  split
  · refine (writeUser_returns space _ _ _).bind (fun _ _ _ => failed) fun _ fourth keptFourth => ?_
    exact ⟨_, _, rfl, fun _ => ⟨rfl, congrArg (·.rflags) (keptFourth.trans kept)⟩⟩
  · exact ⟨_, _, rfl, fun _ => ⟨rfl, congrArg (·.rflags) kept⟩⟩

/-- A restored context holds the words of the frame at the stack pointer. -/
theorem rtSigreturn_returns :
    (rtSigreturn space).Returns process (fun outcome after =>
      outcome = .ok () → ∃ bytes,
        (space.readUserExact process.addressSpace process.context.rsp
          ucontextSize).1 = some bytes ∧
        after.context.rip = wordAt 64 bytes ripOffset ∧
        after.context.rflags = wordAt 64 bytes eflOffset) := by
  have restored : (restoreSignalFromUser space).Returns process (fun outcome after =>
      ∀ value, outcome = .ok value → ∃ bytes,
        (space.readUserExact process.addressSpace process.context.rsp
          ucontextSize).1 = some bytes ∧
        after.context.rip = wordAt 64 bytes ripOffset ∧
        after.context.rflags = wordAt 64 bytes eflOffset) := by
    refine (readUser_returns space process _ _ _).bind
      (fun _ _ _ _ impossible => nomatch impossible) fun bytes afterRead read => ?_
    have held := read.2 bytes rfl
    have size := space.length_readUserExact _ _ _ _ _ (Prod.ext held rfl)
    obtain ⟨ucontext, fields, gregs⟩ := ucontextFields_gregs size
    have decoded : decodeUcontext bytes = some ucontext := by simp [decodeUcontext, size, fields]
    rw [decoded]
    refine (restoreFpregs_returns space afterRead ucontext).bind
      (fun _ _ _ _ impossible => nomatch impossible) fun _ afterFpu _ => ?_
    apply Returns.get
    dsimp only
    split
    · exact throw nofun
    · refine Returns.set (pure fun _ _ => ⟨bytes, held, ?_, ?_⟩)
      · simp [restoreUcontext, gregs, ripOffset]
      · simp [restoreUcontext, gregs, eflOffset]
  refine restored.bind (fun _ _ _ impossible => nomatch impossible) fun value after words => ?_
  exact ⟨_, _, rfl, fun _ => words value rfl⟩

/-! ## Resuming after a step -/

/-- The ways in which the stored context of a process changes. -/
inductive Step where
  | trap (frame : TrapFrame)
  | sigreturn
  | deliver (info : SignalInfo) (action : SignalAction)

/-- The process after a step that succeeds. -/
def Step.perform (step : Step) (process : KernelProcess μ) : Option (KernelProcess μ) :=
  match step with
  | .trap frame => some { process with context := process.context.applyTrapFrame frame }
  | .sigreturn =>
    match rtSigreturn space process with
    | some (.ok (), after) => some after
    | _ => none
  | .deliver info action =>
    match deliverSignalToUser space info action process with
    | some (.ok (), after) => some after
    | _ => none

/-- The words a step puts into the context are harmless: those of the frame at
the stack pointer, or the installed handler under the interrupted flags. -/
def Step.Harmless (step : Step) (process : KernelProcess μ) : Prop :=
  match step with
  | .trap frame => FlagsClean frame.rflags ∧ LowerHalf frame.rip
  | .sigreturn =>
    ∀ bytes, (space.readUserExact process.addressSpace process.context.rsp
        ucontextSize).1 = some bytes →
      FlagsClean (wordAt 64 bytes eflOffset) ∧ LowerHalf (wordAt 64 bytes ripOffset)
  | .deliver _ action =>
    FlagsClean process.context.rflags ∧ LowerHalf action.handler

variable {process}

theorem perform_sigreturn (done : Step.sigreturn.perform space process = some after) :
    rtSigreturn space process = some (.ok (), after) := by
  simp only [Step.perform] at done
  split at done
  · rename_i run
    cases done
    exact run
  · cases done

theorem perform_deliver {info : SignalInfo}
    {action : SignalAction} (done : (Step.deliver info action).perform space process = some after) :
    deliverSignalToUser space info action process = some (.ok (), after) := by
  simp only [Step.perform] at done
  split at done
  · rename_i run
    cases done
    exact run
  · cases done

/-- From any process state, what user mode is entered with after a successful
step is safe exactly when the words supplied to the step are. -/
theorem perform_safe_iff_harmless (step : Step) (process after : KernelProcess μ)
    (done : step.perform space process = some after) :
    (enterUserIret after.context).Safe ↔ step.Harmless space process := by
  rw [enterUserIret_safe_iff]
  cases step with
  | trap frame =>
    cases done
    rfl
  | sigreturn =>
    obtain ⟨bytes, held, rip, rflags⟩ :=
      (rtSigreturn_returns space process).of_run (perform_sigreturn space done) rfl
    rw [rip, rflags]
    constructor
    · intro safe other same
      rw [held] at same
      cases same
      exact safe
    · intro harmless
      exact harmless bytes held
  | deliver info action =>
    obtain ⟨rip, rflags⟩ := (deliverSignalToUser_returns space process info action).of_run
        (perform_deliver space done) rfl
    rw [rip, rflags]
    rfl

end Process

/-! ## A program that hands itself I/O privilege -/

/-- A flat user memory: every address can be read and written. -/
def flatSpace : UserSpace (BitVec 64 → Byte) where
  readUserExact memory address len :=
    (some ((List.range len).map fun i => memory (address + BitVec.ofNat 64 i)), memory)
  write memory address bytes :=
    (some bytes.length, fun target =>
      (bytes[(target - address).toNat]?).getD (memory target))
  length_readUserExact := by
    intro memory address len bytes after read
    cases read
    simp

/-- A process about to call `rt_sigreturn` with the given memory, its stack
pointer at `0x1000`. -/
def atSigreturn (memory : BitVec 64 → Byte) : KernelProcess (BitVec 64 → Byte) where
  context := UserContext.new 0x400000 0x1000
  fpuState := []
  addressSpace := memory
  signals := SignalState.new

/-- A zeroed frame at `0x1000` with a disabled alternate stack, the instruction
pointer `0x400000` and the flag byte that holds IOPL and NT. -/
def frameMemory (flagByte : Byte) : BitVec 64 → Byte :=
  fun address =>
    if address = 0x1000 + 24 then 2
    else if address = 0x1000 + 170 then 0x40
    else if address = 0x1000 + 177 then flagByte
    else 0

/-- The call succeeds and the process is resumed at I/O privilege level 3. -/
theorem sigreturn_resumes_with_iopl :
    ∃ after, Step.sigreturn.perform flatSpace (atSigreturn (frameMemory 0x30)) = some after ∧
      (enterUserIret after.context).rflags = 0x203202 ∧
      ¬(enterUserIret after.context).Safe := by
  have run : (Step.sigreturn.perform flatSpace (atSigreturn (frameMemory 0x30))).map
      (fun after => (enterUserIret after.context).rflags) = some 0x203202 := by
    decide +kernel
  obtain ⟨after, done, flags⟩ := Option.map_eq_some_iff.mp run
  refine ⟨after, done, flags, ?_⟩
  rintro ⟨clean, -⟩
  rw [flags] at clean
  exact absurd (clean 12 (by decide)) (by decide)

/-- With the flag byte clear the same call resumes the process safely. -/
theorem perform_safe_iff_harmless_clear :
    ∃ after, Step.sigreturn.perform flatSpace (atSigreturn (frameMemory 0)) = some after ∧
      (enterUserIret after.context).Safe := by
  have run : (Step.sigreturn.perform flatSpace (atSigreturn (frameMemory 0))).isSome := by
    decide +kernel
  have words : ∀ bytes ∈ (flatSpace.readUserExact (frameMemory 0) 0x1000 ucontextSize).1,
      FlagsClean (wordAt 64 bytes eflOffset) ∧ LowerHalf (wordAt 64 bytes ripOffset) := by
    decide +kernel
  obtain ⟨after, done⟩ := Option.isSome_iff_exists.mp run
  exact ⟨after, done, (perform_safe_iff_harmless flatSpace _ _ _ done).mpr words⟩

end AetherKernel.Signal
