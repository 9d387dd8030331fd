import Mathlib.Data.BitVec

/-!
# User contexts and the entry to user mode

The registers a process is resumed with, how a trap stores them, and the
interrupt frame from which `iretq` loads them.
-/

namespace AetherKernel.Signal

structure GeneralRegs where
  r15 : BitVec 64
  r14 : BitVec 64
  r13 : BitVec 64
  r12 : BitVec 64
  r11 : BitVec 64
  r10 : BitVec 64
  r9 : BitVec 64
  r8 : BitVec 64
  rdi : BitVec 64
  rsi : BitVec 64
  rbp : BitVec 64
  rbx : BitVec 64
  rdx : BitVec 64
  rcx : BitVec 64
  rax : BitVec 64
  rip : BitVec 64
  rsp : BitVec 64
  rflags : BitVec 64
  deriving DecidableEq

structure UserContext extends general : GeneralRegs where
  trapNum : BitVec 64
  errorCode : BitVec 64
  fsBase : BitVec 64
  gsBase : BitVec 64
  deriving DecidableEq

def userCodeSelector : BitVec 64 := 0x23
def userDataSelector : BitVec 64 := 0x1b

namespace UserContext

/-- The context of a fresh process: interrupts on, everything else clear. -/
def new (entry userStackTop : BitVec 64) : UserContext where
  general :=
    { r15 := 0, r14 := 0, r13 := 0, r12 := 0, r11 := 0, r10 := 0, r9 := 0, r8 := 0
      rdi := 0, rsi := 0, rbp := 0, rbx := 0, rdx := 0, rcx := 0, rax := 0
      rip := entry, rsp := userStackTop, rflags := 1 <<< 9 }
  trapNum := 0
  errorCode := 0
  fsBase := 0
  gsBase := 0

def setReturnValue (context : UserContext) (value : BitVec 64) : UserContext :=
  { context with rax := value }

end UserContext

/-- The registers as a trap stores them, with what identifies the trap. -/
structure TrapFrame extends general : GeneralRegs where
  vector : BitVec 64
  errorCode : BitVec 64
  deriving DecidableEq

/-- The vector is a byte of the stored word; everything else is copied. -/
def UserContext.applyTrapFrame (context : UserContext) (frame : TrapFrame) : UserContext :=
  { context with
    general := frame.general
    trapNum := (frame.vector.setWidth 8).setWidth 64
    errorCode := frame.errorCode }

/-- The bits that `aether_x86_enter_user_iret` sets whatever the context holds:
the reserved bit, the interrupt flag and the identification flag. -/
def rflagsFixed : BitVec 64 :=
  1 <<< 1 ||| 1 <<< 9 ||| 1 <<< 21

variable (rflags : BitVec 64)

def sanitizedUserRflags : BitVec 64 :=
  rflags ||| rflagsFixed

/-- The five words that `iretq` pops. -/
structure IretFrame where
  rip : BitVec 64
  cs : BitVec 64
  rflags : BitVec 64
  rsp : BitVec 64
  ss : BitVec 64
  deriving DecidableEq

variable (context : UserContext)

/-- The frame pushed by `aether_x86_enter_user_iret`; `resume_mode_for_context`
chooses this entry for every context. -/
def enterUserIret : IretFrame where
  rip := context.rip
  cs := userCodeSelector
  rflags := sanitizedUserRflags context.rflags
  rsp := context.rsp
  ss := userDataSelector

/-! ## What a user program may be resumed with -/

/-- The positions of IOPL, NT, VM, VIF and VIP. -/
def privilegedBits : List Nat :=
  [12, 13, 14, 17, 19, 20]

/-- No flag is set that only the kernel may set. -/
def FlagsClean : Prop :=
  ∀ bit ∈ privilegedBits, rflags.getLsbD bit = false

instance (rflags : BitVec 64) : Decidable (FlagsClean rflags) :=
  inferInstanceAs (Decidable (∀ bit ∈ privilegedBits, rflags.getLsbD bit = false))

/-- A canonical address of the lower half. -/
def LowerHalf (address : BitVec 64) : Prop :=
  address.toNat < 2 ^ 47

instance (address : BitVec 64) : Decidable (LowerHalf address) :=
  inferInstanceAs (Decidable (address.toNat < 2 ^ 47))

/-- Loading the frame neither grants a privilege nor faults in the kernel. -/
structure IretFrame.Safe (frame : IretFrame) : Prop where
  flags : FlagsClean frame.rflags
  rip : LowerHalf frame.rip

/-- None of the bits forced on entry is privileged. -/
theorem flagsClean_sanitizedUserRflags :
    FlagsClean (sanitizedUserRflags rflags) ↔ FlagsClean rflags := by
  have fixed : ∀ bit ∈ privilegedBits, rflagsFixed.getLsbD bit = false := by decide
  constructor
  · intro clean bit privileged
    have both := clean bit privileged
    rw [sanitizedUserRflags, BitVec.getLsbD_or, Bool.or_eq_false_iff] at both
    exact both.1
  · intro clean bit privileged
    rw [sanitizedUserRflags, BitVec.getLsbD_or, clean bit privileged, fixed bit privileged]
    rfl

/-- The entry masks nothing: the frame is safe exactly when the stored context
already is. -/
theorem enterUserIret_safe_iff : (enterUserIret context).Safe ↔
      FlagsClean context.rflags ∧ LowerHalf context.rip := by
  constructor
  · rintro ⟨flags, rip⟩
    exact ⟨(flagsClean_sanitizedUserRflags _).mp flags, rip⟩
  · rintro ⟨flags, rip⟩
    exact ⟨(flagsClean_sanitizedUserRflags _).mpr flags, rip⟩

end AetherKernel.Signal
