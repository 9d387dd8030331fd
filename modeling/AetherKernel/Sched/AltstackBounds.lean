import AetherKernel.Sched.SignalSanity

/-!
# Frames on the alternate stack

A frame goes to the top of the alternate stack, or below the interrupted stack
pointer when that is on the stack already.  The smallest size leaves room for the
first; nothing checks that there is room for the second.  A stack that disarms itself
is not set any more while a handler runs on it.
-/

namespace AetherKernel.Signal

open Lib Exec Bytes

/-- The distance from a stack pointer down to the end of the unaligned frame below it:
the red zone, the return address, the context, the information and the trampoline. -/
def frameRoom (action : SignalAction) : Nat :=
  128 + 8 + ucontextSize + siginfoSize +
    if action.flags &&& saRestorer == 0 || action.restorer == 0 then trampolineBytes.length else 0

namespace SignalStack

variable (stack : SignalStack)

/-- These bytes are in the stack. -/
def Covers (address len : Nat) : Prop :=
  stack.ssSp.toNat ≤ address ∧ address + len ≤ stack.ssSp.toNat + stack.ssSize.toNat

/-- Between the first place for a frame, eight bytes past a multiple of 16, and the
stack pointer there is room. -/
def Fits (action : SignalAction) (sp : BitVec 64) : Prop :=
  (stack.ssSp.toNat + 7) / 16 * 16 + 8 + frameRoom action ≤ sp.toNat

end SignalStack

variable {μ : Type} (space : UserSpace μ)

/-- The delivery keeps whatever writes into the stack keep: it writes nowhere else. -/
def WritesWithin (stack : SignalStack) (process : KernelProcess μ) (info : SignalInfo)
    (action : SignalAction) : Prop :=
  ∀ kept : μ → Prop, (∀ memory address bytes, stack.Covers address.toNat bytes.length →
      kept memory → kept (space.write memory address bytes).2) →
    kept process.addressSpace →
    (deliverSignalToUser space info action).Ensures process fun _ after => kept after.addressSpace

/-- The delivery switches to this stack, or finds the interrupted stack pointer on it;
then the stack may be the one that is set, or one that has been disarmed. -/
def Concerns (process : KernelProcess μ) (action : SignalAction) (stack : SignalStack) : Prop :=
  if process.signals.shouldUseAltstackForSignal action.flags process.context.rsp then
    stack = process.signals.altstack
  else stack.containsSp process.context.rsp

/-! ## Where the frame is -/

theorem toNat_alignDown (value : BitVec 64) :
    (alignDown value x8664SignalFrameAlign).toNat = value.toNat / 16 * 16 := by
  have masked : Word.alignDown value.toNat 16 = value.toNat / 16 * 16 :=
    Word.and_complement_two_pow value.isLt (show 4 ≤ 64 by decide)
  have small := value.isLt
  rw [alignDown, show x8664SignalFrameAlign.toNat = 16 from rfl, masked, BitVec.toNat_ofNat]
  omega

theorem toNat_saturatingSub (a b : BitVec 64) : (saturatingSub a b).toNat = a.toNat - b.toNat := by
  unfold saturatingSub
  split
  · exact BitVec.toNat_sub_of_le ‹_›
  · rename_i less
    exact (Nat.sub_eq_zero_of_le (BitVec.not_le.mp less).le).symm

theorem toNat_of_checkedSub {a b c : BitVec 64} (sub : checkedSub a b = some c) :
    a.toNat = c.toNat + b.toNat := by
  obtain ⟨difference, checked, rfl⟩ := Option.map_eq_some_iff.mp sub
  have small := a.isLt
  unfold Word.checkedSub at checked
  split at checked
  · cases checked
    rw [BitVec.toNat_ofNat]
    omega
  · cases checked

theorem toNat_of_checkedAdd {a b c : BitVec 64} (add : checkedAdd a b = some c) :
    c.toNat = a.toNat + b.toNat := by
  obtain ⟨sum, checked, rfl⟩ := Option.map_eq_some_iff.mp add
  obtain ⟨small, rfl⟩ := Word.checkedAdd_eq_some_iff.mp checked
  exact Nat.mod_eq_of_lt small

variable {action : SignalAction} {sp : BitVec 64} {layout : SignalFrameLayout} {stack : SignalStack}

/-- The frame starts at the highest place for it and ends below the red zone. -/
theorem layout_spec {floor : Nat} (placed : SignalFrameLayout.new sp action = .ok layout)
    (place : floor % 16 = 8) (fits : floor + frameRoom action ≤ sp.toNat) :
    (floor ≤ layout.frameBase.toNat ∧ layout.frameBase.toNat + frameRoom action ≤ sp.toNat) ∧
      layout.ucontextAddr = layout.frameBase + 8 ∧ layout.siginfoAddr = layout.frameBase + 8 + 968 ∧
      layout.trampolineAddr = layout.frameBase + 8 + 968 + 128 ∧ layout.returnAddress.length = 8 ∧
      frameRoom action = 1232 + if layout.usesStackTrampoline then 9 else 0 := by
  unfold SignalFrameLayout.new at placed
  dsimp only at placed
  split at placed
  · cases placed
  rename_i stackTop top
  split at placed
  · cases placed
  rename_i place raised
  obtain ⟨base, sub, add⟩ := Option.bind_eq_some_iff.mp raised
  cases placed
  refine ⟨?_, rfl, rfl, rfl, rfl, rfl⟩
  have fixed : 128 + (BitVec.ofNat 64 (8 + ucontextSize + siginfoSize +
      if (action.flags &&& saRestorer == 0 || action.restorer == 0) = true then
        trampolineBytes.length else 0)).toNat = frameRoom action := by
    unfold frameRoom
    split <;> rfl
  generalize BitVec.ofNat 64 (8 + ucontextSize + siginfoSize + _) = bytes at *
  have aligned : place.toNat = base.toNat / 16 * 16 + 8 :=
    (toNat_of_checkedAdd add).trans (congrArg (· + 8) (toNat_alignDown base))
  have redZone : sp.toNat = stackTop.toNat + 128 := toNat_of_checkedSub top
  replace sub := toNat_of_checkedSub sub
  dsimp only
  split
  · rename_i less
    rw [BitVec.lt_def, toNat_saturatingSub, aligned] at less
    rw [toNat_saturatingSub, aligned, show x8664SignalFrameAlign.toNat = 16 from rfl]
    omega
  · rename_i less
    rw [BitVec.lt_def, toNat_saturatingSub, aligned] at less
    rw [aligned]
    omega

/-- A frame that fits is written into the stack. -/
theorem covers_frame (placed : SignalFrameLayout.new sp action = .ok layout)
    (fits : stack.Fits action sp) (below : sp.toNat ≤ stack.ssSp.toNat + stack.ssSize.toNat) :
    stack.Covers layout.frameBase.toNat layout.returnAddress.length ∧
      stack.Covers layout.ucontextAddr.toNat ucontextSize ∧
      stack.Covers layout.siginfoAddr.toNat siginfoSize ∧
      (layout.usesStackTrampoline →
        stack.Covers layout.trampolineAddr.toNat trampolineBytes.length) := by
  obtain ⟨⟨lower, upper⟩, ucontext, siginfo, trampoline, address, room⟩ :=
    layout_spec placed (by omega) fits
  have last := sp.isLt
  have unwrapped (distance : BitVec 64) (inside : distance.toNat ≤ 1104) :
      (layout.frameBase + distance).toNat = layout.frameBase.toNat + distance.toNat := by
    apply BitVec.toNat_add_of_lt
    omega
  rw [ucontext, siginfo, trampoline, BitVec.add_assoc, BitVec.add_assoc, BitVec.add_assoc,
    unwrapped 8 (by decide), unwrapped (8 + 968) (by decide),
    unwrapped (8 + (968 + 128)) (by decide), address]
  unfold SignalStack.Covers
  refine ⟨?_, ?_, ?_, fun uses => ?_⟩
  · omega
  · rw [ucontextSize]
    simp
    omega
  · rw [siginfoSize]
    simp
    omega
  · rw [uses] at room
    simp [trampolineBytes] at room ⊢
    omega

/-! ## What a delivery writes -/

theorem length_wordsBytes {count : Nat} (words : Vector (BitVec 64) count) :
    (wordsBytes words).length = 8 * count := by
  simp [wordsBytes, ofWord, ofNat, Nat.mul_comm]

theorem length_serializeUcontext {ucontext : LinuxUContext}
    (size : ucontext.fpregsMem.length = 512) :
    (serializeUcontext ucontext).length = ucontextSize := by
  simp [serializeUcontext, length_wordsBytes, size, ofWord, ofNat, ucontextSize]

variable {space} {process : KernelProcess μ} {kept : μ → Prop}

theorem ensures_writeUser {address : BitVec 64} {bytes : List Byte}
    (write : kept (space.write process.addressSpace address bytes).2) :
    (writeUser space address bytes).Ensures process fun _ after => kept after.addressSpace := by
  intro outcome after run
  unfold writeUser at run
  simp only [get_bind_apply, set_bind_apply] at run
  split at run <;> cases run <;> exact write

theorem toNat_top (top : stack.top = some sp) :
    sp.toNat = stack.ssSp.toNat + stack.ssSize.toNat := by
  unfold SignalStack.top at top
  split at top
  · cases top
    exact BitVec.toNat_add_of_lt ‹_›
  · cases top

/-- The smallest stack has room for the frame that is put on its top. -/
theorem fits_top (sane : stack.Sane) (enabled : stack.configEnabled) (top : stack.top = some sp) :
    stack.Fits action sp := by
  simp only [SignalStack.configEnabled, Bool.and_eq_true, beq_iff_eq] at enabled
  have size : 2048 ≤ stack.ssSize.toNat := (sane.resolve_left (absurd enabled.1)).1
  have room : frameRoom action ≤ 1241 := by
    unfold frameRoom
    split <;> decide
  rw [SignalStack.Fits, toNat_top top]
  omega

theorem le_of_containsSp (here : stack.containsSp sp) :
    sp.toNat ≤ stack.ssSp.toNat + stack.ssSize.toNat := by
  simp only [SignalStack.containsSp, Bool.and_eq_true] at here
  split at here
  · simp at here
  · rename_i stackEnd top
    simp only [Bool.and_eq_true, decide_eq_true_eq] at here
    exact (toNat_top top) ▸ (BitVec.le_of_lt here.2.2)

variable (arises : Arises space process) (concerned : Concerns process action stack)
  (fits : stack.containsSp process.context.rsp →
    stack.Fits action process.context.rsp)
include arises concerned fits

/-- The frame goes below the interrupted stack pointer, or to the top of the stack. -/
theorem ensures_frameStackTop (held : kept process.addressSpace) :
    (frameStackTop action process.context.rsp).Ensures process fun outcome after =>
      kept after.addressSpace ∧ ∀ sp, outcome = .ok sp →
        stack.Fits action sp ∧ sp.toNat ≤ stack.ssSp.toNat + stack.ssSize.toNat := by
  unfold Concerns at concerned
  refine .get ?_
  split
  · rename_i switches
    rw [if_pos switches] at concerned
    subst concerned
    simp only [SignalState.shouldUseAltstackForSignal, Bool.and_eq_true] at switches
    split
    · exact .throw ⟨held, nofun⟩
    · rename_i top found
      rintro outcome after ⟨⟩
      refine ⟨held, ?_⟩
      rintro sp ⟨⟩
      exact ⟨fits_top (sane_of_arises arises).altstack switches.1.2 found, (toNat_top found).le⟩
  · rename_i stays
    rw [if_neg stays] at concerned
    refine .pure ⟨held, ?_⟩
    rintro sp ⟨⟩
    exact ⟨fits concerned, le_of_containsSp concerned⟩

/-- Whatever deliveries, returns from handlers and changes of the stack have gone
before, a frame for a handler that runs on an alternate stack is written into it as
long as it fits above its end. -/
theorem writes_within_altstack {info : SignalInfo} :
    WritesWithin space stack process info action := by
  intro kept inside held
  unfold deliverSignalToUser
  split
  · exact .throw held
  refine .get ((ensures_frameStackTop arises concerned fits held).bind (fun _ _ held => held.1) ?_)
  rintro sp armed ⟨held, room⟩
  obtain ⟨fits, below⟩ := room sp rfl
  cases placed : SignalFrameLayout.new sp action with
  | error error => exact .throw held
  | ok layout =>
    obtain ⟨address, ucontext, siginfo, trampoline⟩ := covers_frame placed fits below
    rw [ofExcept_ok, pure_bind]
    refine (ensures_writeUser (inside _ _ _ address held)).bind (fun _ _ held => held) ?_
    intro _ _ held
    refine (ensures_writeUser (inside _ _ _ ?_ held)).bind (fun _ _ held => held) ?_
    · rwa [length_serializeUcontext]
      simp [buildUcontext, copyFpuStatePrefix]
      omega
    intro _ _ held
    refine (ensures_writeUser (inside _ _ _ siginfo held)).bind (fun _ _ held => held) ?_
    intro _ _ held
    split
    · rename_i uses
      exact (ensures_writeUser (inside _ _ _ (trampoline uses) held)).bind (fun _ _ held => held)
        fun _ _ held => .modify held
    · exact .modify held

omit arises concerned fits

/-- A stack of the smallest size. -/
def smallStack (flags : BitVec 32) : SignalStack :=
  ⟨0x1000, flags, 0, 2048⟩

/-- A program has set up a stack, and is interrupted with its stack pointer on it. -/
def onAltstack (flags : BitVec 32) (sp : BitVec 64) : KernelProcess (BitVec 64 → Byte) :=
  { atSigreturn fun _ => 0 with
    context := UserContext.new 0x400000 sp
    signals := (SignalState.new.setAltstack (some (smallStack flags)) 0).2 }

theorem arises_onAltstack (flags : BitVec 32) (sp : BitVec 64) :
    Arises flatSpace (onAltstack flags sp) :=
  .userMode (onAltstack flags sp) (.call (.spawn (atSigreturn fun _ => 0))
    (.setAltstack (some (smallStack flags)) 0))

/-- The handler of `SIGCHLD`. -/
def onstackHandler : SignalAction :=
  ⟨0x400000, saOnstack, 0, 0⟩

/-- Near the top of the stack there is room for another frame, also when the first one has
disarmed the stack. -/
theorem writes_within_altstack_near_top :
    WritesWithin flatSpace (smallStack 0) (onAltstack 0 0x1700) (.kernel sigchld 0)
      onstackHandler ∧
    ∃ process, Arises flatSpace process ∧ process.signals.altstack = .disabled ∧
      process.context.rsp = 0x1700 ∧ WritesWithin flatSpace (smallStack ssAutodisarm)
        process (.kernel sigchld 0) onstackHandler := by
  constructor
  · exact writes_within_altstack (arises_onAltstack _ _) (by unfold Concerns; decide) fun _ => by
      unfold SignalStack.Fits
      decide
  · have delivered : (deliverSignalToUser flatSpace (.kernel sigchld 0) onstackHandler
        (onAltstack ssAutodisarm 0x9000)).map (·.2.signals.altstack) = some .disabled := by
      decide +kernel
    obtain ⟨⟨outcome, after⟩, run, disarmed⟩ := Option.map_eq_some_iff.mp delivered
    have arises : Arises flatSpace { onAltstack 0 0x1700 with signals := after.signals } :=
      .userMode _ (.deliver (arises_onAltstack _ _) run)
    have stays : after.signals.shouldUseAltstackForSignal saOnstack 0x1700 = false := by
      rw [SignalState.shouldUseAltstackForSignal, disarmed]
      rfl
    have here : (smallStack ssAutodisarm).containsSp 0x1700 := by decide
    have room : (smallStack ssAutodisarm).Fits onstackHandler 0x1700 := by
      unfold SignalStack.Fits
      decide
    refine ⟨_, arises, disarmed, rfl, writes_within_altstack arises ?_ fun _ => room⟩
    unfold Concerns
    exact (if_neg (Bool.eq_false_iff.mp stays)).mpr here

/-- A handler that has used most of the stack is interrupted by another signal: the
return address goes to 3096, a thousand bytes below the stack. -/
theorem frame_below_altstack : Arises flatSpace (onAltstack 0 0x1100) ∧
    Concerns (onAltstack 0 0x1100) onstackHandler (smallStack 0) ∧
    ¬WritesWithin flatSpace (smallStack 0) (onAltstack 0 0x1100) (.kernel sigchld 0)
      onstackHandler := by
  refine ⟨arises_onAltstack _ _, by unfold Concerns; decide, fun within => ?_⟩
  have written : (deliverSignalToUser flatSpace (.kernel sigchld 0) onstackHandler
      (onAltstack 0 0x1100)).map (·.2.addressSpace 3096) = some 0x68 := by
    decide +kernel
  obtain ⟨⟨outcome, after⟩, run, byte⟩ := Option.map_eq_some_iff.mp written
  have zero := within (fun memory => memory 3096 = 0) ?_ rfl outcome after run
  · exact absurd (zero.symm.trans byte) (by decide)
  · rintro memory address bytes ⟨lower, upper⟩ zero
    replace lower : 4096 ≤ address.toNat := lower
    replace upper : address.toNat + bytes.length ≤ 6144 := upper
    have outside : bytes[(3096 - address).toNat]? = none := by
      rw [List.getElem?_eq_none_iff, BitVec.toNat_sub]
      simp
      omega
    change bytes[(3096 - address).toNat]?.getD (memory 3096) = 0
    rwa [outside]

end AetherKernel.Signal
