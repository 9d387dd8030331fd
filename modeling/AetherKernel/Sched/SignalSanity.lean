import AetherKernel.Sched.SignalWake

/-!
# What holds of every signal state

Masks, actions and alternate stacks come from user space: from the arguments of system
calls, and from frames that a program may have written itself.  Every entry point
sanitizes what it takes, so the signal state of every thread stays sane.
-/

namespace AetherKernel.Signal

open Lib Exec Sched SignalStack

def sigBlock : BitVec 64 := 0
def sigUnblock : BitVec 64 := 1
def sigSetmask : BitVec 64 := 2

namespace SignalState

variable (state : SignalState)

def setMask (how set : BitVec 64) : SignalState :=
  if how = sigBlock then { state with blocked := state.blocked ||| sanitizeMask set }
  else if how = sigUnblock then { state with blocked := state.blocked &&& ~~~sanitizeMask set }
  else if how = sigSetmask then state.setBlockedMask set
  else state

def setAltstack (newStack : Option SignalStack) (userSp : BitVec 64) :
    Except SysErr SignalStack × SignalState :=
  let oldStack := state.altstack.formatOld userSp
  match newStack with
  | none => (.ok oldStack, state)
  | some newStack =>
    match newStack.validateNew with
    | .error error => (.error error, state)
    | .ok () =>
      if oldStack.ssFlags &&& ssOnstack ≠ 0 then (.error .perm, state)
      else (.ok oldStack, { state with altstack := newStack.stored })

/-- A signal of that number is pending. -/
def HasPending (signal : Nat) : Prop :=
  ∃ info, state.pending[signal]? = some (some info)

end SignalState

/-- Neither `SIGKILL` nor `SIGSTOP` is in the mask. -/
def Sanitized (mask : BitVec 64) : Prop :=
  mask &&& (sigbit sigkill ||| sigbit sigstop) = 0

/-- The stack is disabled, or large enough and without other flags. -/
def SignalStack.Sane (stack : SignalStack) : Prop :=
  stack.ssFlags &&& ssDisable ≠ 0 ∨
    minsigstksz ≤ stack.ssSize ∧ stack.ssFlags &&& ~~~ssAutodisarm = 0

structure SignalState.Sane (state : SignalState) : Prop where
  blocked : Sanitized state.blocked
  suspendMask : ∀ mask ∈ state.suspendMask, Sanitized mask
  actions : ∀ signal, signal = sigkill ∨ signal = sigstop →
    state.actions[signal]? = some SignalAction.defaultFor
  pending : ∀ stop ∈ [sigstop, sigtstp, sigttin, sigttou],
    ¬(state.HasPending sigcont ∧ state.HasPending stop)
  altstack : state.altstack.Sane

/-! ## What each operation keeps -/

theorem sanitized_sanitizeMask (mask : BitVec 64) : Sanitized (sanitizeMask mask) := by
  rw [Sanitized, sanitizeMask, BitVec.and_assoc]
  simp [BitVec.and_comm]

theorem SignalStack.sane_disabled : disabled.Sane :=
  .inl (by decide)

theorem SignalStack.sane_stored {stack : SignalStack} (valid : stack.validateNew = .ok ()) :
    stack.stored.Sane := by
  unfold stored
  split
  · exact sane_disabled
  rename_i enabled
  refine .inr ⟨?_, ?_⟩
  · rw [validateNew, if_neg enabled] at valid
    split at valid
    · cases valid
    split at valid
    · cases valid
    · exact BitVec.not_lt.mp ‹_›
  · rw [BitVec.and_assoc]
    simp

namespace SignalState.Sane

variable {state : SignalState} (sane : state.Sane)
include sane

theorem setBlockedMask (mask : BitVec 64) : (state.setBlockedMask mask).Sane :=
  { sane with blocked := sanitized_sanitizeMask mask }

theorem setMask (how set : BitVec 64) : (state.setMask how set).Sane := by
  have blocked := sane.blocked
  have other := sanitized_sanitizeMask set
  unfold SignalState.setMask
  rw [Sanitized] at blocked other
  split
  · refine { sane with blocked := ?_ }
    rw [Sanitized, BitVec.and_or_distrib_right, blocked, other]
    rfl
  split
  · refine { sane with blocked := ?_ }
    rw [Sanitized, BitVec.and_assoc, BitVec.and_comm (~~~_), ← BitVec.and_assoc, blocked]
    simp
  split
  · exact sane.setBlockedMask set
  · exact sane

theorem setAction (signal : Nat) (action : SignalAction) :
    (state.setAction signal action).2.Sane := by
  unfold SignalState.setAction
  split
  · exact sane
  rename_i allowed
  refine { sane with actions := fun other fixed => ?_ }
  rw [Vector.getElem?_setIfInBounds_ne (by omega)]
  exact sane.actions other fixed

theorem enqueue (info : SignalInfo) : (state.enqueue info).Sane := by
  have pending : ∀ stop ∈ [sigstop, sigtstp, sigttin, sigttou],
      ¬((state.enqueue info).HasPending sigcont ∧ (state.enqueue info).HasPending stop) := by
    rintro stop stops ⟨⟨first, continues⟩, second, stopped⟩
    have apart : stop ≠ sigcont := by
      rintro rfl
      simp [sigcont, sigstop, sigtstp, sigttin, sigttou] at stops
    rcases (getElem?_enqueue ..).mp continues with ⟨valid, here, -⟩ | ⟨kept, continued⟩
    · rcases (getElem?_enqueue ..).mp stopped with ⟨-, there, -⟩ | ⟨kept, -⟩
      · exact apart (there.symm.trans here)
      · exact kept ⟨valid, .inr (.inl ⟨here, stops⟩)⟩
    · rcases (getElem?_enqueue ..).mp stopped with ⟨valid, there, -⟩ | ⟨-, before⟩
      · exact kept ⟨valid, .inr (.inr ⟨there ▸ stops, rfl⟩)⟩
      · exact sane.pending stop stops ⟨⟨first, continued⟩, second, before⟩
  unfold SignalState.enqueue at pending ⊢
  split
  · exact sane
  · rename_i valid
    rw [if_neg valid] at pending
    exact { sane with pending := pending }

/-- A signal is taken. -/
theorem clear (signal : Nat) :
    { state with pending := state.pending.setIfInBounds signal none }.Sane := by
  refine { sane with pending := ?_ }
  rintro stop stops ⟨⟨first, continues⟩, second, stopped⟩
  exact sane.pending stop stops ⟨⟨first, ((getElem?_clear [signal] _).mp continues).2⟩,
    second, ((getElem?_clear [signal] _).mp stopped).2⟩

theorem takeFirst (supported : Bool) (numbers : List Nat) :
    (state.takeFirst supported numbers).2.Sane := by
  induction numbers with
  | nil => exact sane
  | cons signal rest ih =>
    rw [SignalState.takeFirst]
    split
    · split
      · exact ih
      · exact sane.clear signal
    · exact ih

theorem takeInMask (masked : BitVec 64) (numbers : List Nat) :
    (state.takeInMask masked numbers).Sane := by
  induction numbers with
  | nil => exact sane
  | cons signal rest ih =>
    rw [SignalState.takeInMask]
    split
    · split
      · exact sane.clear signal
      · exact ih
    · exact ih

theorem leaveSigsuspend : state.leaveSigsuspend.Sane := by
  unfold SignalState.leaveSigsuspend
  split
  · exact sane
  · exact { sane with blocked := sane.suspendMask _ ‹_›, suspendMask := nofun }

theorem setAltstack (newStack : Option SignalStack) (userSp : BitVec 64) :
    (state.setAltstack newStack userSp).2.Sane := by
  unfold SignalState.setAltstack
  dsimp only
  split
  · exact sane
  split
  · exact sane
  split
  · exact sane
  · exact { sane with altstack := sane_stored ‹_› }

theorem armAltstackForSignal : state.armAltstackForSignal.Sane := by
  unfold SignalState.armAltstackForSignal
  split
  · exact { sane with altstack := sane_disabled }
  · exact sane

theorem cloned : state.cloned.Sane := by
  refine { sane with suspendMask := nofun, pending := ?_ }
  rintro stop - ⟨⟨info, found⟩, -⟩
  simp [SignalState.cloned, sigcont] at found

theorem prepareForExec : state.prepareForExec.Sane := by
  refine { sane with suspendMask := nofun, actions := fun signal fixed => ?_,
                     altstack := sane_disabled }
  simp [SignalState.prepareForExec, sane.actions signal fixed]

end SignalState.Sane

theorem sane_new : SignalState.new.Sane where
  blocked := rfl
  suspendMask := nofun
  actions := by rintro signal (rfl | rfl) <;> rfl
  pending := by
    rintro stop - ⟨⟨info, found⟩, -⟩
    simp [SignalState.new, sigcont] at found
  altstack := sane_disabled

/-! ## Calls that work on user memory -/

variable {μ ε : Type} (space : UserSpace μ)

def SaneProcess (process : KernelProcess μ) : Prop :=
  process.signals.Sane

theorem preserves_set {process : KernelProcess μ} (sane : SaneProcess process) :
    Preserves SaneProcess (Exec.set process : Exec (KernelProcess μ) ε Unit) := by
  rintro _ - _ _ ⟨⟩
  exact sane

theorem preserves_writeUser (address : BitVec 64) (bytes : List Byte) :
    Preserves SaneProcess (writeUser space address bytes) := by
  refine .get fun process sane => .bind (preserves_set sane) fun _ => ?_
  split
  · exact .pure _
  · exact .throw _

theorem preserves_readUser (error : ε) (address : BitVec 64) (len : Nat) :
    Preserves SaneProcess (readUser space error address len) := by
  refine .get fun process sane => .bind (preserves_set sane) fun _ => ?_
  split
  · exact .pure _
  · exact .throw _

theorem preserves_deliverSignalToUser (info : SignalInfo) (action : SignalAction) :
    Preserves SaneProcess (deliverSignalToUser space info action) := by
  have written := preserves_writeUser space
  unfold deliverSignalToUser
  split
  · exact .throw _
  refine .get fun process _ => .bind ?_ fun stackTop => .bind ?_ fun layout => ?_
  · refine .get fun process sane => ?_
    split
    · split
      · exact .throw _
      · exact .bind (preserves_set sane.armAltstackForSignal) fun _ => .pure _
    · exact .pure _
  · cases SignalFrameLayout.new stackTop action with
    | ok => exact .pure _
    | error => exact .throw _
  refine .bind (written _ _) fun _ => .bind (written _ _) fun _ => .bind (written _ _) fun _ => ?_
  split
  · exact .bind (written _ _) fun _ => .modify fun _ sane => sane.setBlockedMask _
  · exact .modify fun _ sane => sane.setBlockedMask _

theorem preserves_rtSigreturn : Preserves SaneProcess (rtSigreturn space) := by
  have read := preserves_readUser space SysErr.fault
  refine .bind ?_ fun value => .modify fun _ sane => sane
  refine .get fun process _ => .bind (read _ _) fun bytes => ?_
  split
  · exact .throw _
  refine .bind ?_ fun _ => .get fun process sane => ?_
  · unfold restoreFpregs
    split
    · exact .bind (read _ _) fun _ => .modify fun _ sane => sane
    · exact .pure _
  dsimp only
  split
  · exact .throw _
  · rename_i valid
    refine .bind (preserves_set { sane with
      blocked := sanitized_sanitizeMask _
      altstack := sane_stored valid }) fun _ => .pure _

/-! ## Runs -/

/-- What is done to a signal state, with whatever user space supplies. -/
inductive SignalState.Updates (state : SignalState) : SignalState → Prop
  | setMask (how mask : BitVec 64) : Updates state (state.setMask how mask)
  /-- `ppoll`, `pselect6` and `epoll_pwait` set a mask and put the old one back. -/
  | setBlockedMask (mask : BitVec 64) : Updates state (state.setBlockedMask mask)
  | setAction (signal : Nat) (action : SignalAction) :
      Updates state (state.setAction signal action).2
  | enqueue (info : SignalInfo) : Updates state (state.enqueue info)
  | takeNextDelivery (handlersSupported : Bool) :
      Updates state (state.takeNextDelivery handlersSupported).2
  | takePendingInMask (mask : BitVec 64) : Updates state (state.takePendingInMask mask)
  | enterSigsuspend (mask : BitVec 64) : Updates state (state.enterSigsuspend mask)
  | leaveSigsuspend : Updates state state.leaveSigsuspend
  | setAltstack (newStack : Option SignalStack) (userSp : BitVec 64) :
      Updates state (state.setAltstack newStack userSp).2
  | prepareForExec : Updates state state.prepareForExec

theorem SignalState.Sane.updates {state after : SignalState} (sane : state.Sane)
    (call : state.Updates after) : after.Sane := by
  cases call with
  | setMask how mask => exact sane.setMask how mask
  | setBlockedMask mask => exact sane.setBlockedMask mask
  | setAction signal action => exact sane.setAction signal action
  | enqueue info => exact sane.enqueue info
  | takeNextDelivery supported => exact sane.takeFirst supported _
  | takePendingInMask mask => exact sane.takeInMask _ _
  | enterSigsuspend mask =>
    exact { sane with
      blocked := sanitized_sanitizeMask mask
      suspendMask := fun _ saved => Option.some.inj saved ▸ sane.blocked }
  | leaveSigsuspend => exact sane.leaveSigsuspend
  | setAltstack newStack userSp => exact sane.setAltstack newStack userSp
  | prepareForExec => exact sane.prepareForExec

/-- The processes that arise in runs of any number of threads.  A delivery or a
return from a handler may fail and leave what it has done so far. -/
inductive Arises : KernelProcess μ → Prop
  | spawn (process : KernelProcess μ) : Arises { process with signals := .new }
  | call {process : KernelProcess μ} {signals : SignalState} :
      Arises process → process.signals.Updates signals → Arises { process with signals }
  | deliver {process after : KernelProcess μ} {info : SignalInfo} {action : SignalAction}
      {outcome : Except SignalFrameError Unit} :
      Arises process → deliverSignalToUser space info action process = some (outcome, after) →
      Arises after
  | sigreturn {process after : KernelProcess μ} {outcome : Except SysErr Unit} :
      Arises process → rtSigreturn space process = some (outcome, after) → Arises after
  /-- The program runs, and leaves any registers and any memory. -/
  | userMode {process : KernelProcess μ} (after : KernelProcess μ) :
      Arises process → Arises { after with signals := process.signals }
  /-- `clone_for_thread` and `fork_copy`. -/
  | clone {process : KernelProcess μ} (child : KernelProcess μ) :
      Arises process → Arises { child with signals := process.signals.cloned }
  /-- A thread sees what another one has left in the table of actions they share. -/
  | shared {process other : KernelProcess μ} : Arises process → Arises other →
      Arises { process with signals.actions := other.signals.actions }

variable {space}

variable {process : KernelProcess μ}

theorem sane_of_arises (arises : Arises space process) : SaneProcess process := by
  induction arises with
  | spawn => exact sane_new
  | call _ call sane => exact sane.updates call
  | deliver _ ran sane => exact preserves_deliverSignalToUser space _ _ _ sane _ _ ran
  | sigreturn _ ran sane => exact preserves_rtSigreturn space _ sane _ _ ran
  | userMode _ _ sane => exact sane
  | clone _ _ sane => exact sane.cloned
  | shared _ _ sane other => exact { sane with actions := other.actions }

/-- Whatever masks, actions, stacks and frames the programs supply, the signal
state of every thread is sane at all times. -/
theorem signals_sane (arises : Arises space process) : process.signals.Sane :=
  sane_of_arises arises

/-- A process asks for every signal to be blocked. -/
theorem signals_sane_all_blocked :
    ∃ process, Arises flatSpace process ∧ process.signals.blocked = 0xfffffffffffbfeff ∧
      process.signals.Sane := by
  have blocked : Arises flatSpace _ :=
    .call (.spawn (atSigreturn fun _ => 0)) (.setMask sigSetmask (~~~0))
  exact ⟨_, blocked, by decide, signals_sane blocked⟩

end AetherKernel.Signal
