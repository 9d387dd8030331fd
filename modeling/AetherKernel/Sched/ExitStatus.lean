import AetherKernel.Sched.Dispatch
import AetherKernel.Sched.Machine

/-!
# Exit statuses

A process that ends leaves one number: the code that it has passed to `exit` or
`exit_group`, or 128 and the signal that has killed it.  The parent reads it
from `wait4`, from `waitid` and from the `siginfo` of `SIGCHLD`.
-/

namespace AetherKernel.Sched

open Kernel Lib Signal BitVec Bytes

/-- How a process ends; signals are counted from one. -/
inductive Ending where
  | exit (code : BitVec 32)
  | exitGroup (code : BitVec 32)
  | signal (index : Fin 64)

namespace Ending

/-- The number that is left. -/
def status : Ending → BitVec 32
  | .exit code | .exitGroup code => code
  | .signal index => signalStatus (index + 1)

end Ending

section Reaps

variable {μ : Type} [UserSpaces μ] {kernel after : Kernel μ} {process left : KernelProcess}
  {ending : Ending} {status : BitVec 32}

/-- The ends of a process: of itself in a call, at its dispatch with its group or by a
signal, and by a fault. -/
inductive Leaves (kernel : Kernel μ) (process : KernelProcess) : Ending → Kernel μ → Prop
  | exit (code : BitVec 32) :
      Leaves kernel process (.exit code) (kernel.finishSyscallDispatch process (.exit code))
  | exitGroup (code : BitVec 32) : Leaves kernel process (.exitGroup code)
      (kernel.finishSyscallDispatch process (.exitGroup code))
  | expelled {ending : Ending} (cpu : Nat)
      (group : kernel.groupExitStatus process.threadGroup = some ending.status) :
      Leaves kernel process ending (kernel.dispatchTaken process cpu).2
  | killed {index : Fin 64} {next : KernelProcess} {middle : Kernel μ} (cpu : Nat)
      (group : kernel.groupExitStatus process.threadGroup = none)
      (returns : (process.pendingSyscall || process.kernelContext.isSome) = false)
      (taken : kernel.takeSignal process cpu = (some next, middle))
      (exits : next.state = .exited (signalStatus (index + 1))) :
      Leaves kernel process (.signal index) (kernel.dispatchTaken process cpu).2
  | faulted {index : Fin 64} (vector : Nat) (errorCode : BitVec 64)
      (raises : exceptionSignal vector = some (index.val + 1))
      (exits : ((kernel.drainQueuedSignals process).2.queueSynchronousFaultSignal
        (kernel.drainQueuedSignals process).1 (index + 1) (errorCode.setWidth 32)).1.state =
          .exited (signalStatus (index + 1))) : Leaves kernel process (.signal index)
        (kernel.finishProcess process (.exception vector errorCode false))

/-- The process is reaped with the status.  If its parent wants to know, the signal and
the event that it gets have the status. -/
def Reaps (process : KernelProcess) (status : BitVec 32) (after : Kernel μ) : Prop :=
  ∃ (before middle : Kernel μ) (left : KernelProcess), left.identity = process.identity ∧
    after = before.reapExitedProcess left status ∧
    middle = (before.record (.left left.serial)).leaveSystem left ∧
    ∀ parent, process.parent = some parent → process.isThread = false →
      middle.ignoresSigchld parent = false → middle.wantsNoZombies parent = false →
      ∃ zombies, after = notifyChildEvent { middle.notifySignal parent
          (.childExit process.pid status) with zombies } parent
        ⟨process.pid, .exited status⟩

theorem reaps_of_identity (same : left.identity = process.identity) :
    Reaps process status (kernel.reapExitedProcess left status) := by
  refine ⟨kernel, _, left, same, rfl, rfl, fun parent known alone heeds keeps => ?_⟩
  unfold KernelProcess.isThread at alone
  unfold reapExitedProcess KernelProcess.isThread bury
  simp only [same, known, alone, heeds, keeps]
  exact ⟨_, rfl⟩

theorem Leaves.reaps (leaves : Leaves kernel process ending after) :
    Reaps process ending.status after := by
  cases leaves with
  | exit | exitGroup => exact reaps_of_identity rfl
  | expelled cpu group =>
    unfold dispatchTaken
    rw [group]
    exact reaps_of_identity rfl
  | killed cpu group returns taken exits =>
    have signal := taken ▸ kernel.signalTaken process cpu
    unfold dispatchTaken
    simp only [group, returns, taken, resumeTaken, exits]
    cases signal with
    | goes prepared | dies prepared => exact reaps_of_identity prepared.identity
  | faulted vector errorCode raises exits =>
    unfold finishProcess
    simp only [raises, Bool.false_eq_true, and_false, if_false]
    rw [requeueProcess, exits]
    apply reaps_of_identity
    unfold queueSynchronousFaultSignal
    split
    · rfl
    · split <;> rfl

end Reaps

/-- How a process has ended, in the eyes of its parent. -/
inductive Verdict where
  | exited (code : BitVec 32)
  | killed (signal : BitVec 32)
  | other
  deriving DecidableEq

def Ending.verdict : Ending → Verdict
  | .exit code | .exitGroup code => .exited (code &&& 0xff)
  | .signal index => .killed (BitVec.ofNat 32 (index + 1))

/-- `WIFEXITED`, `WEXITSTATUS`, `WIFSIGNALED` and `WTERMSIG`. -/
def verdictOfStatus (status : BitVec 32) : Verdict :=
  if status &&& 0x7f = 0 then .exited (status >>> 8 &&& 0xff)
  else if status &&& 0x7f = 0x7f then .other
  else .killed (status &&& 0x7f)

/-- `si_code` and `si_status`. -/
def verdictOfCode (code status : BitVec 32) : Verdict :=
  if code = cldExited then .exited status
  else if code = cldKilled then .killed status
  else .other

def verdictOfSiginfo (bytes : List Byte) : Verdict :=
  verdictOfCode (wordAt 32 bytes 8) (wordAt 32 bytes 24)

/-- What the parent reads in the three places. -/
structure Reported (pid : Pid) (status : BitVec 32) (verdict : Verdict) : Prop where
  wait4 : verdictOfStatus (waitStatus (.exited status)) = verdict
  waitid : verdictOfSiginfo (waitidSiginfo ⟨pid, .exited status⟩) = verdict
  sigchld : verdictOfSiginfo (serializeSiginfo (.childExit pid status)) = verdict

/-- Where the code and the status stand. -/
theorem verdictOfSiginfo_eq (signal errno pad pid uid : Nat) (code status : BitVec 32)
    (rest : List Byte) : verdictOfSiginfo (ofNat 4 signal ++ ofNat 4 errno ++
      ofWord code ++ ofNat 4 pad ++ ofNat 4 pid ++ ofNat 4 uid ++
      ofWord status ++ rest) = verdictOfCode code status := by
  have whole : 8 ∣ 32 := by decide
  exact congrArg₂ verdictOfCode (ofNat_toNat_ofWord whole code) (ofNat_toNat_ofWord whole status)

/-- A small code and every signal are told from each other in all three places. -/
def Ending.Small : Ending → Prop
  | .exit code | .exitGroup code => code.toNat < 128
  | .signal _ => True

/-- What the parent reads in the three places, for either kind of status. -/
theorem reported_iff {pid : Pid} {status : BitVec 32} {verdict : Verdict} :
    Reported pid status verdict ↔ (if 128 ≤ status.toInt then verdictOfStatus (status - 128)
        else verdictOfStatus ((status &&& 0xff) <<< 8)) = verdict ∧
      (if 128 ≤ status.toInt then .killed (status - 128) else .exited status) = verdict := by
  have waited : verdictOfSiginfo (waitidSiginfo ⟨pid, .exited status⟩) =
      if 128 ≤ status.toInt then .killed (status - 128) else .exited status := by
    simp only [waitidSiginfo]
    split <;> exact verdictOfSiginfo_eq ..
  have signalled : verdictOfSiginfo (serializeSiginfo (.childExit pid status)) =
      if 128 ≤ status.toInt then .killed (status - 128) else .exited status := by
    unfold SignalInfo.childExit
    split <;> exact verdictOfSiginfo_eq ..
  have told : verdictOfStatus (waitStatus (.exited status)) =
      if 128 ≤ status.toInt then verdictOfStatus (status - 128)
        else verdictOfStatus ((status &&& 0xff) <<< 8) :=
    apply_ite verdictOfStatus ..
  rw [← told]
  constructor
  · rintro ⟨first, second, -⟩
    exact ⟨first, waited ▸ second⟩
  · rintro ⟨first, second⟩
    exact ⟨first, waited.trans second, signalled.trans second⟩

/-- An ending is reported as it was exactly when its code, if it has one, is
below 128.  In every case the kernel reaps the process with the status of its
ending. -/
theorem ending_is_reported_iff {μ : Type} [UserSpaces μ] (pid : Pid) (ending : Ending) :
    (∀ (kernel after : Kernel μ) (process : KernelProcess), Leaves kernel process ending after →
      Reaps process ending.status after) ∧
    (Reported pid ending.status ending.verdict ↔ ending.Small) := by
  have exits (code : BitVec 32) :
      Reported pid code (.exited (code &&& 0xff)) ↔ code.toNat < 128 := by
    rw [reported_iff]
    by_cases large : 128 ≤ code.toInt
    · simp only [large, if_true, reduceCtorEq, and_false, false_iff]
      intro small
      rw [toInt_eq_toNat_of_lt (by omega)] at large
      omega
    simp only [large, if_false, Verdict.exited.injEq]
    constructor
    · rintro ⟨-, same⟩
      have value := congrArg BitVec.toNat same
      rw [toNat_and, show (0xff : BitVec 32).toNat = 2 ^ 8 - 1 from rfl,
        Nat.and_two_pow_sub_one_eq_mod] at value
      rw [toInt_eq_toNat_of_lt (by omega)] at large
      omega
    · intro small
      have every : ∀ n : Fin 128, verdictOfStatus ((BitVec.ofNat 32 n &&& 0xff) <<< 8) =
          .exited (BitVec.ofNat 32 n &&& 0xff) ∧
          BitVec.ofNat 32 n = BitVec.ofNat 32 n &&& 0xff := by decide
      simpa using every ⟨code.toNat, small⟩
  refine ⟨fun _ _ _ leaves => leaves.reaps, ?_⟩
  cases ending with
  | exit code | exitGroup code => exact exits code
  | signal index =>
    refine iff_of_true (reported_iff.mpr ?_) trivial
    revert index
    decide

/-- `exit(200)` is read as a death by signal 72. -/
theorem large_code_reads_as_signal :
    ¬Reported 2 (Ending.exit 200).status (Ending.exit 200).verdict ∧
    verdictOfStatus (waitStatus (.exited (Ending.exit 200).status)) = .killed 72 :=
  ⟨fun told => absurd told.wait4 (by decide), by decide⟩

end AetherKernel.Sched
