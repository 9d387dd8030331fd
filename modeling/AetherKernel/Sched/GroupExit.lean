import AetherKernel.Sched.Groups

/-!
# The exit of a thread group

Once a group has an exit status, none of its members is on a processor, and none
of them comes back to one.
-/

namespace AetherKernel.Sched

open Lib Signal Std Option

variable {μ : Type}

namespace Kernel

/-- The signal that a process takes at its dispatch ends it. -/
def Killed (kernel : Kernel μ) (process : KernelProcess) : Prop :=
  kernel.groupExitStatus process.threadGroup = none ∧
    process.pendingSyscall = false ∧ process.kernelContext = none ∧
    ∃ info, ((kernel.drained process).signals.takeNextDelivery supportsUserHandlers).1 = .exit info

/-- There is no handler that could run for the signal. -/
def Uncaught (process : KernelProcess) (signal : Nat) : Prop :=
  ∀ action, process.signals.actions[signal]? = some action →
    action.handler = sigDfl ∨ action.handler = sigIgn ∨
      process.signals.blocked &&& sigbit signal ≠ 0

/-- The process gets a signal that ends it: one that was sent to it, or a fault. -/
inductive Dies (kernel : Kernel μ) : Step μ → KernelProcess → Prop
  | signal {cpu : Nat} {process : KernelProcess} (next : kernel.nextFor cpu = some process)
      (killed : kernel.Killed process) : Dies kernel (.take cpu) process
  | fault {cpu : Nat} {process : KernelProcess} {vector signal : Nat} {errorCode : BitVec 64}
      {handled : Bool} (activity : (kernel.cpus cpu).activity = .user process)
      (unresolved : ¬(vector = pageFaultVector ∧ handled))
      (raises : exceptionSignal vector = some signal)
      (uncaught : Uncaught (kernel.drained process) signal) :
      Dies kernel (.trap cpu (.exception vector errorCode handled)) process

/-- The group is on its way out, or it has no member left. -/
def Exits (kernel : Kernel μ) (group : Pid) : Prop :=
  kernel.groupExitStatus group ≠ none ∨ ∀ pid home, ¬Member none kernel pid group home

/-- The leader of a group does not get a signal that ends it while it has other
members. -/
structure Concerted (kernel : Kernel μ) (label : Step μ × List Event) : Prop extends
    NewPids kernel label where
  leaders : ∀ process, Dies kernel label.1 process → process.isThread ∨
    ∀ member ∈ kernel.threadGroupMembers process.threadGroup,
      member = process.pid

end Kernel

namespace Grouped

open Kernel

variable {start kernel after : Kernel μ} {one two : Flight} (grouped : Grouped start one kernel)
  {group : Pid} {losing : Prop} {own : Kin}

include grouped

/-- A group without members is looked at as one that has exited. -/
theorem forsake (stays : one.coming = none)
    (nobody : ∀ pid home, ¬Member one.enrolled kernel pid group home) :
    Grouped { start with
      groupExitStatus := Function.update start.groupExitStatus group (some 0) } one kernel := by
  refine { grouped with kept := fun other exiting => ?_ }
  by_cases here : other = group
  · subst here
    exact .inr ⟨stays, nobody⟩
  · refine grouped.kept other ?_
    simpa [Function.update_of_ne here] using exiting

/-- A group without members gets none. -/
theorem exits_of_nobody (follows : Follows own losing one .home kernel after)
    (stays : one.coming = none) (nobody : ∀ pid home, ¬Member one.enrolled kernel pid group home) :
    after.Exits group := by
  have forsaken := grouped_follows follows (grouped.forsake stays nobody)
  exact (forsaken.kept group (by simp)).imp_right And.right

omit grouped

section Ends

variable [UserSpaces μ] {process next : KernelProcess}

/-- A process that is taken down takes its group with it. -/
theorem exits_of_reaped (grouped : Grouped start (.away process.kin) kernel)
    (same : next.kin = process.kin) (status : BitVec 32)
    (alone : process.isThread ∨ ∀ member ∈ kernel.threadGroupMembers process.threadGroup,
        member = process.pid) :
    ((kernel.exitWithGroup process status).reapExitedProcess next status).Exits
      process.threadGroup := by
  have reaped (kernel : Kernel μ) : Follows process.kin True (.away process.kin) .home kernel
      (kernel.reapExitedProcess next status) := by
    rw [← same]
    exact follows_reapExitedProcess kernel next status
  by_cases leads : process.isThread
  · rw [exitWithGroup, if_pos leads]
    have begins : Follows process.kin True (.away process.kin) (.away process.kin) kernel
      (kernel.beginThreadGroupExit process.kin.threadGroup process.kin.pid status) :=
      .exits kernel status
    -- A group that has a status keeps it as long as it has members.
    have begun := (grouped_follows begins grouped).restart
    refine ((grouped_follows (reaped _) begun).kept _ ?_).imp_right And.right
    have status := (kernel.beginThreadGroupExit_eq process.kin.threadGroup process.kin.pid status).2
    rw [status]
    simp [KernelProcess.kin]
  have single := alone.resolve_left leads
  rw [exitWithGroup, if_neg leads]
  have left : Follows next.kin True (.away next.kin) (.left next.kin) kernel _ :=
    follows_leaveSystem kernel next
  have rest : Follows next.kin True (.left next.kin) .home _ _ := follows_left kernel next status
  rw [← same] at grouped
  have away := grouped_follows left grouped
  refine away.exits_of_nobody rest rfl fun pid home member => ?_
  obtain ⟨middle, departs, leaves⟩ := (kernel.record (.left next.serial)).exists_leaveSystem next
  have listed := away.listed pid _ home member
  rw [leaves, mem_untrackThreadGroup] at listed
  have sameGroup := congrArg Kin.threadGroup same
  have samePid := congrArg Kin.pid same
  have groups := departs.wakes.families.threadGroups
  obtain ⟨before, apart⟩ := listed
  rw [threadGroupMembers, groups] at before
  exact apart sameGroup.symm ((single pid before).trans samePid.symm)

end Ends

end Grouped

namespace Kernel

section Steps

variable [UserSpaces μ] {kernel after : Kernel μ} {process : KernelProcess}
  {cpu vector signal : Nat} {events : List Event} {step : Step μ}

theorem dispatchTaken_killed (cpu : Nat) (lives : kernel.groupExitStatus process.threadGroup = none)
    (returned : process.pendingSyscall = false ∧ process.kernelContext = none) {info : SignalInfo}
    (fatal : (process.signals.takeNextDelivery supportsUserHandlers).1 = .exit info) :
    ∃ taken next status, taken.kin = process.kin ∧ next.kin = process.kin ∧
      kernel.dispatchTaken process cpu =
        (.event, (kernel.exitWithGroup taken status).reapExitedProcess next status) := by
  generalize same : process.signals.takeNextDelivery supportsUserHandlers = delivery at fatal
  obtain ⟨_, signals⟩ := delivery
  cases fatal
  refine ⟨{ process with signals },
    { process with signals, state := .exited (signalStatus info.signal) },
    signalStatus info.signal, rfl, rfl, ?_⟩
  simp only [dispatchTaken, lives, returned.1, returned.2, takeSignal, same]
  rfl

/-- The group of a process that is killed when a processor takes it. -/
theorem exits_of_killed (grouped : Grouped kernel .home kernel)
    (idle : (kernel.cpus cpu).activity = .idle) (next : kernel.nextFor cpu = some process)
    (killed : kernel.Killed process)
    (alone : process.isThread ∨ ∀ member ∈ kernel.threadGroupMembers process.threadGroup,
        member = process.pid) : (kernel.take cpu).Exits process.threadGroup := by
  obtain ⟨lives, call, context, info, fatal⟩ := killed
  unfold take
  rcases takeLoop_cases grouped.places.keyed cpu (kernel.cpus cpu).runQueue.length with
    ⟨_, -, -, nobody⟩ | ⟨pid, first, middle, taken, found, here, passes, result⟩
  · nomatch (nobody (Nat.le_refl _)).symm.trans next
  cases taken.symm.trans next
  have own := grouped.places.keyed pid process found
  subst own
  obtain ⟨kept, queued⟩ := passes.kept found here
  have still : (middle.cpus process.assignedCpu).activity = .idle := by
    rw [passes.activity, here]
    exact idle
  have dropped : Follows process.kin True .home (.away process.kin) middle
      ((middle.drop process.pid).drainQueuedSignals process).2 :=
    (Follows.drop kept rfl still).trans (follows_clearSignals _ _)
  have flown := grouped_follows dropped (grouped.stay passes.stands passes.zombies
    passes.nextPid passes.threadGroups passes.groupExitStatus)
  have drained : kernel.drained process = middle.drained process := by
    simp only [Kernel.drained, drainQueuedSignals, queued]
  rw [drained] at fatal
  have group : ((middle.drop process.pid).drainQueuedSignals process).2.groupExitStatus
      (middle.drained process).threadGroup = none :=
    (congrFun passes.groupExitStatus _).trans lives
  obtain ⟨victim, last, status, same, sameLast, ended⟩ :=
    dispatchTaken_killed cpu group ⟨call, context⟩ fatal
  rw [result, ended]
  have kin : victim.kin = process.kin := same
  rw [← kin] at flown
  have sameGroup : victim.threadGroup = process.threadGroup :=
    congrArg Kin.threadGroup kin
  rw [← sameGroup]
  refine flown.exits_of_reaped (sameLast.trans same.symm) status (alone.imp ?_ ?_)
  · intro thread
    rw [victim.isThread_iff, kin]
    exact process.isThread_iff.mp thread
  intro single member listed
  have samePid : victim.pid = process.pid := congrArg Kin.pid kin
  rw [samePid]
  refine single member ?_
  rw [sameGroup] at listed
  rw [threadGroupMembers, ← passes.threadGroups]
  exact listed

theorem exceptionSignal_lt (raises : exceptionSignal vector = some signal) : signal < 65 := by
  unfold exceptionSignal at raises
  split_ifs at raises <;> cases raises <;> decide

omit [UserSpaces μ] in
theorem queueSynchronousFaultSignal_uncaught (code : BitVec 32) (low : signal < 65)
    (uncaught : Uncaught process signal) :
    kernel.queueSynchronousFaultSignal process signal code =
      ({ process with state := .exited (signalStatus signal) },
        kernel.exitWithGroup process (signalStatus signal)) := by
  have known : process.signals.actions[signal]? = some process.signals.actions[signal] :=
    Vector.getElem?_eq_getElem low
  unfold queueSynchronousFaultSignal
  rw [known]
  dsimp only
  refine if_neg fun caught => ?_
  simp only [Bool.and_eq_true, decide_eq_true_eq] at caught
  obtain ⟨⟨⟨-, notDefault⟩, notIgnored⟩, unblocked⟩ := caught
  rcases uncaught _ known with default | ignored | blocked
  · exact notDefault default
  · exact notIgnored ignored
  · exact blocked unblocked

theorem exits_of_dies (grouped : Grouped kernel .home kernel)
    (moves : Moves kernel step after) (concerted : kernel.Concerted (step, events))
    (dies : Dies kernel step process) : after.Exits process.threadGroup := by
  have alone := concerted.leaders process dies
  cases dies with
  | signal next killed =>
    cases moves with
    | take within idle => exact exits_of_killed grouped idle next killed alone
    | call within acts here performed => cases performed
  | @fault cpu process vector signal errorCode handled activity unresolved raises uncaught =>
    cases moves with
    | trap within here =>
      cases activity.symm.trans here
      have cleared : Follows process.kin True (.away process.kin) (.away process.kin)
          (kernel.setActivity cpu .leaving)
          ((kernel.setActivity cpu .leaving).drainQueuedSignals process).2 :=
        follows_clearSignals _ process.pid
      have away : Grouped kernel (.away (kernel.drained process).kin)
          ((kernel.setActivity cpu .leaving).drainQueuedSignals process).2 :=
        grouped_follows cleared (grouped.takeOff (congrArg Activity.held activity))
      have ended : ((kernel.setActivity cpu .leaving).drainQueuedSignals process
          ).2.queueSynchronousFaultSignal ((kernel.setActivity cpu .leaving).drainQueuedSignals
            process).1 signal (errorCode.setWidth 32) = _ :=
        queueSynchronousFaultSignal_uncaught _ (exceptionSignal_lt raises) uncaught
      simp only [finishProcess, if_neg unresolved, raises]
      rw [ended]
      refine away.exits_of_reaped ?_ (signalStatus signal) alone
      rfl
    | call within acts here performed => cases performed

end Steps

/-- A check that is enough for a step to be concerted. -/
def concerts (kernel : Kernel μ) (step : Step μ) : Bool :=
  kernel.distinguishes step &&
  match step with
  | .take cpu =>
    match kernel.nextFor cpu with
    | none => true
    | some process =>
      match ((kernel.drained process).signals.takeNextDelivery supportsUserHandlers).1 with
      | .exit _ => process.isThread
      | _ => true
  | .trap _ (.exception _ _ _) => false
  | _ => true

theorem concerted_of_concerts (kernel : Kernel μ) (step : Step μ) (_ : Sound kernel)
    (passed : kernel.concerts step) (events : List Event) : kernel.Concerted (step, events) := by
  unfold concerts at passed
  rw [Bool.and_eq_true] at passed
  obtain ⟨fresh, own⟩ := passed
  refine ⟨newPids_of_distinguishes fresh events, fun process dies => ?_⟩
  left
  cases dies with
  | signal next killed =>
    obtain ⟨-, -, -, info, fatal⟩ := killed
    dsimp only at own
    rw [next] at own
    dsimp only at own
    rw [fatal] at own
    exact own
  | fault => nomatch own

/-- The thread waits for a signal. -/
def suspendSteps : List (Step (BitVec 64 → Byte)) :=
  [.take 0, .publish 0, .enter 0, .blockOn 0 .signalSuspend, .finishBlock 0 false, .release 0]

def exitGroupSteps : List (Step (BitVec 64 → Byte)) :=
  [.take 0, .publish 0, .enter 0, .compute 0 (.exitGroup 0), .finishReturn 0]

/-- The leader is sent a `SIGTERM`, and the processor takes it. -/
def terminateSteps : List (Step (BitVec 64 → Byte)) :=
  [.service (.sendSignal 1 ⟨15, 0, 0, 0, 0⟩), .take 0]

end Kernel

end AetherKernel.Sched
