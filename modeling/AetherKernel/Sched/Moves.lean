import AetherKernel.Sched.Effects
import AetherKernel.Sched.Machine

/-!
# The steps as a relation

`perform` is inverted once: for every step, what the processor was doing and
what the step has made of the machine.
-/

namespace AetherKernel.Sched

open Lib Signal Std

variable {μ : Type} [UserSpaces μ]

namespace Kernel

/-- The steps of the machine. -/
inductive Moves (kernel : Kernel μ) : Step μ → Kernel μ → Prop
  | take {cpu : Nat} (within : cpu < kernel.cpuCount)
    (activity : (kernel.cpus cpu).activity = .idle) :
      Moves kernel (.take cpu) (kernel.take cpu)
  | publish {cpu : Nat} {work : DispatchWork} {process : KernelProcess}
      (within : cpu < kernel.cpuCount)
      (activity : (kernel.cpus cpu).activity = .dispatched work process) :
      Moves kernel (.publish cpu)
        ((kernel.setCurrent cpu (some process.runningSnapshot)).setActivity cpu
          (entered work process))
  | trap {cpu : Nat} {process : KernelProcess} (within : cpu < kernel.cpuCount)
      (activity : (kernel.cpus cpu).activity = .user process) (reason : RunReason) :
      Moves kernel (.trap cpu reason)
        ((kernel.setActivity cpu .leaving).finishProcess process reason)
  | enter {cpu : Nat} {process : KernelProcess} (within : cpu < kernel.cpuCount)
      (activity : (kernel.cpus cpu).activity = .user process) :
      Moves kernel (.enter cpu) (kernel.setActivity cpu
          (.kernel { process with pendingSyscall := true, kernelContext := some .other } .running))
  | release {cpu : Nat} (within : cpu < kernel.cpuCount)
      (activity : (kernel.cpus cpu).activity = .leaving) :
      Moves kernel (.release cpu) ((kernel.setCurrent cpu none).setActivity cpu .idle)
  | call {cpu : Nat} {process : KernelProcess} {stage : Stage} {step : Step μ} {after : Kernel μ}
      (within : cpu < kernel.cpuCount) (actor : actor step = some cpu)
      (activity : (kernel.cpus cpu).activity = .kernel process stage)
      (performed : kernel.performCall cpu process stage step = some after) : Moves kernel step after
  | spawn (parent : Option Pid) (task : Task) (assignedCpu sighand : Nat) :
      Moves kernel (.spawn parent task assignedCpu sighand)
        (kernel.spawnTask parent task assignedCpu sighand)
  | service (service : Service) : Moves kernel (.service service) (kernel.serve service)
  | takePending (pid : Pid) (mask : BitVec 64) :
      Moves kernel (.takePending pid mask) (kernel.mapProcesses fun process =>
          if process.pid = pid then
            { process with signals := process.signals.takePendingInMask mask }
          else process)
  | fileReady (pid : Pid) :
      Moves kernel (.fileReady pid) { kernel with fileWaitQueue := kernel.fileWaitQueue ++ [pid] }
  | tick (nanos : Nat) :
      Moves kernel (.tick nanos) { kernel with monotonicNanos := max nanos kernel.monotonicNanos }
  | memory (addressSpace : Nat) (contents : μ) :
      Moves kernel (.memory addressSpace contents)
        { kernel with spaces := Function.update kernel.spaces addressSpace contents }

variable {kernel after : Kernel μ} {cpu : Nat} {step : Step μ}

theorem moves_of_performOn (within : cpu < kernel.cpuCount) (acts : actor step = some cpu)
    (performed : kernel.performOn cpu step = some after) : Moves kernel step after := by
  unfold performOn at performed
  split at performed
  · cases acts
    cases performed
    exact .take within ‹_›
  · cases acts
    cases performed
    exact .publish within ‹_›
  · cases acts
    cases performed
    exact .trap within ‹_› _
  · cases acts
    cases performed
    exact .enter within ‹_›
  · cases acts
    cases performed
    exact .release within ‹_›
  · exact .call within acts ‹_› performed
  · cases performed

theorem moves_of_perform
    (performed : kernel.perform step = some after) : Moves kernel step after := by
  unfold perform at performed
  split at performed
  · split at performed
    · exact moves_of_performOn ‹_› ‹_› performed
    · cases performed
  unfold performFree at performed
  split at performed
  all_goals cases performed
  · exact .spawn _ _ _ _
  · exact .service _
  · exact .takePending _ _
  · exact .fileReady _
  · exact .tick _
  · exact .memory _ _

/-! ## Services -/

/-- What signals and wakes preserve, every service preserves. -/
theorem serve_of {R : Kernel μ → Kernel μ → Prop} {own : Pid}
    (trans : ∀ first second third, R first second → R second third → R first third)
    (wakes : ∀ before after, Wakes own True before after → R before after)
    (signal : ∀ kernel pid info, R kernel (sendSignal kernel pid info)) (kernel : Kernel μ)
    (service : Service) : R kernel (kernel.serve service) := by
  have group (kernel : Kernel μ) (tgid : Pid) (info : SignalInfo) :
      R kernel (kernel.sendSignalThreadGroup tgid info) := by
    unfold sendSignalThreadGroup
    split
    · exact wakes _ _ (.refl kernel)
    · exact signal kernel _ info
  have groups (kernel : Kernel μ) (targets : List Pid) (info : SignalInfo) : R kernel
      (targets.foldl (fun kernel tgid => kernel.sendSignalThreadGroup tgid info) kernel) := by
    induction targets generalizing kernel with
    | nil => exact wakes _ _ (.refl kernel)
    | cons tgid rest ih => exact trans _ _ _ (group kernel tgid info) (ih _)
  cases service with
  | sendSignal pid info => exact signal kernel pid info
  | sendSignalThreadGroup tgid info => exact group kernel tgid info
  | sendSignalProcessGroup _ info | sendSignalAllThreadGroups info => exact groups kernel _ info
  | wakeFutex key bitset count => exact wakes _ _ (wakes_wakeFutex _ _ _ _)
  | requeueFutex source target wakeCount requeueCount bitset =>
    exact wakes _ _ (wakes_requeueFutex _ trivial _ _ _ _ _)
  | wakeExpiredTimers => exact wakes _ _ (wakes_wakeExpiredTimersLoop _ _ _)
  | wakeReadyFileBlocks => exact wakes _ _ (wakes_wakeReadyFileBlocks _)

/-! ## Replies -/

/-- A reply changes the memory of the caller. -/
theorem replyBytes_eq (kernel : Kernel μ) (process : KernelProcess) (address : BitVec 64)
    (bytes : List Byte) (value : BitVec 64) :
    ∃ spaces, (kernel.replyBytes process address bytes value).2 = { kernel with spaces } := by
  unfold replyBytes
  split <;> exact ⟨_, rfl⟩

theorem replyEvent_eq (kernel : Kernel μ) (process : KernelProcess) (wait : ChildWait)
    (event : ChildEvent) :
    ∃ spaces, (kernel.replyEvent process wait event).2 = { kernel with spaces } := by
  unfold replyEvent
  split <;> exact replyBytes_eq _ _ _ _ _

end Kernel

end AetherKernel.Sched
