import AetherKernel.Sched.Effects

/-!
# What a dispatch does

A processor passes over the pids of its run queue that it cannot run.  The
first process that it can run leaves the table, takes a signal, and is started
or reaped.
-/

namespace AetherKernel.Sched

open Lib Signal Std Function Option

variable {μ : Type}

namespace Kernel

section Taken

variable [UserSpaces μ]

/-! ## Signals -/

/-- What a dispatch may change of the process itself. -/
def Prepared (before after : KernelProcess) : Prop :=
  after = { before with
      task := after.task
      setChildTid := after.setChildTid
      signals := after.signals
      state := after.state }

variable (process : KernelProcess) {before after : KernelProcess}

theorem Prepared.refl : Prepared process process :=
  rfl

theorem Prepared.identity (prepared : Prepared before after) :
    after.identity = before.identity := by
  rw [prepared]

theorem Prepared.kin (prepared : Prepared before after) : after.kin = before.kin := by
  rw [prepared]
  rfl

theorem Prepared.exits (prepared : Prepared before after)
    (state : ProcessState) : Prepared before { after with state } := by
  unfold Prepared at prepared ⊢
  rw [prepared]

variable (kernel : Kernel μ)

theorem deliverSignal_spec (process : KernelProcess) (info : SignalInfo) (action : SignalAction) :
    Prepared process (kernel.deliverSignal process info action).2.1 ∧
      Wakes process.pid False kernel (kernel.deliverSignal process info action).2.2 := by
  unfold deliverSignal
  dsimp only
  split
  · exact ⟨rfl, .refl kernel⟩
  · exact ⟨rfl, .tables rfl⟩

theorem prepareChildReturn_spec (process : KernelProcess) :
    Prepared process (kernel.prepareChildReturn process).1 ∧
      Wakes process.pid False kernel (kernel.prepareChildReturn process).2 := by
  unfold prepareChildReturn
  split
  · exact ⟨rfl, .refl kernel⟩
  dsimp only
  split
  all_goals
    rename_i written
    exact ⟨rfl, wakes_writeWord written⟩

/-- What a signal can do at dispatch. -/
inductive SignalTaken (kernel : Kernel μ) (process : KernelProcess) (cpu : Nat) :
    Option KernelProcess × Kernel μ → Prop
  | goes {next : KernelProcess} {after : Kernel μ} (prepared : Prepared process next)
      (wakes : Wakes process.pid False kernel after) :
      SignalTaken kernel process cpu (some next, after)
  | dies {next : KernelProcess} {after : Kernel μ} {status : BitVec 32}
      (prepared : Prepared process next) (settles : Settles process.kin kernel after)
      (exited : next.state = .exited status) : SignalTaken kernel process cpu (some next, after)
  | stops {info : SignalInfo}
      (stop : (process.signals.takeNextDelivery supportsUserHandlers).1 = .stop info) :
      SignalTaken kernel process cpu (none, kernel.notifyChildEvent process.parent
          ⟨process.pid, .stopped info.signal⟩)
  | continues {signal : Nat} (stopped : process.state = .stopped signal) (signals : SignalState) :
      SignalTaken kernel process cpu (none, ((kernel.notifyChildEvent process.parent
          ⟨process.pid, .continued⟩).store process.pid
            { process with signals, state := .runnable }).enqueueRunnablePid
              process.pid cpu)

theorem signalTaken (process : KernelProcess) (cpu : Nat) :
    SignalTaken kernel process cpu (kernel.takeSignal process cpu) := by
  unfold takeSignal
  generalize same : process.signals.takeNextDelivery supportsUserHandlers = taken
  obtain ⟨delivery, signals⟩ := taken
  cases delivery with
  | none | ignored => exact .goes rfl (.refl kernel)
  | deliver info action =>
    dsimp only
    have spec := kernel.deliverSignal_spec { process with signals } info action
    generalize kernel.deliverSignal { process with signals } info action = outcome at spec ⊢
    obtain ⟨delivered, next, after⟩ := outcome
    obtain ⟨prepared, wakes⟩ := spec
    have kept : Prepared process next := prepared
    cases delivered with
    | true => exact .goes kept wakes
    | false =>
      split_ifs
      · exact .goes kept wakes
      · refine .dies (kept.exits _) (Settles.trans (.wakes wakes) ?_) rfl
        rw [← kept.kin]
        exact settles_exitWithGroup _ _ _
  | exit info => exact .dies rfl (settles_exitWithGroup _ { process with signals } _) rfl
  | stop info => exact .stops (by rw [same])
  | «continue» info =>
    dsimp only
    split
    · exact .continues ‹_› signals
    · exact .goes rfl (.refl kernel)

/-! ## The process that was taken -/

/-- How a process goes on. -/
def workOf : DispatchWork :=
  if process.kernelContext.isSome then .kernelContinuation
  else if process.pendingSyscall then .kernelSyscall
  else .process

/-- What can become of a process that was taken. -/
inductive Dispatched (kernel : Kernel μ) (process : KernelProcess) (cpu : Nat) :
    Dispatch × Kernel μ → Prop
  | runs {next : KernelProcess} {after : Kernel μ}
      (group : kernel.groupExitStatus process.threadGroup = none)
      (prepared : Prepared process next) (wakes : Wakes process.pid False kernel after)
      (state : next.state = .running) :
      Dispatched kernel process cpu (.run (workOf process) next, after)
  | ends {next : KernelProcess} {after : Kernel μ} (prepared : Prepared process next)
      (settles : Settles process.kin kernel after) (status : BitVec 32) :
      Dispatched kernel process cpu (.event, after.reapExitedProcess next status)
  | stops {info : SignalInfo}
      (group : kernel.groupExitStatus process.threadGroup = none)
      (returned : process.pendingSyscall = false ∧ process.kernelContext = none)
      (stop : (process.signals.takeNextDelivery supportsUserHandlers).1 = .stop info) :
      Dispatched kernel process cpu (.event, kernel.notifyChildEvent process.parent
          ⟨process.pid, .stopped info.signal⟩)
  | continues {signal : Nat} (stopped : process.state = .stopped signal) (signals : SignalState) :
      Dispatched kernel process cpu (.event, ((kernel.notifyChildEvent process.parent
          ⟨process.pid, .continued⟩).store process.pid
            { process with signals, state := .runnable }).enqueueRunnablePid
              process.pid cpu)

theorem Prepared.trans {first second third : KernelProcess} (earlier : Prepared first second)
    (later : Prepared second third) : Prepared first third := by
  unfold Prepared at earlier later ⊢
  rw [later, earlier]

theorem Prepared.workOf (prepared : Prepared before after) : workOf after = workOf before := by
  rw [prepared]
  rfl

theorem dispatched_resumeTaken {kernel before : Kernel μ} {process next : KernelProcess}
    (cpu : Nat) (group : kernel.groupExitStatus process.threadGroup = none)
    (prepared : Prepared process next) (wakes : Wakes process.pid False kernel before) :
    Dispatched kernel process cpu (before.resumeTaken next) := by
  have work := prepared.workOf
  have starts : ∀ work, work = workOf next →
      Dispatched kernel process cpu (before.launch next work) := by
    intro start same
    subst same
    rw [work]
    exact .runs group (prepared.exits _) wakes rfl
  unfold resumeTaken
  split
  · exact .ends prepared (.wakes wakes) _
  split
  · exact starts _ (by simp [workOf, *])
  split
  · exact starts _ (by simp [workOf, *])
  obtain ⟨child, writes⟩ := before.prepareChildReturn_spec next
  rw [prepared.identity] at writes
  dsimp only
  split
  · exact .ends (prepared.trans child) (.wakes (wakes.trans writes)) _
  · have same : workOf process = .process := by
      rw [← work]
      simp [workOf, *]
    rw [← same]
    exact .runs group ((prepared.trans child).exits _) (wakes.trans writes) rfl

theorem dispatched (process : KernelProcess) (cpu : Nat) :
    Dispatched kernel process cpu (kernel.dispatchTaken process cpu) := by
  unfold dispatchTaken
  split
  · exact .ends ((Prepared.refl process).exits _) (.wakes (.refl kernel)) _
  rename_i group
  split
  · exact dispatched_resumeTaken cpu group rfl (.refl kernel)
  rename_i returned
  have taken := kernel.signalTaken process cpu
  generalize kernel.takeSignal process cpu = outcome at taken ⊢
  cases taken with
  | goes prepared wakes => exact dispatched_resumeTaken cpu group prepared wakes
  | dies prepared settles exited =>
    dsimp only
    rw [resumeTaken, exited]
    exact .ends prepared settles _
  | stops stop => exact .stops group (by simpa using returned) stop
  | continues stopped signals => exact .continues stopped signals

end Taken

/-! ## The run queue -/

variable (kernel : Kernel μ) {cpu : Nat} {pid : Pid}

/-- The process with the signals that wait for it. -/
def drained (process : KernelProcess) : KernelProcess :=
  (kernel.drainQueuedSignals process).1

/-- A processor has passed over pids that it cannot run: they are gone, or they
are for another processor.  `taken` is the pid that it goes on with. -/
structure Passes (cpu : Nat) (taken : Option Pid) (before after : Kernel μ) : Prop where
  cpuCount : after.cpuCount = before.cpuCount
  activity : ∀ index, (after.cpus index).activity = (before.cpus index).activity
  current : ∀ index, (after.cpus index).current = (before.cpus index).current
  nextPid : after.nextPid = before.nextPid
  zombies : after.zombies = before.zombies
  childEvents : after.childEvents = before.childEvents
  threadGroups : after.threadGroups = before.threadGroups
  groupExitStatus : after.groupExitStatus = before.groupExitStatus
  parentChildren : after.parentChildren = before.parentChildren
  armedFutexWaits : after.armedFutexWaits = before.armedFutexWaits
  blockedFutexes : after.blockedFutexes = before.blockedFutexes
  journal : after.journal = before.journal
  processes : ∀ pid,
    (after.processes pid = before.processes pid ∧
      after.queuedSignals pid = before.queuedSignals pid) ∨
    ∃ process, before.processes pid = some process ∧ process.pid = pid ∧
      process.assignedCpu ≠ cpu ∧ after.processes pid = some (before.drained process) ∧
      after.queuedSignals pid = []
  queue : ∀ pid process, before.processes pid = some process → some pid ≠ taken →
    pid ∈ (before.cpus process.assignedCpu).runQueue →
    pid ∈ (after.cpus process.assignedCpu).runQueue

namespace Passes

variable {taken : Option Pid} {first second third : Kernel μ} {process : KernelProcess}

theorem refl (cpu : Nat) (taken : Option Pid) (kernel : Kernel μ) :
    Passes cpu taken kernel kernel where
  cpuCount := rfl
  activity _ := rfl
  current _ := rfl
  nextPid := rfl
  zombies := rfl
  childEvents := rfl
  threadGroups := rfl
  groupExitStatus := rfl
  parentChildren := rfl
  armedFutexWaits := rfl
  blockedFutexes := rfl
  journal := rfl
  processes _ := .inl ⟨rfl, rfl⟩
  queue _ _ _ _ queued := queued

/-- Where a process of the table comes from. -/
theorem exists_origin (passes : Passes cpu taken first second)
    (found : second.processes pid = some process) :
    ∃ before, first.processes pid = some before ∧
      process = { before with signals := process.signals } := by
  rcases passes.processes pid with ⟨same, -⟩ | ⟨before, known, -, -, stored, -⟩
  · exact ⟨process, same ▸ found, rfl⟩
  · cases stored.symm.trans found
    exact ⟨before, known, rfl⟩

theorem trans {one two : Option Pid} (earlier : Passes cpu one first second)
    (later : Passes cpu two second third)
    (covers : ∀ pid, some pid ≠ taken → some pid ≠ one ∧ some pid ≠ two) :
    Passes cpu taken first third where
  cpuCount := later.cpuCount.trans earlier.cpuCount
  activity index := (later.activity index).trans (earlier.activity index)
  current index := (later.current index).trans (earlier.current index)
  nextPid := later.nextPid.trans earlier.nextPid
  zombies := later.zombies.trans earlier.zombies
  childEvents := later.childEvents.trans earlier.childEvents
  threadGroups := later.threadGroups.trans earlier.threadGroups
  groupExitStatus := later.groupExitStatus.trans earlier.groupExitStatus
  parentChildren := later.parentChildren.trans earlier.parentChildren
  armedFutexWaits := later.armedFutexWaits.trans earlier.armedFutexWaits
  blockedFutexes := later.blockedFutexes.trans earlier.blockedFutexes
  journal := later.journal.trans earlier.journal
  processes pid := by
    rcases earlier.processes pid with ⟨same, queued⟩ | ⟨process, found, own, apart, stored, empty⟩
    · rcases later.processes pid with ⟨kept, still⟩ | ⟨process, found, own, apart, stored, empty⟩
      · exact .inl ⟨kept.trans same, still.trans queued⟩
      · refine .inr ⟨process, same ▸ found, own, apart, ?_, empty⟩
        rw [stored, drained, drained, drainQueuedSignals, drainQueuedSignals]
        simp only [own, queued]
    · refine .inr ⟨process, found, own, apart, ?_⟩
      rcases later.processes pid with ⟨kept, still⟩ | ⟨next, known, same, -, twice, again⟩
      · exact ⟨kept.trans stored, still.trans empty⟩
      · refine ⟨?_, again⟩
        cases stored.symm.trans known
        rw [twice, drained, drainQueuedSignals]
        simp only [same, empty, List.foldl_nil]
  queue pid process found apart queued := by
    obtain ⟨notOne, notTwo⟩ := covers pid apart
    have kept := earlier.queue pid process found notOne queued
    rcases earlier.processes pid with ⟨same, -⟩ | ⟨next, known, -, -, stored, -⟩
    · exact later.queue pid process (same.trans found) notTwo kept
    · cases known.symm.trans found
      exact later.queue pid (first.drained process) stored notTwo kept

/-- The process that the processor goes on with has not been passed over. -/
theorem kept (passes : Passes cpu taken first second)
    (found : first.processes pid = some process) (here : process.assignedCpu = cpu) :
    second.processes pid = some process ∧ second.queuedSignals pid = first.queuedSignals pid := by
  rcases passes.processes pid with ⟨same, queued⟩ | ⟨other, known, -, apart, -⟩
  · exact ⟨same.trans found, queued⟩
  · cases known.symm.trans found
    exact absurd here apart

/-- Nothing changes about which processes are for the processor. -/
theorem filter_processes (passes : Passes cpu taken first second) (pid : Pid) :
    (second.processes pid).filter (fun process => process.assignedCpu = cpu) =
      (first.processes pid).filter fun process => process.assignedCpu = cpu := by
  rcases passes.processes pid with ⟨same, -⟩ | ⟨process, found, -, apart, stored, -⟩
  · rw [same]
  · rw [found, stored, filter_some, filter_some,
      if_neg (by simp [drained, drainQueuedSignals, apart]), if_neg (by simp [apart])]

end Passes

def Keyed : Prop :=
  ∀ pid process, kernel.processes pid = some process → process.pid = pid

theorem Passes.keyed {taken : Option Pid} {before after : Kernel μ}
    (passes : Passes cpu taken before after) (keyed : Keyed before) : Keyed after := by
  intro pid process found
  obtain ⟨origin, known, same⟩ := passes.exists_origin found
  rw [same]
  exact keyed pid origin known

/-- The process that a processor takes next. -/
def nextFor (cpu : Nat) : Option KernelProcess :=
  (kernel.cpus cpu).runQueue.findSome? fun pid =>
    (kernel.processes pid).filter fun process => process.assignedCpu = cpu

/-- One pid is taken off the queue. -/
theorem passes_pop (cpu : Nat) {rest : List Pid}
    (queue : (kernel.cpus cpu).runQueue = pid :: rest) :
    Passes cpu (some pid) kernel (kernel.setCpu cpu { kernel.cpus cpu with runQueue := rest }) := by
  refine { Passes.refl cpu (some pid) kernel with activity := ?_, current := ?_, queue := ?_ }
  iterate 2
    · intro index
      by_cases here : index = cpu
      · subst here
        simp [setCpu]
      · simp [setCpu, update_of_ne here]
  · intro other process found apart queued
    by_cases here : process.assignedCpu = cpu
    · rw [here] at queued ⊢
      rw [queue] at queued
      have differs : other ≠ pid := fun same => apart (by rw [same])
      simpa [setCpu, differs] using queued
    · simpa [setCpu, update_of_ne here] using queued

theorem cpus_enqueueRunnablePid_of_ne (pid : Pid) {other : Nat}
    (apart : other ≠ cpu) : (kernel.enqueueRunnablePid pid cpu).cpus other = kernel.cpus other := by
  unfold enqueueRunnablePid
  dsimp only
  split
  · rfl
  · simp [setCpu, update_of_ne apart]

/-- A process is put back for another processor. -/
theorem passes_forward {kernel : Kernel μ} {process : KernelProcess}
    (found : kernel.processes pid = some process) (own : process.pid = pid)
    (elsewhere : process.assignedCpu ≠ cpu) :
    Passes cpu none kernel ((((kernel.drop pid).drainQueuedSignals process).2.store pid
        (kernel.drained process)).enqueueRunnablePid pid process.assignedCpu) := by
  have stirs := stirs_enqueueRunnablePid True
    (((kernel.drop pid).drainQueuedSignals process).2.store pid (kernel.drained process)) pid
      process.assignedCpu
  rw [enqueueRunnablePid_eq] at stirs ⊢
  refine { Passes.refl cpu none kernel with
    activity := stirs.activity, current := stirs.current, processes := ?_, queue := ?_ }
  · intro other
    by_cases here : other = pid
    · subst here
      refine .inr ⟨process, found, own, elsewhere, ?_, ?_⟩
      · simp [store]
      · simp [store, drainQueuedSignals, own]
    · refine .inl ⟨?_, ?_⟩
      · simp [store, drop, drainQueuedSignals, update_of_ne here]
      · simp [store, drop, drainQueuedSignals, own, update_of_ne here]
  · exact fun other _ _ _ queued => stirs.queue _ other queued

section Queue

variable [UserSpaces μ] {kernel : Kernel μ}

/-- One turn of the loop. -/
theorem takeNext_cases (keyed : Keyed kernel) (cpu : Nat) (pid : Pid) :
    (∃ process, kernel.processes pid = some process ∧ process.assignedCpu = cpu ∧
      kernel.takeNextProcessForPid pid cpu =
        ((kernel.drop pid).drainQueuedSignals process).2.dispatchTaken
          (kernel.drained process) cpu) ∨
    ∃ after, kernel.takeNextProcessForPid pid cpu = (.skip, after) ∧
      Passes cpu none kernel after ∧ after.cpus cpu = kernel.cpus cpu ∧
      (kernel.processes pid).filter (fun process => process.assignedCpu = cpu) = none ∧
      (∀ process, kernel.processes pid = some process →
        pid ∈ (after.cpus process.assignedCpu).runQueue) := by
  unfold takeNextProcessForPid
  cases found : kernel.processes pid with
  | none => exact .inr ⟨kernel, rfl, .refl cpu none kernel, rfl, rfl, fun _ none => nomatch none⟩
  | some process =>
    by_cases here : process.assignedCpu = cpu
    · exact .inl ⟨process, rfl, here, if_neg (not_not.mpr here)⟩
    · refine .inr ⟨_, if_pos here, passes_forward found (keyed pid process found) here, ?_, ?_, ?_⟩
      · exact cpus_enqueueRunnablePid_of_ne _ _ (Ne.symm here)
      · simp [here]
      · rintro other ⟨⟩
        exact mem_runQueue_enqueueRunnablePid _ _ _

/-- What a processor finds in its queue: nothing for it, or its next process. -/
theorem takeLoop_cases (keyed : Keyed kernel) (cpu turns : Nat) :
    (∃ after, takeLoop cpu turns kernel = (.event, after) ∧ Passes cpu none kernel after ∧
      ((kernel.cpus cpu).runQueue.length ≤ turns → kernel.nextFor cpu = none)) ∨
    ∃ pid process middle, kernel.nextFor cpu = some process ∧
      kernel.processes pid = some process ∧ process.assignedCpu = cpu ∧
      Passes cpu (some pid) kernel middle ∧
      takeLoop cpu turns kernel = ((middle.drop pid).drainQueuedSignals process).2.dispatchTaken
          (middle.drained process) cpu := by
  induction turns generalizing kernel with
  | zero =>
    refine .inl ⟨kernel, rfl, .refl cpu none kernel, fun short => ?_⟩
    rw [nextFor, List.eq_nil_of_length_eq_zero (Nat.le_zero.mp short), List.findSome?_nil]
  | succ turns ih =>
    rw [takeLoop]
    dsimp only
    split
    · rename_i empty
      refine .inl ⟨kernel, rfl, .refl cpu none kernel, fun _ => ?_⟩
      rw [nextFor, empty, List.findSome?_nil]
    rename_i pid rest queue
    have pop := kernel.passes_pop cpu queue
    have shorter : ((kernel.setCpu cpu { kernel.cpus cpu with runQueue := rest }).cpus
        cpu).runQueue = rest := by
      simp [setCpu]
    generalize same : kernel.setCpu cpu { kernel.cpus cpu with runQueue := rest } = popped
      at pop shorter ⊢
    have unchanged : popped.processes = kernel.processes := by rw [← same]; rfl
    rcases takeNext_cases (pop.keyed keyed) cpu pid with
      ⟨process, found, here, taken⟩ | ⟨after, skip, passes, queued, notFor, back⟩
    · right
      rw [taken]
      refine ⟨pid, process, popped, ?_, unchanged ▸ found, here, pop, ?_⟩
      · rw [nextFor, queue, List.findSome?_cons, ← unchanged, found, filter_some,
          if_pos (by simpa using here)]
      · split
        · rename_i again stuck
          have done := dispatched ((popped.drop pid).drainQueuedSignals process).2
            (popped.drained process) cpu
          rw [stuck] at done
          cases done
        · rfl
    -- The head of the queue is passed over, and the loop goes on with the rest.
    · rw [skip]
      have turn : Passes cpu none kernel after := by
        have both := pop.trans passes fun _ apart => ⟨apart, by simp⟩
        refine { both with queue := fun other process found _ member => ?_ }
        by_cases head : other = pid
        · subst head
          exact back process (unchanged ▸ found)
        · exact both.queue other process found (by simpa using head) member
      have same : kernel.nextFor cpu = after.nextFor cpu := by
        rw [nextFor, nextFor, queue, List.findSome?_cons, ← unchanged, notFor, queued, shorter]
        simp only [turn.filter_processes, unchanged]
      rcases ih (turn.keyed keyed) with ⟨last, ended, more, nobody⟩ | ⟨next, process, middle, first,
        found, here, more, result⟩
      · refine .inl ⟨last, ended, turn.trans more fun _ apart => ⟨apart, apart⟩, fun short => ?_⟩
        rw [queue] at short
        rw [same, nobody (by rw [queued, shorter]; exact Nat.le_of_succ_le_succ short)]
      · refine .inr ⟨next, process, middle, same.trans first, ?_, here,
          turn.trans more fun _ apart => ⟨by simp, apart⟩, result⟩
        · have known := turn.filter_processes next
          rw [found, filter_some, if_pos (by simpa using here)] at known
          exact (filter_eq_some_iff.mp known.symm).1

end Queue

end Kernel

end AetherKernel.Sched
