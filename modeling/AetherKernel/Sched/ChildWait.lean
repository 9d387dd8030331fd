import AetherKernel.Sched.Journal

/-!
# Child events and the parents that wait for them

A parent looks for an event, finds none and blocks, in three uses of the lock.
The events that are queued in between are the danger; an event that comes later
ends the wait.
-/

namespace AetherKernel.Sched

open Lib Signal Std Function List

variable {μ : Type} {selector : WaitChildSelector} {options : BitVec 64} {event : ChildEvent}
  {before after : Kernel μ}

/-! ## What a wait asks for -/

/-- The event is of a kind that the options ask for, and the selector may be
for its process.  The process group of a child is not looked at. -/
def Asks (selector : WaitChildSelector) (options : BitVec 64) (event : ChildEvent) : Prop :=
  childEventMatchesOptions event.kind options ∧ match selector with
    | .any | .processGroup _ => True
    | .pid pid => event.pid = pid

theorem Kernel.asks_of_eventMatches {kernel : Kernel μ}
    (matching : kernel.eventMatches selector options event) : Asks selector options event := by
  simp only [Kernel.eventMatches, Bool.and_eq_true] at matching
  refine ⟨matching.2, ?_⟩
  cases selector with
  | any | processGroup => trivial
  | pid pid => simpa [Kernel.childMatchesWaitSelector] using matching.1

/-- The converse holds for waits that are not for a process group. -/
theorem Kernel.eventMatches_of_asks (kernel : Kernel μ) (asks : Asks selector options event)
    (ungrouped : ∀ group, selector ≠ .processGroup group) :
    kernel.eventMatches selector options event := by
  simp only [Kernel.eventMatches, Bool.and_eq_true]
  refine ⟨?_, asks.1⟩
  cases selector with
  | any => rfl
  | pid pid => simpa [Kernel.childMatchesWaitSelector] using asks.2
  | processGroup group => exact absurd rfl (ungrouped group)

/-- The wait of a call between its look at the queue and its block. -/
def Stage.watch : Stage → Option (WaitChildSelector × BitVec 64)
  | .childChecked wait selector | .childWaitable wait selector => some (selector, wait.options)
  | .blocking (.waitChild selector _ _ _ options) _ => some (selector, options)
  | _ => none

/-! ## Operations that tell parents -/

/-- Events come into a queue by being posted; a parent that is still blocked
afterwards has not been posted an event that it can be sure to ask for. -/
structure Tells (before after : Kernel μ) (events : List Event) : Prop where
  journal : after.journal = events ++ before.journal
  watch : ∀ pid process wait, after.processes pid = some process → process.state.watch = some wait →
    ∃ former, before.processes pid = some former ∧ former.state.watch = some wait
  queued : ∀ pid event, event ∈ after.childEvents pid →
    event ∈ before.childEvents pid ∨ .queued pid event ∈ events
  missed : ∀ pid process selector options event, after.processes pid = some process →
    process.state.watch = some (selector, options) → options &&& wnohang = 0 →
    event ∈ after.childEvents pid → Asks selector options event →
    event ∈ before.childEvents pid ∨
      .passed pid event ∈ events ∧ ∃ group, selector = .processGroup group

namespace Tells

variable {first second third : Kernel μ} {older newer : List Event}

theorem trans (earlier : Tells first second older) (later : Tells second third newer) :
    Tells first third (newer ++ older) where
  journal := by rw [later.journal, earlier.journal, append_assoc]
  watch pid process wait found watches := by
    obtain ⟨former, known, same⟩ := later.watch pid process wait found watches
    exact earlier.watch pid former wait known same
  queued pid event member := by
    rcases later.queued pid event member with member | fresh
    · rcases earlier.queued pid event member with member | fresh
      · exact .inl member
      · exact .inr (mem_append_right _ fresh)
    · exact .inr (mem_append_left _ fresh)
  missed pid process selector options event found watches patient member asks := by
    rcases later.missed pid process selector options event found watches patient member asks with
      member | ⟨passed, group⟩
    · obtain ⟨former, known, same⟩ := later.watch pid process _ found watches
      rcases earlier.missed pid former selector options event known same patient member asks with
        member | ⟨passed, group⟩
      · exact .inl member
      · exact .inr ⟨mem_append_right _ passed, group⟩
    · exact .inr ⟨mem_append_left _ passed, group⟩

end Tells

theorem Eased.watch {before after : KernelProcess} {wait : WaitChildSelector × BitVec 64}
    (eased : Eased before after) (watches : after.state.watch = some wait) :
    before.state.watch = some wait := by
  cases eased with
  | same state => rwa [← state]
  | woken state | moved _ state =>
    rw [state] at watches
    nomatch watches

/-- `Tells`, whatever the events are. -/
def Told (before after : Kernel μ) : Prop :=
  ∃ events, Tells before after events

theorem Told.trans {first second third : Kernel μ} (earlier : Told first second)
    (later : Told second third) : Told first third := by
  obtain ⟨older, one⟩ := earlier
  obtain ⟨newer, two⟩ := later
  exact ⟨newer ++ older, one.trans two⟩

/-- Nothing is posted. -/
theorem Told.of_watch (journal : before.journal <:+ after.journal)
    (watch : ∀ pid process wait, after.processes pid = some process →
      process.state.watch = some wait →
      ∃ former, before.processes pid = some former ∧ former.state.watch = some wait)
    (events : ∀ pid, after.childEvents pid ⊆ before.childEvents pid) : Told before after := by
  obtain ⟨new, same⟩ := journal
  exact ⟨new, same.symm, watch, fun pid _ member => .inl (events pid member),
    fun pid _ _ _ _ _ _ _ member _ => .inl (events pid member)⟩

theorem Told.of_eq (journal : before.journal <:+ after.journal)
    (processes : after.processes = before.processes)
    (childEvents : after.childEvents = before.childEvents) : Told before after := by
  refine .of_watch journal ?_ ?_
  · rw [processes]
    exact fun _ process _ found watches => ⟨process, found, watches⟩
  · rw [childEvents]
    exact fun _ => List.Subset.refl _

theorem Stirs.told {calm : Prop} (stirs : Stirs calm before after) : Told before after := by
  obtain ⟨events, journal, -⟩ := stirs.journal
  refine .of_watch ⟨events, journal.symm⟩ ?_ ?_
  · intro pid process wait found watches
    obtain ⟨former, known, touched⟩ := stirs.exists_origin found
    exact ⟨former, known, touched.eased.watch watches⟩
  · rw [stirs.childEvents]
    exact fun _ => List.Subset.refl _

namespace Kernel

variable {parent : Pid} {kernel : Kernel μ} {process : KernelProcess}

theorem mem_queueChildEvent {pid : Pid} {added : ChildEvent}
    (inside : added ∈ (kernel.queueChildEvent parent event).childEvents pid) :
    added ∈ kernel.childEvents pid ∨ pid = parent ∧ added = event := by
  by_cases here : pid = parent
  · subst here
    simp only [queueChildEvent, record, update_self, mem_append, mem_singleton] at inside
    exact inside.imp_right fun same => ⟨rfl, same⟩
  · simp only [queueChildEvent, record, update_of_ne here] at inside
    exact .inl inside

/-- A parent that is not blocked finds the event in its queue. -/
theorem tells_queueChildEvent (event : ChildEvent)
    (free : ∀ process, kernel.processes parent = some process → process.state.watch = none) :
    Tells kernel (kernel.queueChildEvent parent event) [.queued parent event] := by
  refine ⟨rfl, fun _ process _ found watches => ⟨process, found, watches⟩, ?_, ?_⟩
  · intro pid added inside
    rcases mem_queueChildEvent inside with old | ⟨rfl, rfl⟩
    · exact .inl old
    · exact .inr (mem_singleton.mpr rfl)
  · intro pid process selector options added found watches _ inside _
    rcases mem_queueChildEvent inside with old | ⟨rfl, rfl⟩
    · exact .inl old
    · nomatch (free process found).symm.trans watches

/-- A parent that is blocked for something else goes on waiting. -/
theorem tells_passed (found : kernel.processes parent = some process)
    (watches : process.state.watch = some (selector, options))
    (unmatched : options &&& wnohang = 0 → ¬kernel.eventMatches selector options event) :
    Tells kernel ((kernel.queueChildEvent parent event).record (.passed parent event))
      [.passed parent event, .queued parent event] := by
  refine ⟨rfl, fun _ process _ found watches => ⟨process, found, watches⟩, ?_, ?_⟩
  · intro pid added inside
    rcases mem_queueChildEvent inside with old | ⟨rfl, rfl⟩
    · exact .inl old
    · exact .inr (by simp)
  intro pid other wanted flags added known sees patient inside asks
  rcases mem_queueChildEvent inside with old | ⟨rfl, rfl⟩
  · exact .inl old
  cases found.symm.trans known
  cases watches.symm.trans sees
  refine .inr ⟨by simp, ?_⟩
  by_contra ungrouped
  exact unmatched patient (kernel.eventMatches_of_asks asks fun group same =>
    ungrouped ⟨group, same⟩)

theorem told_store (kernel : Kernel μ) (pid : Pid)
    (free : process.state.watch = none) : Told kernel (kernel.store pid process) := by
  refine .of_watch suffix_rfl ?_ fun _ => List.Subset.refl _
  intro other stored wait found watches
  rcases found_store found with ⟨-, rfl⟩ | ⟨-, found⟩
  · nomatch free.symm.trans watches
  · exact ⟨stored, found, watches⟩

theorem told_drop (kernel : Kernel μ) (pid : Pid) : Told kernel (kernel.drop pid) := by
  refine .of_watch suffix_rfl ?_ fun _ => List.Subset.refl _
  intro other stored wait found watches
  exact ⟨stored, (found_drop found).2, watches⟩

theorem told_mapProcesses (kernel : Kernel μ) {change : KernelProcess → KernelProcess}
    (signals : ∀ process, Resigned process (change process)) :
    Told kernel (kernel.mapProcesses change) := by
  refine .of_watch suffix_rfl ?_ fun _ => List.Subset.refl _
  intro pid process wait found watches
  obtain ⟨former, known, rfl⟩ := Option.map_eq_some_iff.mp found
  refine ⟨former, known, ?_⟩
  rw [signals former] at watches
  exact watches

theorem told_passes {cpu : Nat} {taken : Option Pid}
    (passes : Passes cpu taken before after) : Told before after := by
  refine .of_watch (passes.journal ▸ suffix_rfl) ?_ ?_
  · intro pid process wait found watches
    obtain ⟨former, known, same⟩ := passes.exists_origin found
    refine ⟨former, known, ?_⟩
    rw [same] at watches
    exact watches
  · rw [passes.childEvents]
    exact fun _ => List.Subset.refl _

theorem told_regroups (regroups : Regroups before after) : Told before after := by
  refine .of_watch ?_ ?_ ?_
  · rw [regroups.rest]
  · intro pid process wait found watches
    obtain ⟨former, known, group, rfl⟩ := regroups.exists_origin found
    exact ⟨former, known, watches⟩
  · rw [regroups.rest]
    exact fun _ => List.Subset.refl _

end Kernel

open Kernel in
theorem Kernel.tracks_told : Tracks (fun _ => True) (Told (μ := μ)) where
  trans _ _ _ := .trans
  stirs _ _ stirs := stirs.told
  aside _ _ aside := .of_eq (aside.journal ▸ suffix_rfl) aside.processes aside.childEvents
  count _ _ := .of_eq suffix_rfl rfl rfl
  notes _ _ notes := by
    obtain ⟨events, journal, -⟩ := notes.journal
    refine .of_watch ⟨events, journal.symm⟩ ?_ notes.childEvents
    rw [notes.processes]
    exact fun _ process _ found watches => ⟨process, found, watches⟩
  signal kernel pid info := (stirs_signalProcess kernel pid info).told
  hear _ _ _ _ := .of_eq suffix_rfl rfl rfl
  queue _ _ event free := ⟨_, tells_queueChildEvent event free⟩
  pass _ _ _ _ _ _ found watches unmatched := ⟨_, tells_passed found watches unmatched⟩
  woke _ _ _ _ _ _ := .of_eq (suffix_cons _ _) rfl rfl
  created _ _ := .of_eq (suffix_cons _ _) rfl rfl
  left _ _ := .of_eq (suffix_cons _ _) rfl rfl
  store _ _ runnable := told_store _ _ (congrArg ProcessState.watch runnable)
  drop := told_drop
  arm _ _ _ _ := .of_eq suffix_rfl rfl rfl
  exec kernel _ := told_mapProcesses kernel (resigned_shareActions _ _)
  turn _ _ _ _ := .of_eq suffix_rfl rfl rfl
  passes _ _ _ _ := told_passes
  regroups _ _ := told_regroups
  takePending kernel pid mask := by
    refine told_mapProcesses kernel fun process => ?_
    split <;> rfl

end AetherKernel.Sched
