import AetherKernel.Vfs.EpollLocks

/-!
# The order of the locks of epoll

If the instances can be numbered so that every watched instance has a smaller
number than the one that watches it, the calls take their locks in a falling
order: the open file of an instance, its interests, the files it watches, and
the ready caches last.  Without such a numbering an instance waits for itself.
-/

namespace AetherKernel.Vfs

open Lib LockMachine Relation Function Option Balanced EpollWorld Above EpollEvents

abbrev EpollMachine :=
  LockMachine Nat EpollLock EpollEffect EpollWorld

namespace EpollMachine

section Levels

variable (kind : Nat → Option Nat) (level : Nat → Nat)

/-- A file that the instance may watch: none of the instances with its number or
a larger one. -/
def Under (file epoll : Nat) : Prop :=
  ∀ watched, kind file = some watched → level watched < level epoll

def weight : EpollLock → Nat
  | .file file => ((kind file).map fun epoll => 2 * level epoll + 4).getD 2
  | .interests epoll => 2 * level epoll + 3
  | .ready _ => 0

/-- The least weight of the locks held where an effect runs. -/
def floor : EpollEffect → Nat
  | .enterCtl file _ _ _ _ | .enterWait file _ => weight kind level (.file file)
  | .ctl epoll _ _ _ _ | .afterRegister epoll _ _ _ | .each epoll _ | .settle epoll _ _ =>
    weight kind level (.interests epoll)
  | .beginWait epoll _ | .takeMore epoll _ | .scan epoll _ =>
    weight kind level (.interests epoll) + 1
  | .poll _ _ | .markPolled _ _ | .notifyStored _ | .requeue _ | .change _ _ _ => 1
  | .registerWaiter _ _ _ _ | .insertInterest _ _ _ _ | .unregisterWaiter _ _ | .forget _ _
  | .readPending _ | .store _ _ _ | .take _ _ => 0

/-- The effects on the way to a new interest are about files that may be
watched. -/
def Fair : EpollEffect → Prop
  | .afterRegister epoll _ target _ | .insertInterest epoll _ target _ =>
    Under kind level target epoll
  | _ => True

def Admits (effect : EpollEffect) (held : Set EpollLock) : Prop :=
  Above (weight kind level) (floor kind level effect) held ∧ Fair kind level effect

/-- Every interest is in a file that may be watched. -/
def Ranked (world : EpollWorld) : Prop :=
  ∀ epoll fd interest, (world.interests epoll).lookup fd = some interest →
    Under kind level interest.file epoll

def Step (m : EpollMachine) (label : Move Nat EpollCall) (after : EpollMachine) : Prop :=
  m.move (perform kind) EpollCall.code label = some after

/-- The call inserts an interest: it adds one that there is not, or modifies one
that there is. -/
def Inserts (world : EpollWorld) (epoll : Nat) (op : EpollCtlOp) (fd : Nat) : Prop :=
  match op with
  | .add => (world.interests epoll).lookup fd = none
  | .mod => (world.interests epoll).lookup fd ≠ none
  | .del => False

/-- An interest is inserted only to watch a file that is no instance, or an instance
with a smaller number.  This is also asked of an interest in no event: a late
notification for its descriptor lets `wait` poll the file. -/
def Layered (m : EpollMachine) : Move Nat EpollCall → Prop
  | .begins _ _ => True
  | .goes t => ∀ epoll op fd target event rest,
      m.todo t = .run (.ctl epoll op fd target event) :: rest →
      Inserts m.shared epoll op fd → Under kind level target epoll

end Levels

variable (polls : Nat → Option PollEvents) {kind : Nat → Option Nat} {level : Nat → Nat}
  {held : Set EpollLock} {world : EpollWorld} {file epoll : Nat} {effect : EpollEffect}

/-- No interests, nothing ready, and no call going on. -/
def start (waits : Nat → Option Bool) : EpollMachine :=
  ⟨⟨fun _ => ∅, fun _ => .new, fun _ => [], fun _ => 1, polls, waits, fun _ => .new⟩,
    fun _ => none, fun _ => []⟩

theorem file_lighter (under : Under kind level file epoll) :
    weight kind level (.file file) < weight kind level (.interests epoll) := by
  cases same : kind file with
  | none => simp [weight, same]
  | some watched =>
    have smaller := under watched same
    simp only [weight, same, map_some, getD_some]
    omega

theorem file_positive (file : Nat) : 1 < weight kind level (.file file) := by
  cases same : kind file <;> simp [weight, same]

theorem interests_lighter (level : Nat → Nat) (same : kind file = some epoll) :
    weight kind level (.interests epoll) < weight kind level (.file file) := by
  simp [weight, same]

/-! ## Code that falls -/

abbrev Falling (kind : Nat → Option Nat) (level : Nat → Nat) :
    Set EpollLock → List EpollInstr → Prop :=
  Balanced (Admits kind level) (Falls (weight kind level))

theorem falling_run (above : Above (weight kind level) (floor kind level effect) held)
    (fair : Fair kind level effect) : Falling kind level held [.run effect] :=
  run ⟨above, fair⟩

/-- A ready cache may be locked wherever no other one is. -/
theorem falling_ready (above : Above (weight kind level) 1 held) (low : floor kind level effect = 0)
    (fair : Fair kind level effect) :
    Falling kind level held (critical (.ready epoll) [.run effect]) := by
  have light : weight kind level (.ready epoll) < 1 := Nat.zero_lt_one
  apply above.critical light
  apply falling_run _ fair
  rw [low]
  exact fun _ _ => Nat.zero_le _

theorem falling_markReady (above : Above (weight kind level) 1 held) (epoll fd : Nat)
    (events : EpollEvents) : Falling kind level held (markReady epoll fd events) := by
  unfold markReady
  split
  · exact nil
  · apply append
    · exact falling_ready above rfl trivial
    · exact falling_run above trivial

theorem falling_notify (above : Above (weight kind level) 1 held) (source : WaitSource)
    (events : PollEvents) : Falling kind level held (world.notify source events) := by
  apply flatMap
  intro registration _
  split
  · exact nil
  · exact falling_markReady above _ _ _

variable {interest : EpollInterest Nat} {fd target : Nat} {event : EpollEvent}

theorem falling_insert (under : Under kind level target epoll) :
    Falling kind level held [.run (.insertInterest epoll fd target event)] :=
  falling_run (fun _ _ => Nat.zero_le _) under

variable (above : Above (weight kind level) (weight kind level (.interests epoll)) held)

include above

/-- A watched file may be locked with the lock of the interests. -/
theorem falling_watched {body : List EpollInstr} (under : Under kind level file epoll)
    (balanced : Falling kind level (insert (.file file) held) body) :
    Falling kind level held (critical (.file file) body) :=
  above.critical (file_lighter under) balanced

theorem above_watched (under : Under kind level file epoll) :
    Above (weight kind level) 1 (insert (.file file) held) :=
  (above.insert (file_lighter under)).mono (file_positive file).le

theorem falling_unregister (under : Under kind level interest.file epoll) :
    Falling kind level held (unregisterInterestWaiter interest) := by
  unfold unregisterInterestWaiter
  split
  · exact nil
  · apply falling_watched above under
    exact falling_run (fun _ _ => Nat.zero_le _) trivial

theorem falling_register (under : Under kind level target epoll) (fd : Nat) (event : EpollEvent) :
    Falling kind level held (registerInterest epoll fd target event) := by
  unfold registerInterest
  split
  · exact falling_insert under
  · apply append
    · apply falling_watched above under
      exact falling_run (fun _ _ => Nat.zero_le _) trivial
    · exact falling_run above under

omit above

/-! ## What the effects leave -/

/-- What an effect leaves for the next one. -/
structure Left (kind : Nat → Option Nat) (level : Nat → Nat) (held : Set EpollLock)
    (outcome : EpollWorld.Outcome) : Prop where
  takes : outcome.takes = none
  ranked : Ranked kind level outcome.shared
  falling : Falling kind level held outcome.inserts

variable (ranked : Ranked kind level world)
include ranked

theorem Left.quiet : Left kind level held world.quiet :=
  ⟨rfl, ranked, nil⟩

theorem Ranked.erase (epoll fd : Nat) :
    Ranked kind level (world.setInterests epoll ((world.interests epoll).erase fd)) := by
  intro other entry interest found
  by_cases same : other = epoll
  · subst same
    simp only [setInterests, update_self] at found
    by_cases erased : entry = fd
    · subst erased
      rw [AList.lookup_erase] at found
      nomatch found
    · rw [AList.lookup_erase_ne erased] at found
      exact ranked _ _ _ found
  · simp only [setInterests, update_of_ne same] at found
    exact ranked _ _ _ found

theorem Ranked.insert (fd : Nat) (under : Under kind level interest.file epoll) :
    Ranked kind level (world.setInterests epoll ((world.interests epoll).insert fd interest)) := by
  intro other entry listed found
  by_cases same : other = epoll
  · subst same
    simp only [setInterests, update_self] at found
    by_cases inserted : entry = fd
    · subst inserted
      rw [AList.lookup_insert] at found
      cases found
      exact under
    · rw [AList.lookup_insert_ne inserted] at found
      exact ranked _ _ _ found
  · simp only [setInterests, update_of_ne same] at found
    exact ranked _ _ _ found

variable {t maxEvents : Nat} {events : PollEvents} {m : EpollMachine}

theorem poll_left (above : Above (weight kind level) 1 held) :
    Left kind level held (world.poll kind t file events) := by
  unfold poll
  split
  · split
    · exact ⟨rfl, ranked, falling_ready above rfl trivial⟩
    · exact Left.quiet ranked
  · exact Left.quiet ranked

include above

theorem ctl_left {op : EpollCtlOp}
    (fair : Inserts world epoll op fd → Under kind level target epoll) :
    Left kind level held (world.ctl t epoll op fd target event) := by
  have forgets : Falling kind level held (critical (.ready epoll) [.run (.forget epoll fd)]) :=
    falling_ready (above.mono (Nat.le_add_left 1 _)) rfl trivial
  unfold ctl
  cases op with
  | add =>
    cases listed : (world.interests epoll).lookup fd with
    | none => exact ⟨rfl, ranked, falling_register above (fair listed) fd event⟩
    | some old => exact Left.quiet ranked
  | mod =>
    cases listed : (world.interests epoll).lookup fd with
    | none => exact Left.quiet ranked
    | some old =>
      have inserts : Inserts world epoll .mod fd := ne_none_iff_exists'.mpr ⟨old, listed⟩
      refine ⟨rfl, ranked.erase epoll fd, append (append ?_ forgets) ?_⟩
      · exact falling_unregister above (ranked _ _ _ listed)
      · exact falling_register above (fair inserts) fd event
  | del =>
    cases listed : (world.interests epoll).lookup fd with
    | none => exact Left.quiet ranked
    | some old =>
      refine ⟨rfl, ranked.erase epoll fd, append ?_ forgets⟩
      exact falling_unregister above (ranked _ _ _ listed)

theorem afterRegister_left (under : Under kind level target epoll) :
    Left kind level held (world.afterRegister t epoll fd target event) := by
  unfold afterRegister
  split
  · exact Left.quiet ranked
  refine ⟨rfl, ranked, append (falling_watched above under ?_) (falling_insert under)⟩
  have inside := above_watched above under
  rw [← List.singleton_append]
  apply append
  all_goals exact falling_run inside trivial

theorem each_left : Left kind level held (world.each t epoll maxEvents) := by
  have next : Falling kind level held [.run (.each epoll maxEvents)] := falling_run above trivial
  unfold each
  split
  · exact Left.quiet ranked
  dsimp only
  split
  · exact ⟨rfl, ranked, next⟩
  rename_i interest listed
  have under := ranked _ _ _ listed
  split
  · exact ⟨rfl, ranked, next⟩
  · refine ⟨rfl, ranked, append (falling_watched above under ?_) ?_⟩
    · exact falling_run (above_watched above under) trivial
    · exact falling_run above trivial

theorem settle_left : Left kind level held (world.settle t epoll maxEvents fd) := by
  have next : Falling kind level held [.run (.each epoll maxEvents)] := falling_run above trivial
  unfold settle
  split
  · rename_i interest polled listed _
    have under := ranked _ _ _ listed
    dsimp only
    split
    · exact ⟨rfl, ranked, next⟩
    refine ⟨rfl, ?_, append ?_ ?_⟩
    · have kept : Under kind level interest.consumed.file epoll := by
        unfold EpollInterest.consumed
        split <;> exact under
      exact ranked.insert fd kept
    · split
      · exact falling_unregister above under
      · exact nil
    · split
      · exact nil
      · exact next
  · exact ⟨rfl, ranked, next⟩

omit above

/-- Every effect that is admitted inserts falling code, and keeps the interests
ranked. -/
theorem perform_left {owner : EpollLock → Option Nat} {outcome : EpollWorld.Outcome}
    (admitted : Admits kind level effect held)
    (layered : ∀ epoll op fd target event, effect = .ctl epoll op fd target event →
      Inserts world epoll op fd → Under kind level target epoll)
    (performed : perform kind t effect owner world = some outcome) :
    Left kind level held outcome := by
  rcases admitted with ⟨above, fair⟩
  cases effect with
  | enterCtl file op fd target event =>
    cases same : kind file with
    | none =>
      simp only [perform, same, Option.some.injEq] at performed
      subst performed
      exact Left.quiet ranked
    | some epoll =>
      simp only [perform, same, Option.some.injEq] at performed
      subst performed
      have lighter := interests_lighter level same
      refine ⟨rfl, ranked, critical above lighter ?_⟩
      exact falling_run (insert above lighter) trivial
  | ctl epoll op fd target event =>
    cases performed
    exact ctl_left above ranked (layered _ _ _ _ _ rfl)
  | registerWaiter epoll fd target events =>
    cases performed
    apply Left.quiet
    unfold registerWaiter
    split <;> exact ranked
  | afterRegister epoll fd target event =>
    cases performed
    exact afterRegister_left above ranked fair
  | insertInterest epoll fd target event =>
    cases performed
    have under := fair
    exact Left.quiet (ranked.insert fd under)
  | unregisterWaiter | forget | readPending | store | take =>
    cases performed
    exact Left.quiet ranked
  | poll file events =>
    cases performed
    exact poll_left ranked above
  | markPolled epoll fd =>
    cases performed
    refine ⟨rfl, ranked, ?_⟩
    split
    · exact nil
    · exact falling_markReady above _ _ _
  | notifyStored epoll =>
    cases performed
    refine ⟨rfl, ranked, ?_⟩
    split
    · exact falling_notify above _ _
    · exact nil
  | enterWait file maxEvents =>
    cases same : kind file with
    | none =>
      simp only [perform, same, Option.some.injEq] at performed
      subst performed
      exact Left.quiet ranked
    | some epoll =>
      simp only [perform, same] at performed
      have lighter := interests_lighter level same
      split at performed <;> cases performed
      · exact Left.quiet ranked
      · refine ⟨rfl, ranked, append ?_ ?_⟩
        · exact falling_ready (mono above (file_positive file).le) rfl trivial
        · exact falling_run (mono above lighter) trivial
  | beginWait epoll maxEvents =>
    cases performed
    refine ⟨rfl, ranked, ?_⟩
    split
    · exact nil
    · exact falling_run above trivial
  | takeMore epoll maxEvents =>
    cases performed
    refine ⟨rfl, ranked, ?_⟩
    have positive := mono above (Nat.le_add_left 1 _)
    split
    · apply append
      · exact falling_ready positive rfl trivial
      · exact falling_run above trivial
    · exact falling_run positive trivial
  | scan epoll maxEvents =>
    cases performed
    refine ⟨rfl, ranked, ?_⟩
    split
    · exact falling_run (mono above (Nat.le_add_left 1 _)) trivial
    · apply append
      · have lighter := Nat.lt_succ_self (weight kind level (.interests epoll))
        apply critical above lighter
        exact falling_run (insert above lighter) trivial
      · exact falling_run above trivial
  | each epoll maxEvents =>
    cases performed
    exact each_left above ranked
  | settle epoll maxEvents fd =>
    cases performed
    exact settle_left above ranked
  | requeue epoll =>
    cases performed
    refine ⟨rfl, ranked, flatMap fun entry _ => ?_⟩
    exact falling_markReady above _ _ _
  | change file polled notified =>
    cases performed
    exact ⟨rfl, ranked, falling_notify above _ _⟩

/-! ## Runs -/

omit ranked

/-- The code of every call is in order. -/
theorem code_ordered (call : EpollCall) :
    Ordered (Admits kind level) (Falls (weight kind level)) ∅ call.code := by
  have enters {file : Nat} {effect : EpollEffect}
      (low : floor kind level effect ≤ weight kind level (.file file))
      (fair : Fair kind level effect) :
      Ordered (Admits kind level) (Falls (weight kind level)) ∅
        (critical (.file file) [.run effect]) := by
    have inside : Above (weight kind level) (weight kind level (.file file))
        (insert (.file file) ∅) :=
      insert above_empty (Nat.lt_succ_self _)
    apply ordered
    apply critical above_empty (Nat.lt_succ_self _)
    exact falling_run (inside.mono low) fair
  cases call with
  | ctl | wait => exact enters le_rfl trivial
  | poll file | operate file => exact enters (file_positive file).le trivial

/-- The invariant of the machine. -/
structure Steady (kind : Nat → Option Nat) (level : Nat → Nat) (m : EpollMachine) : Prop where
  ranked : Ranked kind level m.shared
  inOrder : m.InOrder (Admits kind level) (Falls (weight kind level))

theorem steady_start (waits : Nat → Option Bool) : Steady kind level (start polls waits) :=
  ⟨nofun, inOrder_idle _⟩

theorem Steady.moves {after : EpollMachine} {label : Move Nat EpollCall}
    (steady : Steady kind level m)
    (guarded : Guarded (Layered kind level) (Step kind) m label after) :
    Steady kind level after := by
  rcases guarded with ⟨layered, moves⟩
  have next := steady.inOrder.moves (Ranked kind level) steady.ranked
    (fun t call _ => code_ordered call) (fun t goes => ?_) moves
  · exact ⟨next.1, next.2⟩
  · subst goes
    intro effect rest outcome work performed admitted
    have left := perform_left steady.ranked admitted
      (fun epoll op fd target event same => layered epoll op fd target event rest (same ▸ work))
      performed
    refine ⟨left.ranked, fun ordered => ?_⟩
    rw [left.takes, takenWith_none]
    exact left.falling rest ordered

/-- Where the watched instances can be numbered below those that watch them, no
call waits for a lock it holds, and no calls wait for each other in a circle. -/
theorem epoll_calls_do_not_deadlock {polls : Nat → Option PollEvents} {waits : Nat → Option Bool}
    {labels : List (Move Nat EpollCall)} {m : EpollMachine}
    (run : Run (Guarded (Layered kind level) (Step kind)) (start polls waits) labels m) :
    (∀ call name, ¬m.WaitsForItself call name) ∧ ∀ call, ¬TransGen m.WaitsFor call call := by
  have preserved (state : EpollMachine) (label : Move Nat EpollCall) (next : EpollMachine)
      (steady : Steady kind level state)
      (moves : Guarded (Layered kind level) (Step kind) state label next) :
      Steady kind level next := steady.moves moves
  have steady := run.invariant preserved (steady_start polls waits)
  constructor
  · rintro call name ⟨holds, asks⟩
    exact steady.inOrder.not_waits_self falls_acyclic holds asks
  · exact steady.inOrder.no_circle falls_acyclic

/-- The files 0 and 1 are instances with their own numbers. -/
def twoInstances (file : Nat) : Option Nat :=
  if file < 2 then some file else none

/-- No file is ready, and all have a wait queue. -/
def silent : EpollMachine :=
  start (fun _ => some 0) fun _ => some true

/-- The instance 1 watches the instance 0, which then watches a file.  The file
becomes readable, and a wait on the instance 1 follows. -/
def nested : List (Move Nat EpollCall) :=
  .begins 0 (.ctl 1 .add 5 0 ⟨input, 7⟩) :: List.replicate 18 (.goes 0) ++
    .begins 0 (.ctl 0 .add 6 2 ⟨input, 8⟩) :: List.replicate 15 (.goes 0) ++
    .begins 0 (.operate 3 2 (some PollEvents.read) PollEvents.read) ::
      List.replicate 11 (.goes 0) ++
    .begins 0 (.wait 1 4) :: List.replicate 33 (.goes 0)

/-- The guard of a move as a check, where the number of an instance is its
level. -/
def layers (m : EpollMachine) : Move Nat EpollCall → Bool
  | .begins _ _ => true
  | .goes t =>
    match m.todo t with
    | .run (.ctl epoll _ _ target _) :: _ => target < epoll || 2 ≤ target
    | _ => true

theorem layers_sound (m : EpollMachine) (label : Move Nat EpollCall) (checked : layers m label) :
    Layered twoInstances id m label := by
  cases label with
  | begins => trivial
  | goes t =>
    intro epoll op fd target event rest work _ watched watches
    have here : target < epoll ∨ 2 ≤ target := by simpa [layers, work] using checked
    simp only [twoInstances, ite_none_right_eq_some, Option.some.injEq] at watches
    simp only [id]
    omega

theorem epoll_calls_do_not_deadlock_nested :
    ∃ m, Run (Guarded (Layered twoInstances id) (Step twoInstances)) silent nested m ∧
      (m.shared.locals 0).result = [⟨input, 7⟩] ∧
      ∀ call, ¬TransGen m.WaitsFor call call := by
  have executed : (nested.foldlM (fun state label =>
      if layers state label then state.move (perform twoInstances) EpollCall.code label
      else none) silent).map (fun m => (m.shared.locals 0).result) =
        some [⟨input, 7⟩] := by
    rfl
  rcases map_eq_some_iff.mp executed with ⟨m, moved, result⟩
  have run := guarded_of_foldlM layers_sound moved
  exact ⟨m, run, result, (epoll_calls_do_not_deadlock run).2⟩

/-- The instance 0 is asked to watch itself. -/
def watchesItself : List (Move Nat EpollCall) :=
  .begins 0 (.ctl 0 .add 5 0 ⟨input, 7⟩) :: List.replicate 4 (.goes 0)

/-- The call holds the lock of the open file of the instance and asks for it
again, to register the new interest.  It never gets it. -/
theorem watching_itself_waits_for_itself : ∃ m, Run (Step twoInstances) silent watchesItself m ∧
      ∀ later last, Run (Step twoInstances) m later last → last.WaitsForItself 0 (.file 0) := by
  have executed : (watchesItself.foldlM (fun (state : EpollMachine) label =>
      state.move (perform twoInstances) EpollCall.code label) silent).map
        (fun m => (m.owner (.file 0), m.wants 0)) = some (some 0, some (EpollLock.file 0)) := by
    rfl
  rcases map_eq_some_iff.mp executed with ⟨m, moved, waiting⟩
  refine ⟨m, run_of_foldlM moved, fun later last run => ?_⟩
  have waits : m.WaitsForItself 0 (.file 0) :=
    ⟨congrArg Prod.fst waiting, congrArg Prod.snd waiting⟩
  exact waits.run run

end EpollMachine

end AetherKernel.Vfs
