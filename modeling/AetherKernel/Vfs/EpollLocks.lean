import AetherKernel.Lib.Locks
import AetherKernel.Vfs.Epoll

/-!
# Locks of epoll

`epoll_ctl` and `epoll_wait` hold the lock of the open file of the instance and
the lock of its interests while they lock the files of the interests, and such
a file may be an epoll instance again.  The model runs these calls, `poll` and
the notifications of other files lock by lock, on any number of CPUs.

Open files, instances and descriptors are numbers; `kind` says which instance an
open file belongs to, if it is one.  The two locks inside a wait queue are held
only while its table is read or written, so those are single steps.
-/

namespace AetherKernel.Vfs

open Lib LockMachine

inductive EpollLock where
  | file (file : Nat)
  | interests (epoll : Nat)
  | ready (epoll : Nat)
  deriving DecidableEq

/-- Who has a wait queue: an instance, or a file that is none. -/
inductive WaitSource where
  | plain (file : Nat)
  | epoll (epoll : Nat)
  deriving DecidableEq

/-- A registration of an `EpollTargetListener`. -/
structure EpollRegistration where
  id : Nat
  events : PollEvents
  epoll : Nat
  fd : Nat
  deriving DecidableEq

inductive EpollEffect where
  | enterCtl (file : Nat) (op : EpollCtlOp) (fd target : Nat) (event : EpollEvent)
  | ctl (epoll : Nat) (op : EpollCtlOp) (fd target : Nat) (event : EpollEvent)
  | registerWaiter (epoll fd target : Nat) (events : PollEvents)
  | afterRegister (epoll fd target : Nat) (event : EpollEvent)
  | insertInterest (epoll fd target : Nat) (event : EpollEvent)
  | unregisterWaiter (file waiter : Nat)
  | forget (epoll fd : Nat)
  | poll (file : Nat) (events : PollEvents)
  | readPending (epoll : Nat)
  | markPolled (epoll fd : Nat)
  | store (epoll fd : Nat) (events : EpollEvents)
  | notifyStored (epoll : Nat)
  | enterWait (file maxEvents : Nat)
  | beginWait (epoll maxEvents : Nat)
  | takeMore (epoll maxEvents : Nat)
  | take (epoll wanted : Nat)
  | scan (epoll maxEvents : Nat)
  | each (epoll maxEvents : Nat)
  | settle (epoll maxEvents fd : Nat)
  | requeue (epoll : Nat)
  | change (file : Nat) (polled : Option PollEvents) (notified : PollEvents)
  deriving DecidableEq

abbrev EpollInstr :=
  Instr EpollLock EpollEffect

/-- The calls.  An operation on an open file may change what another file that
is not an instance answers to `poll`, and notifies its waiters. -/
inductive EpollCall where
  | ctl (file : Nat) (op : EpollCtlOp) (fd target : Nat) (event : EpollEvent)
  | wait (file maxEvents : Nat)
  | poll (file : Nat) (events : PollEvents)
  | operate (file changed : Nat) (polled : Option PollEvents) (notified : PollEvents)
  deriving DecidableEq

/-- The local variables of a call. -/
structure EpollLocals where
  polled : Option PollEvents
  registered : Option (Option Nat)
  shouldNotify : Bool
  taken : List Nat
  result : List EpollEvent
  requeue : List (Nat × EpollEvents)

def EpollLocals.new : EpollLocals :=
  ⟨none, none, false, [], [], []⟩

/-- What the calls share.  `polls` is what a file that is no instance answers to
`poll`, nothing where it fails, and `waits` how it answers a registration: it
fails, it has no queue, or it has one. -/
structure EpollWorld where
  interests : Nat → AList fun _ : Nat => EpollInterest Nat
  ready : Nat → EpollReadyState
  waiters : WaitSource → List EpollRegistration
  nextId : WaitSource → Nat
  polls : Nat → Option PollEvents
  waits : Nat → Option Bool
  locals : Nat → EpollLocals

namespace EpollWorld

abbrev Outcome :=
  Effected EpollLock EpollEffect EpollWorld

variable (world : EpollWorld)

def setLocals (t : Nat) (locals : EpollLocals) : EpollWorld :=
  { world with locals := Function.update world.locals t locals }

def setInterests (epoll : Nat) (interests : AList fun _ : Nat => EpollInterest Nat) : EpollWorld :=
  { world with interests := Function.update world.interests epoll interests }

def setReady (epoll : Nat) (ready : EpollReadyState) : EpollWorld :=
  { world with ready := Function.update world.ready epoll ready }

/-- An effect that inserts nothing. -/
def quiet : Outcome :=
  ⟨world, none, []⟩

/-- An effect that only inserts. -/
def inserting (code : List EpollInstr) : Outcome :=
  ⟨world, none, code⟩

/-- `mark_ready`. -/
def markReady (epoll fd : Nat) (events : EpollEvents) : List EpollInstr :=
  if events = 0 then []
  else critical (.ready epoll) [.run (.store epoll fd events)] ++ [.run (.notifyStored epoll)]

/-- `WaitQueue::notify`: wake the listeners whose events are among those
notified. -/
def notify (source : WaitSource) (events : PollEvents) : List EpollInstr :=
  (world.waiters source).flatMap fun registration =>
    if events &&& registration.events = 0 then []
    else markReady registration.epoll registration.fd
      (EpollEvents.fromPollEvents (events &&& registration.events))

/-- `unregister_interest_waiter`. -/
def unregisterInterestWaiter (interest : EpollInterest Nat) : List EpollInstr :=
  match interest.waiterId with
  | none => []
  | some waiter => critical (.file interest.file) [.run (.unregisterWaiter interest.file waiter)]

/-- `register_interest_waiter` and the insertion after it; an interest in no
event that can be polled has no waiter. -/
def registerInterest (epoll fd target : Nat) (event : EpollEvent) : List EpollInstr :=
  if event.events.toPollEvents = 0 then [.run (.insertInterest epoll fd target event)]
  else
    critical (.file target)
        [.run (.registerWaiter epoll fd target (EpollInterest.pollEvents event.events))] ++
      [.run (.afterRegister epoll fd target event)]

/-- `WaitQueue::register`. -/
def addWaiter (source : WaitSource) (registration : EpollRegistration) : EpollWorld :=
  { world with
    waiters := Function.update world.waiters source (world.waiters source ++ [registration])
    nextId := Function.update world.nextId source (registration.id + 1) }

/-- `WaitQueue::unregister`. -/
def removeWaiter (source : WaitSource) (waiter : Nat) : EpollWorld :=
  { world with
    waiters := Function.update world.waiters source
      ((world.waiters source).filter fun other => other.id ≠ waiter) }

variable (kind : Nat → Option Nat)

def source (file : Nat) : WaitSource :=
  match kind file with
  | some epoll => .epoll epoll
  | none => .plain file

/-- `EpollInstance::ctl`, with the lock of the interests held. -/
def ctl (t epoll : Nat) (op : EpollCtlOp) (fd target : Nat) (event : EpollEvent) : Outcome :=
  -- an interest in no event registers no waiter
  let fresh := world.setLocals t { world.locals t with registered := some none }
  match op, (world.interests epoll).lookup fd with
  | .add, some _ => world.quiet
  | .add, none => fresh.inserting (registerInterest epoll fd target event)
  | .mod, none => world.quiet
  | .mod, some old =>
    (fresh.setInterests epoll ((world.interests epoll).erase fd)).inserting
      (unregisterInterestWaiter old ++ critical (.ready epoll) [.run (.forget epoll fd)] ++
        registerInterest epoll fd target event)
  | .del, none => world.quiet
  | .del, some old =>
    (world.setInterests epoll ((world.interests epoll).erase fd)).inserting
      (unregisterInterestWaiter old ++ critical (.ready epoll) [.run (.forget epoll fd)])

/-- `register_waiter` of a file. -/
def registerWaiter (t epoll fd target : Nat) (events : PollEvents) : EpollWorld :=
  let id := world.nextId (source kind target)
  match if (kind target).isSome then some true else world.waits target with
  | none => world.setLocals t { world.locals t with registered := none }
  | some false => world.setLocals t { world.locals t with registered := some none }
  | some true =>
    (world.addWaiter (source kind target) ⟨id, events, epoll, fd⟩).setLocals t
      { world.locals t with registered := some (some id) }

/-- The rest of `register_interest_waiter`: the file is polled, and what is
ready is marked while its lock is still held. -/
def afterRegister (t epoll fd target : Nat) (event : EpollEvent) : Outcome :=
  match (world.locals t).registered with
  | none => world.quiet
  | some _ =>
    world.inserting (critical (.file target)
        [.run (.poll target (EpollInterest.pollEvents event.events)),
          .run (.markPolled epoll fd)] ++
      [.run (.insertInterest epoll fd target event)])

def insertInterest (t epoll fd target : Nat) (event : EpollEvent) : EpollWorld :=
  world.setInterests epoll ((world.interests epoll).insert fd
    ⟨target, event, (world.locals t).registered.join, false⟩)

/-- `poll` of an open file; an instance looks whether something is pending. -/
def poll (t file : Nat) (events : PollEvents) : Outcome :=
  match kind file with
  | some epoll =>
    if events.contains PollEvents.read then
      world.inserting (critical (.ready epoll) [.run (.readPending epoll)])
    else (world.setLocals t { world.locals t with polled := some 0 }).quiet
  | none =>
    (world.setLocals t { world.locals t with
      polled := (world.polls file).map fun ready => ready &&& events }).quiet

def readPending (t epoll : Nat) : EpollWorld :=
  world.setLocals t { world.locals t with
    polled := some (if (world.ready epoll).hasPending then PollEvents.read else 0) }

/-- The descriptors that `wait` took and has not looked at yet. -/
def each (world : EpollWorld) (t epoll maxEvents : Nat) : Outcome :=
  match (world.locals t).taken with
  | [] => world.quiet
  | fd :: rest =>
    let world := world.setLocals t { world.locals t with taken := rest }
    match (world.interests epoll).lookup fd with
    | none => world.inserting [.run (.each epoll maxEvents)]
    | some interest =>
      if interest.disabled then world.inserting [.run (.each epoll maxEvents)]
      else
        world.inserting (critical (.file interest.file)
            [.run (.poll interest.file (EpollInterest.pollEvents interest.event.events))] ++
          [.run (.settle epoll maxEvents fd)])

/-- What `wait` does with an interest it has polled. -/
def settle (t epoll maxEvents fd : Nat) : Outcome :=
  match (world.interests epoll).lookup fd, (world.locals t).polled with
  | some interest, some polled =>
    let ready := EpollEvents.fromPollEvents polled
    if ready = 0 then world.inserting [.run (.each epoll maxEvents)]
    else
      let locals := world.locals t
      let result := locals.result ++ [interest.reported ready]
      let requeue := if interest.shouldRequeueLevelTriggered then locals.requeue ++ [(fd, ready)]
        else locals.requeue
      ((world.setInterests epoll ((world.interests epoll).insert fd interest.consumed)).setLocals t
          { locals with result := result, requeue := requeue }).inserting
        ((if interest.event.events.contains EpollEvents.oneshot then
            unregisterInterestWaiter interest
          else []) ++
          if maxEvents ≤ result.length then [] else [.run (.each epoll maxEvents)])
  | _, _ => world.inserting [.run (.each epoll maxEvents)]

/-- One effect of a call. -/
def perform (t : Nat) (effect : EpollEffect) (_ : EpollLock → Option Nat) (world : EpollWorld) :
    Option Outcome :=
  match effect with
  | .enterCtl file op fd target event =>
    match kind file with
    | none => some world.quiet
    | some epoll =>
      some (world.inserting (critical (.interests epoll) [.run (.ctl epoll op fd target event)]))
  | .ctl epoll op fd target event => some (world.ctl t epoll op fd target event)
  | .registerWaiter epoll fd target events =>
    some (world.registerWaiter kind t epoll fd target events).quiet
  | .afterRegister epoll fd target event => some (world.afterRegister t epoll fd target event)
  | .insertInterest epoll fd target event =>
    some (world.insertInterest t epoll fd target event).quiet
  | .unregisterWaiter file waiter => some (world.removeWaiter (source kind file) waiter).quiet
  | .forget epoll fd => some (world.setReady epoll ((world.ready epoll).forget fd)).quiet
  | .poll file events => some (world.poll kind t file events)
  | .readPending epoll => some (world.readPending t epoll).quiet
  | .markPolled epoll fd =>
    some (world.inserting (match (world.locals t).polled with
      | none => []
      | some polled => markReady epoll fd (EpollEvents.fromPollEvents polled)))
  | .store epoll fd events =>
    let (ready, changed) := (world.ready epoll).markReady fd events
    some ((world.setReady epoll ready).setLocals t
      { world.locals t with shouldNotify := changed }).quiet
  | .notifyStored epoll =>
    some (world.inserting (if (world.locals t).shouldNotify then
      world.notify (.epoll epoll) PollEvents.read else []))
  | .enterWait file maxEvents =>
    match kind file with
    | none => some world.quiet
    | some epoll =>
      if maxEvents = 0 then some world.quiet
      else
        some ((world.setLocals t EpollLocals.new).inserting
          (critical (.ready epoll) [.run (.readPending epoll)] ++
            [.run (.beginWait epoll maxEvents)]))
  | .beginWait epoll maxEvents =>
    some (world.inserting (if (world.locals t).polled = some 0 then []
      else [.run (.takeMore epoll maxEvents)]))
  | .takeMore epoll maxEvents =>
    some (world.inserting (if (world.locals t).result.length < maxEvents then
      critical (.ready epoll) [.run (.take epoll (maxEvents - (world.locals t).result.length))] ++
        [.run (.scan epoll maxEvents)]
      else [.run (.requeue epoll)]))
  | .take epoll wanted =>
    let (taken, ready) := (world.ready epoll).takeReady wanted
    some ((world.setReady epoll ready).setLocals t
      { world.locals t with taken := taken.map Prod.fst }).quiet
  | .scan epoll maxEvents =>
    some (world.inserting (if (world.locals t).taken = [] then [.run (.requeue epoll)]
      else critical (.interests epoll) [.run (.each epoll maxEvents)] ++
        [.run (.takeMore epoll maxEvents)]))
  | .each epoll maxEvents => some (world.each t epoll maxEvents)
  | .settle epoll maxEvents fd => some (world.settle t epoll maxEvents fd)
  | .requeue epoll =>
    some (world.inserting ((world.locals t).requeue.flatMap fun entry =>
      markReady epoll entry.1 entry.2))
  | .change file polled notified =>
    let world := { world with polls := Function.update world.polls file polled }
    some (world.inserting (world.notify (.plain file) notified))

end EpollWorld

def EpollCall.code : EpollCall → List EpollInstr
  | .ctl file op fd target event =>
    critical (.file file) [.run (.enterCtl file op fd target event)]
  | .wait file maxEvents => critical (.file file) [.run (.enterWait file maxEvents)]
  | .poll file events => critical (.file file) [.run (.poll file events)]
  | .operate file changed polled notified =>
    critical (.file file) [.run (.change changed polled notified)]

end AetherKernel.Vfs
