import Mathlib.Data.List.AList

/-!
# Epoll instances

An epoll instance has a table of interests, by descriptor, and caches which of
them are ready: a table of ready events with a queue of their descriptors.
Waiters of a file are listeners with the events they wait for.

What `last_ready` and `last_token` of an interest record is never read, so the
two fields are left out.
-/

namespace AetherKernel

/-! ## Event sets -/

/-- The `u32` of `PollEvents`. -/
abbrev PollEvents :=
  BitVec 32

namespace PollEvents

def read : PollEvents := 1
def write : PollEvents := 2
def error : PollEvents := 4
def hup : PollEvents := 8
def invalid : PollEvents := 16
def rdhup : PollEvents := 32

/-- The events that are reported without being asked for. -/
def always : PollEvents :=
  error ||| hup ||| invalid ||| rdhup

def contains (events other : PollEvents) : Bool :=
  events &&& other == other

def intersects (events other : PollEvents) : Bool :=
  events &&& other != 0

end PollEvents

namespace Vfs

/-- The `u32` of `EpollEvents`. -/
abbrev EpollEvents :=
  BitVec 32

namespace EpollEvents

def input : EpollEvents := 0x001
def output : EpollEvents := 0x004
def err : EpollEvents := 0x008
def hup : EpollEvents := 0x010
def nval : EpollEvents := 0x020
def rdnorm : EpollEvents := 0x040
def rdband : EpollEvents := 0x080
def wrnorm : EpollEvents := 0x100
def wrband : EpollEvents := 0x200
def rdhup : EpollEvents := 0x2000
def oneshot : EpollEvents := 0x40000000
def edgeTriggered : EpollEvents := 0x80000000

/-- One of the bits of the flag is there. -/
def contains (events flag : EpollEvents) : Bool :=
  events &&& flag != 0

/-- A flag of the result where a condition holds. -/
def flagged (condition : Bool) (flag : BitVec 32) : BitVec 32 :=
  if condition then flag else 0

def toPollEvents (events : EpollEvents) : PollEvents :=
  flagged (contains events input || contains events rdnorm || contains events rdband)
      PollEvents.read |||
    flagged (contains events output || contains events wrnorm || contains events wrband)
      PollEvents.write |||
    flagged (contains events err) PollEvents.error |||
    flagged (contains events hup) PollEvents.hup |||
    flagged (contains events nval) PollEvents.invalid |||
    flagged (contains events rdhup) PollEvents.rdhup

def fromPollEvents (events : PollEvents) : EpollEvents :=
  flagged (events.contains PollEvents.read) input |||
    flagged (events.contains PollEvents.write) output |||
    flagged (events.contains PollEvents.error) err |||
    flagged (events.contains PollEvents.hup) hup |||
    flagged (events.contains PollEvents.invalid) nval |||
    flagged (events.contains PollEvents.rdhup) rdhup

end EpollEvents

structure EpollEvent where
  events : EpollEvents
  data : Nat
  deriving DecidableEq

inductive EpollCtlOp where
  | add
  | del
  | mod
  deriving DecidableEq

/-! ## The ready cache -/

/-- `EpollReadyState`. -/
structure EpollReadyState where
  events : AList fun _ : Nat => EpollEvents
  queue : List Nat

namespace EpollReadyState

def new : EpollReadyState :=
  ⟨∅, []⟩

variable (ready : EpollReadyState)

/-- The locked part of `mark_ready`, for events that are not empty, and whether
the waiters of the instance have to be told. -/
def markReady (fd : Nat) (events : EpollEvents) : EpollReadyState × Bool :=
  match ready.events.lookup fd with
  | some stored =>
    (⟨ready.events.insert fd (stored ||| events), ready.queue⟩, stored ||| events != stored)
  | none => (⟨ready.events.insert fd events, ready.queue ++ [fd]⟩, true)

/-- The loop of `take_ready`: pop descriptors until there are enough that are
in the table. -/
def takeLoop : Nat → List Nat → AList (fun _ : Nat => EpollEvents) →
    List (Nat × EpollEvents) × EpollReadyState
  | 0, queue, events => ([], ⟨events, queue⟩)
  | _ + 1, [], events => ([], ⟨events, []⟩)
  | wanted + 1, fd :: queue, events =>
    match events.lookup fd with
    | none => takeLoop (wanted + 1) queue events
    | some bits =>
      let (taken, ready) := takeLoop wanted queue (events.erase fd)
      ((fd, bits) :: taken, ready)

def takeReady (maxEvents : Nat) : List (Nat × EpollEvents) × EpollReadyState :=
  takeLoop maxEvents ready.queue ready.events

def hasPending : Bool :=
  !ready.events.entries.isEmpty

/-- What `ctl` does to the cache: the table forgets the descriptor, the queue
keeps it. -/
def forget (fd : Nat) : EpollReadyState :=
  { ready with events := ready.events.erase fd }

end EpollReadyState

/-! ## Interests -/

/-- An interest in a file of the type `F`. -/
structure EpollInterest (F : Type) where
  file : F
  event : EpollEvent
  waiterId : Option Nat
  disabled : Bool
  deriving DecidableEq

namespace EpollInterest

variable {F : Type} (interest : EpollInterest F)

def shouldRequeueLevelTriggered : Bool :=
  !interest.event.events.contains EpollEvents.oneshot &&
    !interest.event.events.contains EpollEvents.edgeTriggered

/-- The events an interest is polled for, and that its waiter waits for. -/
def pollEvents (events : EpollEvents) : PollEvents :=
  events.toPollEvents ||| PollEvents.always

/-- What `wait` makes of an interest that is ready: a one-shot interest is
disabled and loses its waiter. -/
def consumed : EpollInterest F :=
  if interest.event.events.contains EpollEvents.oneshot then
    { interest with waiterId := none, disabled := true }
  else interest

/-- The event that `wait` reports. -/
def reported (ready : EpollEvents) : EpollEvent :=
  ⟨ready ||| EpollEvents.flagged (interest.event.events.contains EpollEvents.oneshot)
    EpollEvents.oneshot, interest.event.data⟩

end EpollInterest

end AetherKernel.Vfs
