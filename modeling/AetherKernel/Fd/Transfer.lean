import AetherKernel.Fd.Stream
import AetherKernel.Fd.UserMemory

/-!
# Reading and writing streams

`read`, `readv`, `recvfrom`, `write` and `writev` on a pipe, a terminal or a
socket.  A call is a row of transfers; between two of them the far end may do
anything to the stream.  A call that would block waits and is then started
from its beginning.
-/

namespace AetherKernel.Fd

open Lib ByteStream

/-- `isize::MAX`. -/
def isizeMax : Nat := 2 ^ 63 - 1

/-- One exchange with the stream. -/
inductive Transfer where
  /-- Take up to `want` bytes and store them into the segments; `recvfrom` may
  peek, and may be asked to store the length of the sender's address. -/
  | receive (want : Nat) (segments : List UserIoVec) (peek : Bool) (addressLen : Option Nat)
  /-- Copy `len` bytes from user memory and put them into the stream. -/
  | send (base len : Nat)
  deriving DecidableEq

inductive Call where
  | read (address len : Nat)
  | readv (iov iovcnt : Nat)
  | recvfrom (address len : Nat) (peek : Bool) (source sourceLen : Nat)
  | write (address len : Nat)
  | writev (iov iovcnt : Nat)
  deriving DecidableEq

variable {M : Type} [UserMemory M]

namespace Call

/-- The segments a call works on. -/
def segments (call : Call) (memory : M) : Except SysErr (List UserIoVec) :=
  match call with
  | .read address len | .recvfrom address len _ _ _ | .write address len => .ok [⟨address, len⟩]
  | .readv iov iovcnt | .writev iov iovcnt => readIovecArray memory iov (min iovcnt iovMax)

/-- The transfers of `readv`: a socket fills all segments at once, a file one
after the other. -/
def readvTransfers (socket : Bool) (segments : List UserIoVec) : Except SysErr (List Transfer) :=
  if socket then
    match totalLen isizeMax segments 0 with
    | .error error => .error error
    | .ok total => .ok [.receive total segments false none]
  else
    .ok ((segments.filter fun segment => segment.len ≠ 0).map fun segment =>
      .receive segment.len [segment] false none)

def writevTransfers (segments : List UserIoVec) : List Transfer :=
  (segments.filter fun segment => segment.len ≠ 0).map fun segment =>
    .send segment.base segment.len

/-- What a call sets out to do, each time it is started. -/
def transfers (call : Call) (socket : Bool) (memory : M) : Except SysErr (List Transfer) :=
  match call with
  | .read address len => .ok [.receive len [⟨address, len⟩] false none]
  | .readv _ _ =>
    match call.segments memory with
    | .error error => .error error
    | .ok segments => readvTransfers socket segments
  | .recvfrom address len peek source sourceLen =>
    if !socket then .error .notSock
    else if source ≠ 0 ∧ sourceLen = 0 then .error .fault
    else .ok [.receive len [⟨address, len⟩] peek (if source = 0 then none else some sourceLen)]
  | .write address len => .ok [.send address len]
  | .writev _ _ =>
    match call.segments memory with
    | .error error => .error error
    | .ok segments => .ok (writevTransfers segments)

/-- The pointer at which `recvfrom` stores the length of the address. -/
def addressLen : Call → Option Nat
  | .recvfrom _ _ _ source sourceLen => if source = 0 then none else some sourceLen
  | _ => none

/-- The call takes bytes out of the stream. -/
def IsInput : Call → Prop
  | .read _ _ | .readv _ _ | .recvfrom _ _ _ _ _ => True
  | .write _ _ | .writev _ _ => False

end Call

/-- `write_returned_socket_address` for a stream, whose messages carry no
address. -/
def writeReturnedSocketAddress (addressLen : Option Nat) (memory : M) : Except SysErr Unit × M :=
  match addressLen with
  | none => (.ok (), memory)
  | some pointer =>
    match readUserExactBuffer memory pointer 4 with
    | .error error => (.error error, memory)
    | .ok _ => writeUserBuffer memory pointer (Bytes.ofNat 4 0)

variable {S : Type} [ByteStream S]

/-- What became of a transfer: the bytes it moved, and either an error or the
total so far and whether the next transfer follows. -/
structure Transferred (S M : Type) where
  moved : List Byte
  outcome : Except SysErr (Nat × Bool)
  stream : S
  memory : M

namespace Transfer

def receiveFrom (want : Nat) (peek : Bool) (stream : S) : Except SysErr (List Byte) × S :=
  if peek then (ByteStream.peek stream want, stream) else read stream want

def perform (transfer : Transfer) (total : Nat) (meanwhile : Meanwhile S) (stream : S)
    (memory : M) : Transferred S M :=
  match transfer with
  | .receive want segments peek addressLen =>
    match receiveFrom want peek stream with
    | (.error error, stream) => ⟨[], .error error, stream, memory⟩
    | (.ok data, stream) =>
      let moved := if peek then [] else data
      match writeIovecBytes segments data memory with
      | (.error error, memory) => ⟨moved, .error error, stream, memory⟩
      | (.ok (), memory) =>
        match writeReturnedSocketAddress addressLen memory with
        | (.error error, memory) => ⟨moved, .error error, stream, memory⟩
        | (.ok (), memory) =>
          ⟨moved, .ok (total + data.length, decide (want ≤ data.length)), stream, memory⟩
  | .send base len =>
    match readUserBuffer memory base len with
    | .error error => ⟨[], .error error, stream, memory⟩
    | .ok bytes =>
      match write stream bytes meanwhile with
      | (.ok written, stream) =>
        ⟨bytes.take written, .ok (total + written, decide (bytes.length ≤ written)), stream, memory⟩
      | (.error error, stream) =>
        -- a socket reports the segments that went out before
        ⟨[], if socket S ∧ total ≠ 0 then .ok (total, false) else .error error, stream, memory⟩

end Transfer

/-- Where a call stands. -/
inductive Phase where
  | attempt
  | moving (rest : List Transfer) (total : Nat)
  | waiting
  | returned (result : Except SysErr Nat)

structure Execution (S M : Type) where
  phase : Phase
  stream : S
  memory : M

/-- What happens next: the call goes on, it is woken while it waits, or the
far end acts. -/
inductive Move (S : Type) [ByteStream S] where
  | run (meanwhile : Meanwhile S)
  | wake (ready : Bool)
  | peer (stream : S)

/-- `file_blocking_syscall` waits on `EAGAIN` when the descriptor blocks. -/
def Phase.finish (blocking : Bool) (result : Except SysErr Nat) : Phase :=
  match result with
  | .error .again => if blocking then .waiting else .returned result
  | _ => .returned result

/-- The phase after a transfer. -/
def Phase.after (blocking : Bool) (rest : List Transfer) : Except SysErr (Nat × Bool) → Phase
  | .error error => .finish blocking (.error error)
  | .ok (total, goOn) => if goOn then .moving rest total else .finish blocking (.ok total)

/-- One step of a call, with the bytes it moves. -/
def Call.step (call : Call) (blocking : Bool) (state : Execution S M) :
    Move S → Option (List Byte × Execution S M)
  | .peer stream => some ([], { state with stream := stream })
  | .wake ready =>
    match state.phase with
    | .waiting =>
      some ([], { state with
        phase := if ready then .attempt else .returned (.error .intr) })
    | _ => none
  | .run meanwhile =>
    match state.phase with
    | .attempt =>
      match call.transfers (socket S) state.memory with
      | .error error => some ([], { state with phase := .finish blocking (.error error) })
      | .ok transfers => some ([], { state with phase := .moving transfers 0 })
    | .moving [] total => some ([], { state with phase := .finish blocking (.ok total) })
    | .moving (transfer :: rest) total =>
      let done := transfer.perform total meanwhile state.stream state.memory
      some (done.moved, ⟨.after blocking rest done.outcome, done.stream, done.memory⟩)
    | .waiting | .returned _ => none

end AetherKernel.Fd
