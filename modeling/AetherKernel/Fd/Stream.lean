import AetherKernel.Net.UnixStream
import AetherKernel.Vfs.PageCache
import Mathlib.Data.List.Infix

/-!
# Byte streams

Pipes, terminals and connected sockets are queues of bytes with another party
at the far end.  `ByteStream` says what a single transfer does to the queues;
its instances are the streams of the kernel.
-/

namespace AetherKernel

open Lib List Net.UnixSocketState

/-- `SysErr::from`. -/
def SysErr.ofFsError : Vfs.FsError → SysErr
  | .notFile => .inval
  | .io => .io
  | .invalidInput => .inval
  | .wouldBlock => .again
  | .brokenPipe => .pipe

namespace Fd

/-- One end of a stream.  A transfer in one direction takes bytes from the
front of what has come in or puts bytes behind what is going out; a transfer
that fails does neither. -/
class ByteStream (S : Type) where
  /-- Whether the descriptor is a socket. -/
  socket : Bool
  /-- What the far end does while a write has let go of the lock. -/
  Meanwhile : Type
  /-- How many bytes the far end takes then. -/
  taken : Meanwhile → Nat
  /-- What is written goes out. -/
  Shows : S → Prop
  read : S → Nat → Except SysErr (List Byte) × S
  /-- `recv_from` with `MSG_PEEK`. -/
  peek : S → Nat → Except SysErr (List Byte)
  write : S → List Byte → Meanwhile → Except SysErr Nat × S
  incoming : S → List Byte
  outgoing : S → List Byte
  read_ok : ∀ {stream len data after}, read stream len = (.ok data, after) →
    data.length ≤ len ∧ incoming stream = data ++ incoming after
  read_error : ∀ {stream len error after}, read stream len = (.error error, after) →
    incoming after = incoming stream
  write_ok : ∀ {stream bytes meanwhile count after},
    write stream bytes meanwhile = (.ok count, after) →
    count ≤ bytes.length ∧ (Shows stream → ∃ drained, drained.length ≤ taken meanwhile ∧
      outgoing stream ++ bytes.take count = drained ++ outgoing after)
  write_error : ∀ {stream bytes meanwhile error after},
    write stream bytes meanwhile = (.error error, after) → outgoing after = outgoing stream

variable {S ε α : Type}

/-- What a read may return and leave of the bytes that have come in. -/
def Takes (incoming : S → List Byte) (stream : S) (len : Nat) : Except ε (List Byte) × S → Prop
  | (.ok data, after) => data.length ≤ len ∧ incoming stream = data ++ incoming after
  | (.error _, after) => incoming after = incoming stream

/-- What a write may return, and what is going out after it, if the far end has taken
some bytes. -/
def Puts (outgoing : S → List Byte) (taken : Nat) (stream : S) (bytes : List Byte) :
    Except ε Nat × S → Prop
  | (.ok count, after) => count ≤ bytes.length ∧ ∃ drained : List Byte, drained.length ≤ taken ∧
      outgoing stream ++ bytes.take count = drained ++ outgoing after
  | (.error _, after) => outgoing after = outgoing stream

/-- The result of a file operation, as the calls see it. -/
def ofFsResult (outcome : Except Vfs.FsError α × S) : Except SysErr α × S :=
  (outcome.1.mapError SysErr.ofFsError, outcome.2)

variable {view : S → List Byte} {stream : S} {len taken : Nat} {bytes : List Byte}

theorem Takes.ofFsResult {outcome : Except Vfs.FsError (List Byte) × S}
    (takes : Takes view stream len outcome) : Takes view stream len (ofFsResult outcome) := by
  obtain ⟨_ | _, _⟩ := outcome <;> exact takes

theorem Puts.ofFsResult {outcome : Except Vfs.FsError Nat × S}
    (puts : Puts view taken stream bytes outcome) :
    Puts view taken stream bytes (ofFsResult outcome) := by
  obtain ⟨_ | _, _⟩ := outcome <;> exact puts

/-! ## Pipes -/

/-- `PIPE_CAPACITY`. -/
def pipeCapacity : Nat := 64 * 1024

structure PipeBuffer where
  bytes : List Byte
  readers : Nat
  writers : Nat

inductive PipeEndpointKind where
  | read
  | write
  deriving DecidableEq

/-- An end of a pipe, with the buffer that both ends share. -/
structure PipeEndpoint where
  kind : PipeEndpointKind
  buffer : PipeBuffer

/-- The readers take bytes, and some of them may come or go. -/
structure Drain where
  taken : Nat
  readers : Nat

namespace PipeBuffer

def drain (buffer : PipeBuffer) (drain : Drain) : PipeBuffer :=
  { buffer with bytes := buffer.bytes.drop drain.taken, readers := drain.readers }

/-- One turn of the loop of `PipeEndpoint::write`: as much as there is space
for. -/
def offer (buffer : PipeBuffer) (rest : List Byte) : Except Vfs.FsError Nat × PipeBuffer :=
  if buffer.readers = 0 then (.error .brokenPipe, buffer)
  else
    let space := pipeCapacity - buffer.bytes.length
    if space = 0 then (.error .wouldBlock, buffer)
    else
      let chunk := min rest.length space
      (.ok chunk, { buffer with bytes := buffer.bytes ++ rest.take chunk })

/-- The loop.  The lock is free between two chunks; when nothing happens
meanwhile, a buffer that could not take everything is full and the loop ends. -/
def writeLoop : List Drain → PipeBuffer → List Byte → Nat → Except Vfs.FsError Nat × PipeBuffer
  | drains, buffer, rest, written =>
    if rest = [] then (.ok written, buffer)
    else
      match buffer.offer rest with
      | (.error error, buffer) => (if written = 0 then .error error else .ok written, buffer)
      | (.ok chunk, buffer) =>
        match drains with
        | [] => (.ok (written + chunk), buffer)
        | drain :: drains =>
          writeLoop drains (buffer.drain drain) (rest.drop chunk) (written + chunk)

end PipeBuffer

namespace PipeEndpoint

def read (endpoint : PipeEndpoint) (len : Nat) : Except Vfs.FsError (List Byte) × PipeEndpoint :=
  if endpoint.kind ≠ .read then (.error .invalidInput, endpoint)
  else
    let inner := endpoint.buffer
    if inner.bytes ≠ [] then
      let count := min len inner.bytes.length
      (.ok (inner.bytes.take count),
        { endpoint with buffer := { inner with bytes := inner.bytes.drop count } })
    else if inner.writers = 0 then (.ok [], endpoint)
    else (.error .wouldBlock, endpoint)

def write (endpoint : PipeEndpoint) (bytes : List Byte) (drains : List Drain) :
    Except Vfs.FsError Nat × PipeEndpoint :=
  if endpoint.kind ≠ .write then (.error .invalidInput, endpoint)
  else
    let (result, buffer) := PipeBuffer.writeLoop drains endpoint.buffer bytes 0
    (result, { endpoint with buffer := buffer })

end PipeEndpoint

namespace PipeBuffer

variable {buffer after : PipeBuffer} {rest : List Byte}

theorem offer_ok {chunk : Nat} (offered : buffer.offer rest = (.ok chunk, after)) :
    after = { buffer with bytes := buffer.bytes ++ rest.take chunk } ∧ chunk ≤ rest.length ∧
      (rest ≠ [] → chunk ≠ 0) ∧
      (buffer.bytes.length ≤ pipeCapacity → after.bytes.length ≤ pipeCapacity) := by
  unfold offer at offered
  split at offered
  · cases offered
  dsimp only at offered
  split at offered
  · cases offered
  · cases offered
    refine ⟨rfl, Nat.min_le_left _ _, fun nonempty => ?_, fun bounded => ?_⟩
    · have := length_pos_iff.mpr nonempty
      omega
    · simp only [length_append, length_take]
      omega

theorem offer_error {error : Vfs.FsError} (offered : buffer.offer rest = (.error error, after)) :
    after = buffer ∧ (error = .brokenPipe → buffer.readers = 0) := by
  unfold offer at offered
  split at offered
  · cases offered
    exact ⟨rfl, fun _ => ‹_›⟩
  dsimp only at offered
  split at offered
  · cases offered
    exact ⟨rfl, nofun⟩
  · cases offered

/-- How a loop that has written some bytes leaves the buffer. -/
def Wrote (drains : List Drain) (buffer : PipeBuffer) (rest : List Byte) (written : Nat) :
    Except Vfs.FsError Nat × PipeBuffer → Prop
  | (.error _, after) => written = 0 ∧ after = buffer
  | (.ok count, after) => ∃ more drained, count = written + more ∧ more ≤ rest.length ∧
      drained.length ≤ (drains.map Drain.taken).sum ∧
      buffer.bytes ++ rest.take more = drained ++ after.bytes

/-- Apart from what the readers have taken, the buffer holds what was there
and the bytes that are counted; an error has put nothing in. -/
theorem wrote_writeLoop (drains : List Drain) (buffer : PipeBuffer) (rest : List Byte)
    (written : Nat) : Wrote drains buffer rest written (writeLoop drains buffer rest written) := by
  fun_induction writeLoop drains buffer rest written with
  | case1 drains buffer written => exact ⟨0, [], rfl, Nat.zero_le _, Nat.zero_le _, by simp⟩
  | case2 drains buffer rest written nonempty error after offered =>
    rw [(offer_error offered).1]
    by_cases first : written = 0
    · rw [if_pos first]
      exact ⟨first, rfl⟩
    · rw [if_neg first]
      exact ⟨0, [], rfl, Nat.zero_le _, Nat.zero_le _, by simp⟩
  | case3 buffer rest written nonempty chunk after offered =>
    obtain ⟨rfl, fits, -⟩ := offer_ok offered
    exact ⟨chunk, [], rfl, fits, le_rfl, rfl⟩
  | case4 buffer rest written nonempty chunk after offered drain drains ih =>
    obtain ⟨stored, fits, some, -⟩ := offer_ok offered
    revert ih
    match writeLoop drains (after.drain drain) (rest.drop chunk) (written + chunk) with
    | (.error _, last) =>
      rintro ⟨none, -⟩
      exact absurd none (by have := some nonempty; omega)
    | (.ok count, last) =>
      rintro ⟨more, drained, counted, enough, bounded, split⟩
      rw [length_drop] at enough
      refine ⟨chunk + more, after.bytes.take drain.taken ++ drained, by omega, by omega, ?_, ?_⟩
      · rw [length_append, length_take, map_cons, sum_cons]
        omega
      · -- The readers have taken the front of what was there and the chunk.
        have front : buffer.bytes ++ rest.take chunk =
            after.bytes.take drain.taken ++ (after.drain drain).bytes := by
          rw [PipeBuffer.drain, take_append_drop, stored]
        rw [take_add, ← append_assoc, front, append_assoc, split, append_assoc]

end PipeBuffer

namespace PipeEndpoint

variable (endpoint : PipeEndpoint)

theorem takes_read (len : Nat) : Takes (·.buffer.bytes) endpoint len (endpoint.read len) := by
  unfold read
  split
  · exact rfl
  dsimp only
  split
  · exact ⟨by simp, by simp⟩
  split
  · exact ⟨Nat.zero_le _, rfl⟩
  · exact rfl

theorem puts_write (bytes : List Byte) (drains : List Drain) :
    Puts (·.buffer.bytes) (drains.map Drain.taken).sum endpoint bytes
      (endpoint.write bytes drains) := by
  unfold write
  split
  · exact rfl
  have wrote := PipeBuffer.wrote_writeLoop drains endpoint.buffer bytes 0
  match PipeBuffer.writeLoop drains endpoint.buffer bytes 0, wrote with
  | (.error _, buffer), ⟨_, same⟩ => exact congrArg PipeBuffer.bytes same
  | (.ok count, buffer), ⟨more, drained, counted, fits, bounded, split⟩ =>
    rw [Nat.zero_add] at counted
    subst counted
    exact ⟨fits, drained, bounded, split⟩

end PipeEndpoint

instance : ByteStream PipeEndpoint where
  socket := false
  Meanwhile := List Drain
  taken drains := (drains.map Drain.taken).sum
  Shows _ := True
  read endpoint len := ofFsResult (endpoint.read len)
  peek _ _ := .error .notSock
  write endpoint bytes drains := ofFsResult (endpoint.write bytes drains)
  incoming endpoint := endpoint.buffer.bytes
  outgoing endpoint := endpoint.buffer.bytes
  read_ok {endpoint len _ _} got := (got ▸ (endpoint.takes_read len).ofFsResult :)
  read_error {endpoint len _ _} refused := (refused ▸ (endpoint.takes_read len).ofFsResult :)
  write_ok {endpoint bytes drains _ _} put := by
    have puts := (endpoint.puts_write bytes drains).ofFsResult
    rw [put] at puts
    exact ⟨puts.1, fun _ => puts.2⟩
  write_error {endpoint bytes drains _ _} refused :=
    (refused ▸ (endpoint.puts_write bytes drains).ofFsResult :)

/-! ## Terminals -/

/-- `KD_GRAPHICS`. -/
def kdGraphics : BitVec 32 := 1

/-- The input queue of a terminal with the settings that `read` and `write` look at, and
the bytes that were given to it to display. -/
structure Tty where
  input : List Byte
  canonical : Bool
  veol : Byte
  vmin : Nat
  ttyMode : BitVec 32
  output : List Byte

namespace Tty

/-- The loop of `TtyFile::read` after `count` bytes: it ends at a line in
canonical mode and after `VMIN` bytes otherwise. -/
def takeInput (tty : Tty) (len : Nat) : Nat → List Byte → List Byte × List Byte
  | _, [] => ([], [])
  | count, byte :: rest =>
    if count < len then
      if tty.canonical && (byte == 10 || byte == tty.veol) then ([byte], rest)
      else if !tty.canonical && decide (max tty.vmin 1 ≤ count + 1) then ([byte], rest)
      else
        let (taken, left) := takeInput tty len (count + 1) rest
        (byte :: taken, left)
    else ([], byte :: rest)

def read (tty : Tty) (len : Nat) : Except Vfs.FsError (List Byte) × Tty :=
  if len = 0 then (.ok [], tty)
  else if tty.input = [] then (.error .wouldBlock, tty)
  else
    let (taken, left) := tty.takeInput len 0 tty.input
    (.ok taken, { tty with input := left })

/-- A terminal in graphics mode displays nothing. -/
def write (tty : Tty) (bytes : List Byte) : Except Vfs.FsError Nat × Tty :=
  (.ok bytes.length,
    if tty.ttyMode ≠ kdGraphics then { tty with output := tty.output ++ bytes } else tty)

theorem takeInput_conserves (tty : Tty) (len count : Nat) (input : List Byte) :
    (tty.takeInput len count input).1.length ≤ len - count ∧
      input = (tty.takeInput len count input).1 ++ (tty.takeInput len count input).2 := by
  induction input generalizing count with
  | nil => simp [takeInput]
  | cons byte rest ih =>
    unfold takeInput
    split
    · split
      · exact ⟨by simp only [length_singleton]; omega, rfl⟩
      split
      · exact ⟨by simp only [length_singleton]; omega, rfl⟩
      · obtain ⟨short, whole⟩ := ih (count + 1)
        refine ⟨?_, congrArg (byte :: ·) whole⟩
        rw [length_cons]
        omega
    · exact ⟨by simp, rfl⟩

theorem takes_read (tty : Tty) (len : Nat) : Takes input tty len (tty.read len) := by
  unfold read
  split
  · exact ⟨Nat.zero_le _, rfl⟩
  split
  · exact rfl
  · exact tty.takeInput_conserves len 0 tty.input

end Tty

instance : ByteStream Tty where
  socket := false
  Meanwhile := Unit
  taken _ := 0
  Shows tty := tty.ttyMode ≠ kdGraphics
  read tty len := ofFsResult (tty.read len)
  peek _ _ := .error .notSock
  write tty bytes _ := ofFsResult (tty.write bytes)
  incoming tty := tty.input
  outgoing tty := tty.output
  read_ok {tty len _ _} got := (got ▸ (tty.takes_read len).ofFsResult :)
  read_error {tty len _ _} refused := (refused ▸ (tty.takes_read len).ofFsResult :)
  write_ok put := by
    cases put
    refine ⟨le_rfl, fun shows => ⟨[], le_rfl, ?_⟩⟩
    rw [Tty.write, if_pos shows, take_length]
    rfl
  write_error refused := nomatch refused

/-! ## Stream sockets -/

/-- A stream socket, with the state of its peer as long as that is not closed. -/
structure UnixStreamSocket (D : Type) where
  own : Net.UnixSocketState D
  peer : Option (Net.UnixSocketState D)
  fresh : ∀ chunk ∈ own.recvStream, chunk.Fresh

namespace UnixStreamSocket

open Net (UnixSocketState unread)

variable {D : Type} (socket : UnixStreamSocket D)

/-- What `recv_stream` has found, and then the peer of an empty queue. -/
def received : Net.Received D → Except SysErr (List Byte)
  | .ready result => .ok result.bytes
  | .refused error => .error error
  | .drained =>
    if !socket.own.established then .error .notConn
    else if (socket.peer.map UnixSocketState.shutWr).getD true then .ok []
    else .error .again

/-- A receive takes what it returns from the front of the queue. -/
theorem draws (len : Nat) : Draws socket.own len false (socket.own.receiveStream len 0 false).1
      (socket.own.receiveStream len 0 false).2.1 :=
  draws_receiveStream socket.fresh rfl len false

/-- `recv_from` on a stream socket. -/
def recvFrom (len : Nat) : Except SysErr (List Byte) × UnixStreamSocket D :=
  (socket.received (socket.own.receiveStream len 0 false).1,
    ⟨(socket.own.receiveStream len 0 false).2.1, socket.peer,
      (socket.draws len).fresh socket.fresh⟩)

/-- `send_to_socket` without an address. -/
def sendTo (bytes : List Byte) : Except SysErr Nat × UnixStreamSocket D :=
  if bytes = [] then (.ok 0, socket)
  else
    match socket.peer with
    | none => (.error (if socket.own.established then .pipe else .notConn), socket)
    | some peer =>
      let (result, peer) := peer.enqueueStream bytes none
      (result, { socket with peer := some peer })

/-- The bytes that are queued for a socket. -/
def queued (state : UnixSocketState D) : List Byte :=
  (unread state.recvStream).map Prod.fst

def sent : List Byte :=
  (socket.peer.map queued).getD []

theorem takes_recvFrom (len : Nat) : Takes (queued ·.own) socket len (socket.recvFrom len) := by
  suffices each : ∀ found own fresh, Draws socket.own len false found own →
      Takes (queued ·.own) socket len (socket.received found, ⟨own, socket.peer, fresh⟩) from
    each _ _ _ (socket.draws len)
  intro found own fresh draws
  cases draws with
  | drained =>
    dsimp only [received]
    split
    · exact rfl
    split
    · exact ⟨Nat.zero_le _, rfl⟩
    · exact rfl
  | row plain fits queue size fresh =>
    refine ⟨(length_map _).le.trans fits, ?_⟩
    dsimp only [queued]
    rw [queue, map_append]
    rfl

theorem puts_sendTo (bytes : List Byte) : Puts sent 0 socket bytes (socket.sendTo bytes) := by
  unfold sendTo
  split
  · exact ⟨Nat.zero_le _, [], le_rfl, by simp⟩
  split
  · exact rfl
  rename_i peer connected
  cases run : peer.enqueueStream bytes none with
  | mk result after =>
    cases result with
    | error error => simp [Puts, sent, connected, enqueueStream_error run]
    | ok count =>
      obtain ⟨fits, -, queue, -⟩ := enqueueStream_ok run
      exact ⟨fits, [], le_rfl, by simp [sent, connected, queued, queue]⟩

end UnixStreamSocket

instance {D : Type} : ByteStream (UnixStreamSocket D) where
  socket := true
  Meanwhile := Unit
  taken _ := 0
  Shows _ := True
  read socket len := socket.recvFrom len
  -- the same bytes, with the chunks left where they are
  peek socket len := (socket.recvFrom len).1
  write socket bytes _ := socket.sendTo bytes
  incoming socket := UnixStreamSocket.queued socket.own
  outgoing socket := socket.sent
  read_ok {socket len _ _} got := (got ▸ socket.takes_recvFrom len :)
  read_error {socket len _ _} refused := (refused ▸ socket.takes_recvFrom len :)
  write_ok {socket bytes _ _ _} put := by
    have puts := socket.puts_sendTo bytes
    rw [put] at puts
    exact ⟨puts.1, fun _ => puts.2⟩
  write_error {socket bytes _ _ _} refused := (refused ▸ socket.puts_sendTo bytes :)

end Fd

end AetherKernel
