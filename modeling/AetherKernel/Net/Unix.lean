import AetherKernel.Net.Control
import AetherKernel.Vfs.Epoll

/-!
# Unix sockets

Sockets of the local domain, the addresses they are bound to, and the
operations on them.  A socket is named by a number; the weak references that
sockets have to each other are such numbers, and are followed as long as the
socket exists.  Each operation also tells which wait queues it notifies.
-/

namespace AetherKernel

/-- What both ends are told when a connection changes for good. -/
def PollEvents.hangup : PollEvents :=
  read ||| write ||| error ||| hup ||| rdhup

namespace Net

open Lib Function

def unixBufferSize : Nat := 64 * 1024
def msgPeek : BitVec 64 := 0x0002
def msgTrunc : BitVec 32 := 0x0020

def soSndbuf : BitVec 32 := 7
def soRcvbuf : BitVec 32 := 8
def soPasscred : BitVec 32 := 16
def soSndbufforce : BitVec 32 := 32
def soRcvbufforce : BitVec 32 := 33

/-! ## Sockets -/

inductive SocketKind where
  | stream
  | dgram
  | seqpacket
  deriving DecidableEq

namespace SocketKind

def isStreamLike (kind : SocketKind) : Bool :=
  kind = .stream

def isConnectionOriented (kind : SocketKind) : Bool :=
  kind = .stream || kind = .seqpacket

end SocketKind

/-- Descriptors and credentials that travel with a message. -/
structure UnixAncillary (D : Type) where
  rights : List D
  credentials : Option SocketCredentials
  deriving DecidableEq

structure UnixStreamChunk (D : Type) where
  data : List Byte
  readOffset : Nat
  ancillary : Option (UnixAncillary D)

structure UnixPacket (D : Type) where
  data : List Byte
  source : Option (List Byte)
  ancillary : Option (UnixAncillary D)

/-- A message as `sendmsg` has put it together. -/
structure SocketMessage (D : Type) where
  name : Option (List Byte)
  data : List Byte
  rights : List D
  sender : SocketCredentials
  explicitCredentials : Option SocketCredentials
  deriving DecidableEq

/-- What a receive returns; `bytes` is the part of the buffer it has filled. -/
structure SocketReceive (D : Type) where
  address : Option (List Byte)
  rights : List D
  credentials : Option SocketCredentials
  msgFlags : BitVec 32
  bytes : List Byte
  deriving DecidableEq

structure UnixAddress where
  key : List Byte
  abstractNamespace : Bool
  deriving DecidableEq

def afUnix : Nat := 1

namespace UnixAddress

def fromRaw (address : List Byte) : Except SysErr UnixAddress :=
  match address with
  | low :: high :: path =>
    if Bytes.toNat [low, high] ≠ afUnix then .error .afNoSupport
    else
      match path with
      | [] => .error .inval
      | first :: _ =>
        if first = 0 then .ok ⟨path, true⟩ else .ok ⟨path.takeWhile (· ≠ 0), false⟩
  | _ => .error .inval

def serialize (address : UnixAddress) : List Byte :=
  Bytes.ofNat 2 afUnix ++ address.key ++ if address.abstractNamespace then [] else [0]

end UnixAddress

abbrev SocketId :=
  Nat

structure UnixSocketState (D : Type) where
  boundAddress : Option UnixAddress
  peer : Option SocketId
  pendingConnect : Option SocketId
  peerCredentials : Option SocketCredentials
  established : Bool
  listening : Bool
  backlogLimit : Nat
  backlog : List SocketId
  pendingConnects : List SocketId
  recvStream : List (UnixStreamChunk D)
  recvPackets : List (UnixPacket D)
  recvSize : Nat
  passcred : Bool
  sndbuf : Nat
  rcvbuf : Nat
  shutRd : Bool
  shutWr : Bool

structure UnixSocket (D : Type) extends state : UnixSocketState D where
  kind : SocketKind
  owner : SocketCredentials

variable {D : Type}

namespace UnixSocket

/-- `UnixSocket::shared`. -/
def shared (kind : SocketKind) (owner : SocketCredentials) : UnixSocket D where
  kind
  owner
  state :=
    { boundAddress := none
      peer := none
      pendingConnect := none
      peerCredentials := none
      established := false
      listening := false
      backlogLimit := 0
      backlog := []
      pendingConnects := []
      recvStream := []
      recvPackets := []
      recvSize := 0
      passcred := false
      sndbuf := unixBufferSize
      rcvbuf := unixBufferSize
      shutRd := false
      shutWr := false }

end UnixSocket

/-! ## Receive queues -/

def buildOutboundAncillary (message : SocketMessage D) (passcred : Bool) :
    Option (UnixAncillary D) :=
  let credentials := message.explicitCredentials.or (if passcred then some message.sender else none)
  if message.rights.isEmpty && credentials.isNone then none
  else some ⟨message.rights, credentials⟩

def receiveFromAncillary (address : Option (List Byte)) (ancillary : Option (UnixAncillary D))
    (msgFlags : BitVec 32) (bytes : List Byte) : SocketReceive D where
  address
  rights := (ancillary.map UnixAncillary.rights).getD []
  credentials := ancillary.bind UnixAncillary.credentials
  msgFlags
  bytes

/-- The end of file. -/
def SocketReceive.empty : SocketReceive D :=
  receiveFromAncillary none none 0 []

/-- What the loops of `recv_stream` have collected so far. -/
structure Reading (D : Type) where
  written : List Byte
  ancillary : Option (UnixAncillary D)
  barrier : Bool

def Reading.start : Reading D :=
  ⟨[], none, false⟩

/-- The outcome of the first part of a receive.  When nothing is queued, the
lock is released before the peer is looked at. -/
inductive Received (D : Type) where
  | ready (result : SocketReceive D)
  | refused (error : SysErr)
  | drained
  deriving DecidableEq

namespace UnixSocketState

variable (state : UnixSocketState D)

/-- `enqueue_stream`, without the notification of the peer. -/
def enqueueStream (buffer : List Byte)
    (ancillary : Option (UnixAncillary D)) : Except SysErr Nat × UnixSocketState D :=
  if buffer.isEmpty then (.ok 0, state)
  else if state.shutRd then (.error .pipe, state)
  else
    let space := state.rcvbuf - state.recvSize
    if space = 0 then (.error .again, state)
    else
      let count := min space buffer.length
      (.ok count,
        { state with
          recvStream := state.recvStream ++ [⟨buffer.take count, 0, ancillary⟩]
          recvSize := state.recvSize + count })

/-- `enqueue_packet_from`, without the notification of the peer. -/
def enqueuePacketFrom (buffer : List Byte)
    (source : Option (List Byte)) (ancillary : Option (UnixAncillary D)) :
    Except SysErr Nat × UnixSocketState D :=
  if state.shutRd then (.error .pipe, state)
  else
    let next := state.recvSize + buffer.length
    if state.rcvbuf < next then (.error .again, state)
    else
      (.ok buffer.length,
        { state with
          recvPackets := state.recvPackets ++ [⟨buffer, source, ancillary⟩]
          recvSize := next })

/-- The loop of `recv_stream` for `MSG_PEEK`. -/
def peekLoop (len : Nat) (control : Bool) :
    List (UnixStreamChunk D) → Reading D → Reading D
  | [], reading => reading
  | chunk :: rest, reading =>
    if !reading.written.isEmpty && (chunk.ancillary.isSome || reading.barrier) then reading
    else if len ≤ reading.written.length then reading
    else
      let available := chunk.data.drop chunk.readOffset
      if available.isEmpty then peekLoop len control rest reading
      else
        let hadAncillary := reading.written.isEmpty && chunk.ancillary.isSome
        let ancillary :=
          if control && reading.written.isEmpty && reading.ancillary.isNone then chunk.ancillary
          else reading.ancillary
        let count := min (len - reading.written.length) available.length
        let reading : Reading D :=
          ⟨reading.written ++ available.take count, ancillary, reading.barrier || hadAncillary⟩
        if reading.barrier then reading else peekLoop len control rest reading

/-- The loop of `recv_stream`, with the queue and `recv_size`. -/
def takeLoop (len : Nat) (control : Bool) :
    List (UnixStreamChunk D) → Reading D → Nat →
      Reading D × List (UnixStreamChunk D) × Nat
  | [], reading, size => (reading, [], size)
  | chunk :: rest, reading, size =>
    if len ≤ reading.written.length then (reading, chunk :: rest, size)
    else if !reading.written.isEmpty && (chunk.ancillary.isSome || reading.barrier) then
      (reading, chunk :: rest, size)
    else
      let available := chunk.data.length - chunk.readOffset
      if available = 0 then
        if reading.barrier then (reading, rest, size) else takeLoop len control rest reading size
      else
        let takes := reading.written.isEmpty && control && reading.ancillary.isNone
        let drops := reading.written.isEmpty && !control
        let hadAncillary := (takes || drops) && chunk.ancillary.isSome
        let ancillary := if takes then chunk.ancillary else reading.ancillary
        let count := min (len - reading.written.length) available
        let bytes := (chunk.data.drop chunk.readOffset).take count
        let reading : Reading D :=
          ⟨reading.written ++ bytes, ancillary, reading.barrier || hadAncillary⟩
        let chunk : UnixStreamChunk D :=
          ⟨chunk.data, chunk.readOffset + count, if takes || drops then none else chunk.ancillary⟩
        let size := size - count
        if chunk.readOffset = chunk.data.length then
          if reading.barrier then (reading, rest, size)
          else takeLoop len control rest reading size
        -- What is left of a chunk did not fit into the buffer.
        else (reading, chunk :: rest, size)

def isPeek (flags : BitVec 64) : Bool :=
  flags &&& msgPeek ≠ 0

/-- `recv_stream` as long as it holds the lock, and whether it notifies the
peer. -/
def receiveStream (len : Nat) (flags : BitVec 64) (control : Bool) :
    Received D × UnixSocketState D × Bool :=
  if state.shutRd then (.ready .empty, state, false)
  else if state.recvStream.isEmpty then (.drained, state, false)
  else if isPeek flags then
    let reading := peekLoop len control state.recvStream .start
    (.ready (receiveFromAncillary none reading.ancillary 0 reading.written), state, false)
  else
    let wasFull := state.recvSize = state.rcvbuf
    let (reading, recvStream, recvSize) :=
      takeLoop len control state.recvStream .start state.recvSize
    (.ready (receiveFromAncillary none reading.ancillary 0 reading.written),
      { state with recvStream, recvSize }, wasFull)

/-- `recv_packet` as long as it holds the lock, and whether it notifies the
peer. -/
def receivePacket (kind : SocketKind) (len : Nat)
    (flags : BitVec 64) (control : Bool) : Received D × UnixSocketState D × Bool :=
  if state.shutRd then (.ready .empty, state, false)
  else
    match state.recvPackets with
    | [] => (if kind.isConnectionOriented then .drained else .refused .again, state, false)
    | packet :: rest =>
      let wasFull := state.recvSize = state.rcvbuf
      let count := min len packet.data.length
      let ancillary := if control then packet.ancillary else none
      let result := receiveFromAncillary packet.source ancillary
        (if count < packet.data.length then msgTrunc else 0) (packet.data.take count)
      if isPeek flags then (.ready result, state, false)
      else
        (.ready result,
          { state with
            recvPackets := rest
            recvSize := state.recvSize - packet.data.length }, wasFull)

/-- `normalize_socket_buffer`. -/
def normalizeSocketBuffer (value : BitVec 32) : Nat :=
  (max value.toInt 4096).toNat

def setsockopt (level optname : BitVec 32) (value : List Byte) :
    Except SysErr Unit × UnixSocketState D :=
  if level ≠ solSocket then (.error .noProtoOpt, state)
  else if value.length < 4 then (.error .inval, state)
  else
    let parsed : BitVec 32 := Bytes.wordAt 32 value 0
    if optname = soPasscred then (.ok (), { state with passcred := parsed ≠ 0 })
    else if optname = soSndbuf ∨ optname = soSndbufforce then
      (.ok (), { state with sndbuf := normalizeSocketBuffer parsed })
    else if optname = soRcvbuf ∨ optname = soRcvbufforce then
      (.ok (), { state with rcvbuf := normalizeSocketBuffer parsed })
    else (.error .noProtoOpt, state)

end UnixSocketState

/-- What a send from another socket does to the queue. -/
def UnixSocket.offer (target sender : UnixSocket D) (buffer : List Byte)
    (ancillary : Option (UnixAncillary D)) : Except SysErr Nat × UnixSocketState D :=
  if sender.kind.isStreamLike then target.enqueueStream buffer ancillary
  else
    target.enqueuePacketFrom buffer (sender.boundAddress.map UnixAddress.serialize)
      ancillary

/-- The receive of a socket as long as it holds the lock. -/
def UnixSocket.receive (socket : UnixSocket D) (len : Nat) (flags : BitVec 64) (control : Bool) :
    Received D × UnixSocketState D × Bool :=
  if socket.kind.isStreamLike then socket.receiveStream len flags control
  else socket.receivePacket socket.kind len flags control

/-! ## The network -/

structure Network (D : Type) where
  sockets : SocketId → Option (UnixSocket D)
  /-- `BOUND_SOCKETS`. -/
  bound : UnixAddress → Option SocketId
  next : SocketId

/-- What an operation returns, and whom it notifies. -/
structure Outcome (D α : Type) where
  result : Except SysErr α
  network : Network D
  notified : List (SocketId × PollEvents)

namespace Network

def empty : Network D :=
  ⟨fun _ => none, fun _ => none, 0⟩

/-- `Weak::upgrade`. -/
def upgrade (network : Network D) (weak : Option SocketId) : Option (SocketId × UnixSocket D) :=
  weak.bind fun id => (network.sockets id).map fun socket => (id, socket)

def update (network : Network D) (id : SocketId) (socket : UnixSocket D)
    (state : UnixSocketState D) : Network D :=
  { network with sockets := Function.update network.sockets id (some { socket with state }) }

def insert (network : Network D) (socket : UnixSocket D) : Network D :=
  { network with
    sockets := Function.update network.sockets network.next (some socket)
    next := network.next + 1 }

variable {network : Network D} {third : SocketId} {socket : UnixSocket D}
  {state : UnixSocketState D}

theorem found_update {id : SocketId} {now : UnixSocket D}
    (known : (network.update id socket state).sockets third = some now) :
    third = id ∧ now = { socket with state } ∨ network.sockets third = some now := by
  by_cases here : third = id
  · subst here
    simp only [update, update_self, Option.some.injEq] at known
    exact .inl ⟨rfl, known.symm⟩
  · simp only [update, update_of_ne here] at known
    exact .inr known

theorem isSome_update {id : SocketId}
    (found : network.sockets id = some socket) (state : UnixSocketState D) (third : SocketId) :
    ((network.update id socket state).sockets third).isSome = (network.sockets third).isSome := by
  by_cases here : third = id
  · subst here
    simp [update, found]
  · simp [update, update_of_ne here]

/-- The state of a socket after it has been connected. -/
def connected (state : UnixSocketState D) (peer : SocketId) (credentials : SocketCredentials) :
    UnixSocketState D :=
  { state with peer := some peer, peerCredentials := some credentials, established := true }

def create (network : Network D) (kind : SocketKind) (owner : SocketCredentials) : Network D :=
  network.insert (.shared kind owner)

/-- `create_pair`. -/
def createPair (network : Network D) (kind : SocketKind) (owner : SocketCredentials) : Network D :=
  let left := network.next
  let right := network.next + 1
  let socket : UnixSocket D := .shared kind owner
  (network.insert { socket with state := connected socket.state right owner }).insert
    { socket with state := connected socket.state left owner }

/-- `UnixSocket::lookup_bound` also forgets a name whose socket is gone, which
nobody can see. -/
def lookupBound (network : Network D) (address : UnixAddress) : Option (SocketId × UnixSocket D) :=
  network.upgrade (network.bound address)

def lookupTarget (network : Network D) (socket : UnixSocket D) (address : List Byte)
    (peer : Option SocketId) : Except SysErr (SocketId × UnixSocket D) := do
  let target ←
    match peer with
    | some peer => (network.upgrade (some peer)).elim (.error .notSock) .ok
    | none => do
        let address ← UnixAddress.fromRaw address
        (network.lookupBound address).elim (.error .noEnt) .ok
  if target.2.kind ≠ socket.kind then .error .protoType else .ok target

/-- The socket that a send is for. -/
def sendTarget (network : Network D) (socket : UnixSocket D) (address : Option (List Byte))
    (peer : Option SocketId) : Except SysErr (SocketId × UnixSocket D) :=
  if socket.kind.isConnectionOriented && address.isSome then .error .isConn
  else
    match address with
    | some address => network.lookupTarget socket address peer
    | none =>
      match network.upgrade socket.peer with
      | some target => .ok target
      | none =>
        .error (if socket.kind = .dgram then .destAddrReq
          else if socket.established then .pipe else .notConn)

/-- The last part of a send. -/
def enqueue (network : Network D) (socket : UnixSocket D) (target : SocketId × UnixSocket D)
    (buffer : List Byte) (ancillary : Option (UnixAncillary D)) : Outcome D Nat :=
  match target.2.offer socket buffer ancillary with
  | (.error error, _) => ⟨.error error, network, []⟩
  | (.ok count, state) =>
    ⟨.ok count, network.update target.1 target.2 state,
      if socket.kind.isStreamLike && buffer.isEmpty then [] else [(target.1, .read)]⟩

def sendToSocket (network : Network D) (socket : UnixSocket D) (buffer : List Byte)
    (address : Option (List Byte)) (peer : Option SocketId) : Outcome D Nat :=
  if buffer.isEmpty && socket.kind.isStreamLike then ⟨.ok 0, network, []⟩
  else
    match network.sendTarget socket address peer with
    | .error error => ⟨.error error, network, []⟩
    | .ok target => network.enqueue socket target buffer none

/-- `passcred` is the option of the target as it was when the call looked at
it, which is before it enqueues the message. -/
def sendMsgToSocket (network : Network D) (socket : UnixSocket D) (message : SocketMessage D)
    (passcred : Bool) (peer : Option SocketId) : Outcome D Nat :=
  match network.sendTarget socket message.name peer with
  | .error error => ⟨.error error, network, []⟩
  | .ok target =>
    let ancillary := buildOutboundAncillary message passcred
    if ancillary.isSome && message.data.isEmpty && socket.kind.isStreamLike then
      ⟨.error .inval, network, []⟩
    else network.enqueue socket target message.data ancillary

/-- The second part of a receive that found nothing in the queue. -/
def checkPeer (network : Network D) (established : Bool) (peer : Option SocketId) :
    Except SysErr (SocketReceive D) :=
  if !established then .error .notConn
  else if (network.upgrade peer).all fun peer => peer.2.shutWr then .ok .empty
  else .error .again

def shutdown (network : Network D) (id : SocketId) (socket : UnixSocket D) (how : BitVec 32) :
    Outcome D Unit :=
  let state := socket.state
  let peer := network.upgrade state.peer
  let finish (state : UnixSocketState D) : Outcome D Unit :=
    ⟨.ok (), network.update id socket state,
      (id, .hangup) :: (peer.map fun peer => (peer.1, PollEvents.hangup)).toList⟩
  if !state.established && peer.isNone then ⟨.error .notConn, network, []⟩
  else if how = 0 then finish { state with shutRd := true }
  else if how = 1 then finish { state with shutWr := true }
  else if how = 2 then finish { state with shutRd := true, shutWr := true }
  else ⟨.error .inval, network, []⟩

/-! ## Connections -/

def bind (network : Network D) (id : SocketId) (socket : UnixSocket D) (address : List Byte) :
    Outcome D Unit :=
  match UnixAddress.fromRaw address with
  | .error error => ⟨.error error, network, []⟩
  | .ok address =>
    if socket.boundAddress.isSome then ⟨.error .inval, network, []⟩
    else if (network.lookupBound address).any (·.1 ≠ id) then ⟨.error .addrInUse, network, []⟩
    else
      ⟨.ok (),
        { network with bound := Function.update network.bound address (some id) }.update id socket
          { socket.state with boundAddress := some address }, []⟩

def listen (network : Network D) (id : SocketId) (socket : UnixSocket D) (backlog : BitVec 32) :
    Outcome D Unit :=
  if !socket.kind.isConnectionOriented then ⟨.error .noSys, network, []⟩
  else
    let backlogLimit := if backlog = 0 then 16 else backlog.toInt.toNat
    ⟨.ok (), network.update id socket { socket.state with listening := true, backlogLimit },
      [(id, .write)]⟩

/-- The sockets that still wait for a place in the backlog. -/
def livePendingConnects (network : Network D) (state : UnixSocketState D) : List SocketId :=
  state.pendingConnects.filter fun id => (network.sockets id).isSome

def clearPendingConnect (network : Network D) (id : SocketId) : Network D :=
  match network.sockets id with
  | none => network
  | some client =>
    let listener := client.pendingConnect
    let network := network.update id client { client.state with pendingConnect := none }
    match network.upgrade listener with
    | none => network
    | some (listener, socket) =>
      network.update listener socket
        { socket.state with
          pendingConnects := socket.pendingConnects.filter (· ≠ id) }

def inheritListenerState (accepted listener : UnixSocketState D) : UnixSocketState D :=
  { accepted with
    boundAddress := listener.boundAddress
    passcred := listener.passcred
    sndbuf := listener.sndbuf
    rcvbuf := listener.rcvbuf }

/-- The backlog has no place. -/
def backlogFull (listener : UnixSocketState D) : Bool :=
  listener.backlogLimit = 0 || listener.backlogLimit ≤ listener.backlog.length

/-- `connect_socket` once it has found the listening socket. -/
def connectTo (network : Network D) (id : SocketId) (client : UnixSocket D)
    (target : SocketId) (listener : UnixSocket D) : Outcome D Unit :=
  if !listener.listening then ⟨.error .connRefused, network, []⟩
  else if backlogFull listener.state then
    let waiting := (network.livePendingConnects listener.state).filter (· ≠ id)
    ⟨.error .again,
      (network.update id client { client.state with pendingConnect := some target }).update target
        listener { listener.state with pendingConnects := waiting ++ [id] }, []⟩
  else if (network.upgrade client.peer).isSome then ⟨.error .isConn, network, []⟩
  else
    let server := network.next
    let accepted : UnixSocket D := .shared client.kind listener.owner
    let network := network.insert
      { accepted with
        state := connected (inheritListenerState accepted.state listener.state) id client.owner }
    let network := network.update id client
      { connected client.state server listener.owner with pendingConnect := none }
    ⟨.ok (),
      network.update target listener
        { listener.state with backlog := listener.backlog ++ [server] },
      [(target, .read), (id, .write)]⟩

/-- `peer` is the socket that the name stands for in the file system. -/
def connectSocket (network : Network D) (id : SocketId) (address : List Byte)
    (peer : Option SocketId) : Outcome D Unit :=
  match UnixAddress.fromRaw address with
  | .error error => ⟨.error error, network, []⟩
  | .ok address =>
    let network := network.clearPendingConnect id
    match network.sockets id with
    | none => ⟨.error .connRefused, network, []⟩
    | some client =>
      match network.lookupTarget client address.serialize peer with
      | .error error => ⟨.error error, network, []⟩
      | .ok (target, listener) =>
        if client.kind = .dgram then
          ⟨.ok (), network.update id client
            { connected client.state target listener.owner with pendingConnect := none },
            [(id, .write)]⟩
        else network.connectTo id client target listener

def localName (state : UnixSocketState D) : List Byte :=
  (state.boundAddress.map UnixAddress.serialize).getD (Bytes.ofNat 2 afUnix)

/-- The new socket, and the name of its peer. -/
def accept (network : Network D) (id : SocketId) (socket : UnixSocket D) :
    Outcome D (SocketId × Option (List Byte)) :=
  if !socket.listening then ⟨.error .inval, network, []⟩
  else
    match socket.backlog with
    | [] => ⟨.error .again, network, []⟩
    | accepted :: backlog =>
      let pendingConnects := network.livePendingConnects socket.state
      let peer := network.upgrade ((network.sockets accepted).bind (·.peer))
      ⟨.ok (accepted, peer.map fun peer => localName peer.2.state),
        network.update id socket { socket.state with backlog, pendingConnects },
        pendingConnects.map (·, .write) ++ [(id, .write)]⟩

/-- The socket is gone, and so is its name. -/
def forget (network : Network D) (id : SocketId) (address : Option UnixAddress) : Network D where
  sockets := Function.update network.sockets id none
  bound :=
    match address with
    | none => network.bound
    | some address =>
      if network.bound address = some id then Function.update network.bound address none
      else network.bound
  next := network.next

theorem found_forget {id other : SocketId} {address : Option UnixAddress} {now : UnixSocket D}
    (known : (network.forget id address).sockets other = some now) :
    other ≠ id ∧ network.sockets other = some now := by
  unfold forget at known
  by_cases here : other = id
  · subst here
    simp at known
  · exact ⟨here, by simpa [here] using known⟩

/-- `Drop for UnixSocket`, for one socket. -/
def dropSocket (network : Network D) (id : SocketId) (socket : UnixSocket D) :
    Network D × List (SocketId × PollEvents) :=
  let state := socket.state
  let network := network.forget id state.boundAddress
  let connectors := (network.livePendingConnects state).map
    (·, PollEvents.write ||| PollEvents.error ||| PollEvents.hup)
  match network.upgrade state.peer with
  | none => (network, connectors)
  | some (peer, other) =>
    (if other.peer = some id then network.update peer other { other.state with peer := none }
      else network, connectors ++ [(peer, .hangup)])

/-- The sockets of the backlog have no other owner and go as well. -/
def dropBacklog : List SocketId → Network D × List (SocketId × PollEvents) →
    Network D × List (SocketId × PollEvents)
  | [], outcome => outcome
  | id :: rest, (network, notified) =>
    match network.sockets id with
    | none => dropBacklog rest (network, notified)
    | some socket =>
      let (network, more) := network.dropSocket id socket
      dropBacklog rest (network, notified ++ more)

/-- The last reference to a socket is gone. -/
def close (network : Network D) (id : SocketId) (socket : UnixSocket D) : Outcome D Unit :=
  let (network, notified) := dropBacklog socket.backlog (network.dropSocket id socket)
  ⟨.ok (), network, notified⟩

end Network

end AetherKernel.Net
