import AetherKernel.Net.UnixWake

/-!
# Sockets in use

Any interleaving of the operations on any number of sockets, with what they
return.  A receive that finds its queue empty looks at the peer in a step of its
own.
-/

namespace AetherKernel.Net

open Lib Function UnixSocketState

/-- A receive that has found the queue of the socket empty.  It holds a
reference to the peer that it has found. -/
structure Check where
  socket : SocketId
  established : Bool
  peer : Option SocketId

structure UnixDomain (D : Type) extends network : Network D where
  checks : List Check

inductive DomainStep (D : Type) where
  | call (step : NetStep D)
  | checkPeer (index : Nat)

/-- What a step has done. -/
inductive Reply (D : Type) where
  /-- The result of a send, and the socket at which it has queued something. -/
  | sent (result : Except SysErr Nat) (queued : Option SocketId)
  | received (result : Received D)
  | checked (socket : SocketId) (result : Except SysErr (SocketReceive D))
  /-- The sockets are connected to each other now. -/
  | connected (client server : SocketId)
  | done (succeeds : Bool)
  /-- Nothing depends on what the call returns. -/
  | other

/-- A send: from whom, to whom, which bytes, and what goes with them. -/
structure Sending (D : Type) where
  id : SocketId
  address : Option (List Byte)
  peer : Option SocketId
  buffer : List Byte
  ancillary : Option (UnixAncillary D)

variable {D : Type}

/-- The socket that has been connected. -/
def Reply.client : Reply D → Option SocketId
  | .connected client _ => some client
  | _ => none

def NetStep.sending : NetStep D → Option (Sending D)
  | .sendTo id buffer address peer => some ⟨id, address, peer, buffer, none⟩
  | .sendMsg id message passcred peer =>
    some ⟨id, message.name, peer, message.data, buildOutboundAncillary message passcred⟩
  | _ => none

namespace Network

variable (network : Network D)

def sentReply (socket : UnixSocket D) (address : Option (List Byte)) (peer : Option SocketId)
    (result : Except SysErr Nat) : Reply D :=
  .sent result <| match network.sendTarget socket address peer, result with
    | .ok target, .ok count =>
      if socket.kind.isStreamLike && count = 0 then none else some target.1
    | _, _ => none

def reply : NetStep D → Reply D
  | .socketPair _ _ => .connected network.next (network.next + 1)
  | .connect id address peer =>
    let outcome := network.connectSocket id address peer
    -- The other end of a new connection is a new socket.
    if outcome.network.next = network.next then .done outcome.result.isOk
    else .connected id network.next
  | .sendTo id buffer address peer =>
    (network.sockets id).elim .other fun socket => network.sentReply socket address peer
      (network.sendToSocket socket buffer address peer).result
  | .sendMsg id message passcred peer =>
    (network.sockets id).elim .other fun socket => network.sentReply socket message.name peer
      (network.sendMsgToSocket socket message passcred peer).result
  | .receive id len flags control =>
    (network.sockets id).elim .other fun socket => .received (socket.receive len flags control).1
  | .shutdown id how =>
    .done ((network.sockets id).any fun socket => (network.shutdown id socket how).result.isOk)
  | _ => .other

/-- The receives that have to look at their peer. -/
def checksOf : NetStep D → List Check
  | .receive id len flags control =>
    (network.sockets id).elim [] fun socket =>
      match (socket.receive len flags control).1 with
      | .drained =>
        [⟨id, socket.established, (network.upgrade socket.peer).map Prod.fst⟩]
      | .ready _ | .refused _ => []
  | _ => []

def keeps (check : Check) : Bool :=
  (network.sockets check.socket).isSome &&
    check.peer.all fun peer => (network.sockets peer).isSome

end Network

namespace UnixDomain

def empty : UnixDomain D :=
  ⟨.empty, []⟩

def perform (domain : UnixDomain D) : DomainStep D → Option (Reply D × UnixDomain D)
  | .call step =>
    (domain.network.perform step).bind fun (_, network) =>
      -- A socket lives as long as a receive that is under way refers to it.
      if domain.checks.all network.keeps then
        some (domain.reply step,
          ⟨network, domain.checks ++ domain.checksOf step⟩)
      else none
  | .checkPeer index =>
    domain.checks[index]?.map fun check =>
      (.checked check.socket (domain.checkPeer check.established check.peer),
        { domain with checks := domain.checks.eraseIdx index })

/-- A step together with what it returns. -/
def Performs (before : UnixDomain D) (label : DomainStep D × Reply D) (after : UnixDomain D) :
    Prop :=
  before.perform label.1 = some (label.2, after)

end UnixDomain

/-! ## What becomes of a socket -/

/-- Nothing has been sent to the socket. -/
structure UnixSocket.Blank (socket : UnixSocket D) : Prop where
  stream : socket.recvStream = []
  packets : socket.recvPackets = []
  size : socket.recvSize = 0

/-- The socket loses its peer at most, unless it is connected. -/
structure Remains (connects : Prop) (former now : UnixSocket D) : Prop where
  kind : now.kind = former.kind
  established : former.established → now.established
  shutWr : former.shutWr → now.shutWr
  peer : now.peer = former.peer ∨ now.peer = none ∨ connects ∨
    former.kind = .dgram

/-- Nothing was sent to the socket, or taken from its queues. -/
structure Kept (connects : Prop) (former now : UnixSocket D) : Prop extends
    Remains connects former now where
  stream : now.recvStream = former.recvStream
  packets : now.recvPackets = former.recvPackets
  size : now.recvSize = former.recvSize

namespace Kept

variable {connects : Prop} {first second third : UnixSocket D}

theorem refl (socket : UnixSocket D) : Kept connects socket socket :=
  ⟨⟨rfl, id, id, .inl rfl⟩, rfl, rfl, rfl⟩

theorem trans (earlier : Kept connects first second) (later : Kept connects second third) :
    Kept connects first third where
  kind := later.kind.trans earlier.kind
  established begun := later.established (earlier.established begun)
  shutWr shut := later.shutWr (earlier.shutWr shut)
  peer := by
    rcases later.peer with same | gone | joins | dgram
    · rw [same]
      exact earlier.peer
    · exact .inr (.inl gone)
    · exact .inr (.inr (.inl joins))
    · exact .inr (.inr (.inr (earlier.kind ▸ dgram)))
  stream := later.stream.trans earlier.stream
  packets := later.packets.trans earlier.packets
  size := later.size.trans earlier.size

end Kept

/-- Sockets are as they were, new, or gone; `connects` tells who has been
connected. -/
structure Stays (connects : SocketId → Prop) (before after : Network D) : Prop where
  next : before.next ≤ after.next
  comes : ∀ id now, after.sockets id = some now → before.next ≤ id ∧ now.Blank ∨
    ∃ former, before.sockets id = some former ∧ Kept (connects id) former now

namespace Stays

variable {connects : SocketId → Prop} {network first second third : Network D} {id : SocketId}
  {socket : UnixSocket D} {state : UnixSocketState D}

theorem refl (network : Network D) : Stays connects network network :=
  ⟨le_rfl, fun _ now found => .inr ⟨now, found, .refl now⟩⟩

theorem trans (earlier : Stays connects first second) (later : Stays connects second third) :
    Stays connects first third := by
  refine ⟨earlier.next.trans later.next, fun id now found => ?_⟩
  rcases later.comes id now found with ⟨fresh, blank⟩ | ⟨middle, known, kept⟩
  · exact .inl ⟨earlier.next.trans fresh, blank⟩
  rcases earlier.comes id middle known with ⟨fresh, blank⟩ | ⟨former, was, held⟩
  · exact .inl ⟨fresh, kept.stream.trans blank.stream, kept.packets.trans blank.packets,
      kept.size.trans blank.size⟩
  · exact .inr ⟨former, was, held.trans kept⟩

/-- A socket is written back that has been read at the beginning. -/
theorem set (earlier : Stays connects first second) (found : first.sockets id = some socket)
    (kept : Kept (connects id) socket { socket with state }) :
    Stays connects first (second.update id socket state) := by
  refine ⟨earlier.next, fun other now known => ?_⟩
  rcases Network.found_update known with ⟨rfl, rfl⟩ | known
  · exact .inr ⟨socket, found, kept⟩
  · exact earlier.comes other now known

theorem update (found : network.sockets id = some socket)
    (kept : Kept (connects id) socket { socket with state }) :
    Stays connects network (network.update id socket state) :=
  (refl network).set found kept

theorem insert (blank : socket.Blank) : Stays connects network (network.insert socket) := by
  refine ⟨Nat.le_succ _, fun other now known => ?_⟩
  by_cases here : other = network.next
  · subst here
    cases (update_self network.next _ _).symm.trans known
    exact .inl ⟨le_rfl, blank⟩
  · exact .inr ⟨now, (update_of_ne here ..).symm.trans known, .refl now⟩

theorem dropSocket (id : SocketId) (socket : UnixSocket D) :
    Stays connects network (network.dropSocket id socket).1 := by
  have gone : Stays connects network (network.forget id socket.boundAddress) :=
    ⟨le_rfl, fun _ now known => .inr ⟨now, (Network.found_forget known).2, .refl now⟩⟩
  rcases network.dropSocket_eq id socket with same | ⟨peer, far, -, -, there, same⟩
  · rw [same]
    exact gone
  · rw [same]
    exact gone.trans (.update there
      ⟨⟨rfl, fun begun => begun, fun shut => shut, .inr (.inl rfl)⟩, rfl, rfl, rfl⟩)

theorem close (id : SocketId) (socket : UnixSocket D) :
    Stays connects network (network.close id socket).network := by
  have dropped (members : List SocketId) (outcome : Network D × Notified) :
      Stays connects outcome.1 (Network.dropBacklog members outcome).1 := by
    induction members generalizing outcome with
    | nil => exact .refl _
    | cons member members ih =>
      unfold Network.dropBacklog
      split
      · exact ih _
      · rename_i socket _
        have drops : Stays connects outcome.1 _ := dropSocket member socket
        exact drops.trans (ih (_, outcome.2 ++ (outcome.1.dropSocket member socket).2))
  exact Stays.trans (dropSocket id socket) (dropped _ _)

theorem clearPendingConnect (id : SocketId) :
    Stays connects network (network.clearPendingConnect id) := by
  unfold Network.clearPendingConnect
  split
  · exact .refl network
  rename_i client found
  have cleared : Stays connects network
      (network.update id client { client.state with pendingConnect := none }) :=
    .update found { Kept.refl _ with }
  dsimp only
  split
  · exact cleared
  · rename_i upgraded
    exact cleared.trans (.update (Network.upgrade_eq_some upgraded).2 { Kept.refl _ with })

theorem connectTo {client listener : UnixSocket D} {target : SocketId}
    (found : network.sockets id = some client) (there : network.sockets target = some listener)
    (joins : (network.connectTo id client target listener).network.next ≠ network.next →
      connects id) :
    Stays connects network (network.connectTo id client target listener).network := by
  unfold Network.connectTo at joins ⊢
  split
  · exact .refl network
  split
  · refine Stays.set (Stays.update found ?_) there ?_
    all_goals exact { Kept.refl _ with }
  split
  · exact .refl network
  · rename_i listens room alone
    rw [if_neg listens, if_neg room, if_neg alone] at joins
    have joined : connects id := joins (Nat.succ_ne_self _)
    refine Stays.set (Stays.set (Stays.insert ?_) found ?_) there ?_
    · exact ⟨rfl, rfl, rfl⟩
    · exact ⟨⟨rfl, fun _ => rfl, fun shut => shut, .inr (.inr (.inl joined))⟩, rfl, rfl, rfl⟩
    · exact { Kept.refl _ with }

theorem next_clearPendingConnect (network : Network D) (id : SocketId) :
    (network.clearPendingConnect id).next = network.next := by
  unfold Network.clearPendingConnect
  split
  · rfl
  dsimp only
  split <;> rfl

theorem connectSocket {address : List Byte} {peer : Option SocketId}
    (joins : (network.connectSocket id address peer).network.next ≠ network.next → connects id) :
    Stays connects network (network.connectSocket id address peer).network := by
  have cleared : Stays connects network (network.clearPendingConnect id) := clearPendingConnect id
  rw [← next_clearPendingConnect network id] at joins
  unfold Network.connectSocket at joins ⊢
  split
  · exact .refl network
  rename_i name parsed
  simp only [parsed] at joins
  dsimp only
  split
  · exact cleared
  rename_i client found
  simp only [found] at joins
  split
  · exact cleared
  rename_i target listener looked
  simp only [looked] at joins
  split
  · rename_i dgram
    exact cleared.trans (.update found
      ⟨⟨rfl, fun _ => rfl, fun shut => shut, .inr (.inr (.inr dgram))⟩, rfl, rfl, rfl⟩)
  · rename_i oriented
    rw [if_neg oriented] at joins
    exact cleared.trans (.connectTo found (Network.lookupTarget_eq_ok looked).1 joins)

section Socket

variable (found : network.sockets id = some socket)

include found

theorem bind {address : List Byte} :
    Stays connects network (network.bind id socket address).network := by
  unfold Network.bind
  split
  · exact .refl network
  split
  · exact .refl network
  split
  · exact .refl network
  · refine Stays.set ?_ found { Kept.refl _ with }
    exact ⟨le_rfl, fun _ now known => .inr ⟨now, known, .refl now⟩⟩

theorem listen {backlog : BitVec 32} :
    Stays connects network (network.listen id socket backlog).network := by
  unfold Network.listen
  split
  · exact .refl network
  · exact .update found { Kept.refl _ with }

theorem accept : Stays connects network (network.accept id socket).network := by
  unfold Network.accept
  split
  · exact .refl network
  split
  · exact .refl network
  · exact .update found { Kept.refl _ with }

theorem shutdown {how : BitVec 32} :
    Stays connects network (network.shutdown id socket how).network := by
  unfold Network.shutdown
  dsimp only
  split
  · exact .refl network
  split
  · exact .update found { Kept.refl _ with }
  split
  · exact .update found { Kept.refl _ with shutWr := fun _ => rfl }
  split
  · exact .update found { Kept.refl _ with shutWr := fun _ => rfl }
  · exact .refl network

end Socket

end Stays

/-- The operations, by what they do to the queues. -/
inductive Moves (network : Network D) (step : NetStep D) (reply : Reply D) : Network D → Prop
  | unsent {result : Except SysErr Nat} (sent : reply = .sent result none)
      (nothing : ∀ count, result = .ok count → count = 0) : Moves network step reply network
  | sends {sending : Sending D} {source far : UnixSocket D} {target : SocketId} {count : Nat}
      {state : UnixSocketState D} (begun : step.sending = some sending)
      (found : network.sockets sending.id = some source)
      (reached : network.sendTarget source sending.address sending.peer = .ok (target, far))
      (offered : far.offer source sending.buffer sending.ancillary = (.ok count, state))
      (sent : reply = .sent (.ok count)
        (if source.kind.isStreamLike && count = 0 then none else some target)) :
      Moves network step reply (network.update target far state)
  | receives {id : SocketId} {socket : UnixSocket D} {len : Nat} {flags : BitVec 64}
      {control notifies : Bool} {received : Received D} {state : UnixSocketState D}
      (asked : step = .receive id len flags control) (found : network.sockets id = some socket)
      (receive : socket.receive len flags control = (received, state, notifies))
      (returned : reply = .received received) :
      Moves network step reply (network.update id socket state)
  | stays {after : Network D} (quiet : ∀ result queued, reply ≠ .sent result queued)
      (still : ∀ result, reply ≠ .received result)
      (stays : Stays (reply.client = some ·) network after) :
      Moves network step reply after

namespace Moves

open Network

variable {network after : Network D} {step : NetStep D} {reply : Reply D} {id : SocketId}
  {socket : UnixSocket D} {peer : Option SocketId}

theorem enqueue {sending : Sending D} {target : SocketId × UnixSocket D}
    (begun : step.sending = some sending) (found : network.sockets sending.id = some socket)
    (reached : network.sendTarget socket sending.address sending.peer = .ok target) :
    Moves network step (network.sentReply socket sending.address sending.peer
        (network.enqueue socket target sending.buffer sending.ancillary).result)
      (network.enqueue socket target sending.buffer sending.ancillary).network := by
  unfold sentReply Network.enqueue
  rw [reached]
  split
  · exact .unsent rfl nofun
  · exact .sends begun found reached ‹_› rfl

theorem sentReply_error {address : Option (List Byte)} {error : SysErr} :
    network.sentReply socket address peer (.error error) = .sent (.error error) none := by
  unfold sentReply
  cases network.sendTarget socket address peer <;> rfl

theorem connect {address : List Byte} :
    Moves network (.connect id address peer) (network.reply (.connect id address peer))
      (network.connectSocket id address peer).network := by
  unfold reply
  dsimp only
  split
  · exact .stays nofun nofun (.connectSocket fun other => absurd ‹_› other)
  · exact .stays nofun nofun (.connectSocket fun _ => rfl)

theorem sendTo {buffer : List Byte} {address : Option (List Byte)}
    (found : network.sockets id = some socket) :
    Moves network (.sendTo id buffer address peer) (network.sentReply socket address peer
        (network.sendToSocket socket buffer address peer).result)
      (network.sendToSocket socket buffer address peer).network := by
  unfold sendToSocket
  split
  · rename_i nothing
    have streams := (Bool.and_eq_true_iff.mp nothing).2
    have none : network.sentReply socket address peer (.ok 0) = .sent (.ok 0) none := by
      unfold sentReply
      cases network.sendTarget socket address peer <;> simp [streams]
    refine .unsent none fun count same => ?_
    cases same
    rfl
  split
  · exact .unsent sentReply_error nofun
  · rename_i reached
    let sending : Sending D := ⟨id, address, peer, buffer, none⟩
    have begun : (NetStep.sendTo id buffer address peer).sending = some sending := rfl
    exact .enqueue begun found reached

theorem sendMsg {message : SocketMessage D} {passcred : Bool}
    (found : network.sockets id = some socket) :
    Moves network (.sendMsg id message passcred peer) (network.sentReply socket message.name peer
        (network.sendMsgToSocket socket message passcred peer).result)
      (network.sendMsgToSocket socket message passcred peer).network := by
  unfold sendMsgToSocket
  split
  · exact .unsent sentReply_error nofun
  rename_i reached
  dsimp only
  split
  · exact .unsent sentReply_error nofun
  · let sending : Sending D :=
      ⟨id, message.name, peer, message.data, buildOutboundAncillary message passcred⟩
    have begun : (NetStep.sendMsg id message passcred peer).sending = some sending := rfl
    exact .enqueue begun found reached

theorem of_perform {notified : Notified}
    (performs : network.perform step = some (notified, after)) :
    Moves network step (network.reply step) after := by
  cases step with
  | socket kind owner =>
    cases performs
    exact .stays nofun nofun (.insert ⟨rfl, rfl, rfl⟩)
  | socketPair kind owner =>
    cases performs
    refine .stays nofun nofun (Stays.trans (.insert ?_) (.insert ?_))
    all_goals exact ⟨rfl, rfl, rfl⟩
  | bind id address =>
    obtain ⟨socket, found, ⟨⟩⟩ := performs_held performs
    exact .stays nofun nofun (.bind found)
  | listen id backlog =>
    obtain ⟨socket, found, ⟨⟩⟩ := performs_held performs
    exact .stays nofun nofun (.listen found)
  | connect id address peer =>
    unfold perform at performs
    dsimp only at performs
    split at performs
    · cases performs
    · obtain ⟨socket, found, ⟨⟩⟩ := performs_held performs
      exact .connect
  | accept id =>
    obtain ⟨socket, found, ⟨⟩⟩ := performs_held performs
    exact .stays nofun nofun (.accept found)
  | sendTo id buffer address peer =>
    obtain ⟨socket, found, ⟨⟩⟩ := performs_held performs
    rw [reply, found]
    exact .sendTo found
  | sendMsg id message passcred peer =>
    obtain ⟨socket, found, ⟨⟩⟩ := performs_held performs
    rw [reply, found]
    exact .sendMsg found
  | receive id len flags control =>
    obtain ⟨socket, found, ⟨⟩⟩ := performs_held performs
    rw [reply, found]
    exact .receives rfl found rfl rfl
  | setsockopt id level optname value =>
    obtain ⟨socket, found, ⟨⟩⟩ := performs_held performs
    have retuned : Retuned _ _ := (setsockopt_spec socket.state level optname value).1
    refine .stays nofun nofun (.update found ?_)
    rw [retuned]
    exact { Kept.refl _ with }
  | shutdown id how =>
    obtain ⟨socket, found, ⟨⟩⟩ := performs_held performs
    exact .stays nofun nofun (.shutdown found)
  | close id =>
    obtain ⟨socket, found, ⟨⟩⟩ := performs_held performs
    exact .stays nofun nofun (.close id socket)

/-- What becomes of a socket in a step. -/
theorem found (moves : Moves network step reply after) {now : UnixSocket D}
    (known : after.sockets id = some now) : network.next ≤ id ∧ now.Blank ∨
      ∃ former, network.sockets id = some former ∧
        Remains (reply.client = some id) former now := by
  have requeued {target : SocketId} {far : UnixSocket D} {state : UnixSocketState D}
      (there : network.sockets target = some far) (requeued : Requeued far.state state)
      (known : (network.update target far state).sockets id = some now) :
      ∃ former, network.sockets id = some former ∧
        Remains (reply.client = some id) former now := by
    rcases found_update known with ⟨rfl, rfl⟩ | known
    · refine ⟨far, there, ?_⟩
      rw [requeued]
      exact ⟨rfl, fun begun => begun, fun shut => shut, .inl rfl⟩
    · exact ⟨now, known, (Kept.refl now).toRemains⟩
  cases moves with
  | unsent sent nothing => exact .inr ⟨now, known, (Kept.refl now).toRemains⟩
  | sends begun source reached offered sent =>
    exact .inr (requeued (sendTarget_eq_ok reached) (offer_spec offered).1 known)
  | receives asked there receive returned =>
    exact .inr (requeued there (receive_spec receive).1 known)
  | stays quiet still stays =>
    refine (stays.comes id now known).imp_right ?_
    rintro ⟨former, was, kept⟩
    exact ⟨former, was, kept.toRemains⟩

theorem next_le (moves : Moves network step reply after) : network.next ≤ after.next := by
  cases moves with
  | unsent | sends | receives => exact le_rfl
  | stays quiet still stays => exact stays.next

theorem former (moves : Moves network step reply after) (below : id < network.next)
    {now : UnixSocket D} (known : after.sockets id = some now) :
    ∃ former, network.sockets id = some former ∧ Remains (reply.client = some id) former now :=
  (moves.found known).resolve_left fun fresh => fresh.1.not_gt below

end Moves

/-! ## Connections -/

namespace Network

variable {network : Network D} {id : SocketId} {source : UnixSocket D}
  {target : SocketId × UnixSocket D} {address : Option (List Byte)} {peer : Option SocketId}

theorem Linked.sendTarget_kind (linked : network.Linked) (found : network.sockets id = some source)
    (reached : network.sendTarget source address peer = .ok target) :
    target.2.kind = source.kind := by
  unfold sendTarget at reached
  split at reached
  · cases reached
  split at reached
  · exact (lookupTarget_eq_ok reached).2
  split at reached
  · rename_i upgraded
    cases reached
    obtain ⟨refers, there⟩ := upgrade_eq_some upgraded
    exact linked.kinds id source _ _ found refers there
  · cases reached

/-- A send on a connection is for the peer. -/
theorem sendTarget_peer (oriented : source.kind.isConnectionOriented)
    (reached : network.sendTarget source address peer = .ok target) :
    source.peer = some target.1 := by
  unfold sendTarget at reached
  rw [oriented] at reached
  cases address with
  | some address => cases reached
  | none =>
    simp only [Option.isSome_none, Bool.and_false, Bool.false_eq_true, if_false] at reached
    split at reached
    · rename_i upgraded
      cases reached
      exact (upgrade_eq_some upgraded).1
    · cases reached

/-- If there is a new socket, then the client refers to it. -/
def Meets (network after : Network D) (id : SocketId) : Prop :=
  after.next = network.next ∨
    ∃ near, after.sockets id = some near ∧ near.peer = some network.next

theorem meets_connectTo {client listener : UnixSocket D} {target : SocketId}
    (apart : listener.listening → target ≠ id) :
    Meets network (network.connectTo id client target listener).network id := by
  unfold connectTo
  split
  · exact .inl rfl
  rename_i listens
  split
  · exact .inl rfl
  split
  · exact .inl rfl
  · have distinct := apart (by simpa using listens)
    exact .inr ⟨_, (update_of_ne distinct.symm ..).trans (update_self ..), rfl⟩

theorem meets_connectSocket {address : List Byte}
    (hangs : (network.clearPendingConnect id).hangs id address peer = false) :
    Meets network (network.connectSocket id address peer).network id := by
  have same := Stays.next_clearPendingConnect network id
  unfold connectSocket
  unfold Network.hangs at hangs
  split
  · exact .inl rfl
  rename_i name parsed
  simp only [parsed] at hangs
  dsimp only
  split
  · exact .inl same
  rename_i client found
  simp only [found] at hangs
  split
  · exact .inl same
  rename_i target listener looked
  simp only [looked] at hangs
  split
  · exact .inl same
  · rename_i oriented
    unfold Meets
    rw [← same]
    refine meets_connectTo ?_
    rintro listens rfl
    cases kind : client.kind <;> simp_all [SocketKind.isConnectionOriented]

theorem found_of_connected {step : NetStep D} {after : Network D} {notified : Notified}
    {client server : SocketId} (performs : network.perform step = some (notified, after))
    (joins : network.reply step = .connected client server) : network.next ≤ server ∧
      ∃ near, after.sockets client = some near ∧ near.peer = some server := by
  cases step with
  | socketPair kind owner =>
    cases performs
    cases joins
    exact ⟨Nat.le_succ _, _, (update_of_ne (Nat.ne_add_one _) ..).trans (update_self ..), rfl⟩
  | connect id address peer =>
    unfold perform at performs
    dsimp only at performs
    split at performs
    · cases performs
    rename_i hangs
    obtain ⟨socket, found, ⟨⟩⟩ := performs_held performs
    unfold reply at joins
    dsimp only at joins
    split at joins
    · cases joins
    · rename_i another
      cases joins
      refine ⟨le_rfl, (meets_connectSocket ?_).resolve_left another⟩
      simpa using hangs
  | sendTo id | sendMsg id | receive id =>
    obtain ⟨socket, found, ⟨⟩⟩ := performs_held performs
    rw [reply, found] at joins
    cases joins
  | socket | bind | listen | accept | setsockopt | shutdown | close => cases joins

end Network

namespace UnixDomain

/-- A step is a call, or a receive that looks at its peer. -/
inductive Turns (before : UnixDomain D) : DomainStep D × Reply D → UnixDomain D → Prop
  | call {step : NetStep D} {notified : Notified} {network : Network D}
      (performs : before.network.perform step = some (notified, network))
      (keeps : ∀ check ∈ before.checks, network.keeps check) :
      Turns before (.call step, before.reply step)
        ⟨network, before.checks ++ before.checksOf step⟩
  | checkPeer {index : Nat} {check : Check} (found : before.checks[index]? = some check) :
      Turns before (.checkPeer index,
          .checked check.socket (before.checkPeer check.established check.peer))
        { before with checks := before.checks.eraseIdx index }

theorem Performs.turns {before after : UnixDomain D} {label : DomainStep D × Reply D}
    (performs : before.Performs label after) : Turns before label after := by
  obtain ⟨step, reply⟩ := label
  unfold Performs perform at performs
  cases step with
  | call step =>
    obtain ⟨⟨notified, network⟩, performed, rest⟩ := Option.bind_eq_some_iff.mp performs
    dsimp only at rest
    split at rest
    · rename_i kept
      cases rest
      exact .call performed (List.all_eq_true.mp kept)
    · cases rest
  | checkPeer index =>
    obtain ⟨check, found, ⟨⟩⟩ := Option.map_eq_some_iff.mp performs
    exact .checkPeer found

theorem Turns.linked {before after : UnixDomain D} {label : DomainStep D × Reply D}
    (turns : Turns before label after) (linked : before.Linked) : after.Linked := by
  cases turns with
  | call performs =>
    rename_i step notified network keeps
    have performed : Network.Performs before.network (step, notified) network := performs
    exact (Network.fair_performs linked performed).linked
  | checkPeer => exact linked

/-- What every step preserves holds after a run. -/
theorem invariant_of_run {P : UnixDomain D → Prop} {last : UnixDomain D}
    {labels : List (DomainStep D × Reply D)} (run : Run Performs empty labels last)
    (preserved : ∀ before label after, P before → Turns before label after → P after)
    (start : P empty) : P last :=
  run.invariant (fun before label after holds performs =>
    preserved before label after holds performs.turns) start

end UnixDomain

end AetherKernel.Net
