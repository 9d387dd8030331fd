import AetherKernel.Net.UnixDomain
import Mathlib.Data.List.Forall2

/-!
# Integrity of a stream

The bytes that an end of a connection has sent are those that the other end has
received, followed by those that are queued there, if nothing was queued when
the connection was made.  Each receive returns a row of them, together with what
the first one carries.
-/

namespace AetherKernel.Net

open Lib UnixSocketState Function List

variable {D : Type}

namespace UnixDomain

/-- The queue of a stream is counted, and has no chunk that was read to its end. -/
structure Neat (state : UnixSocketState D) : Prop where
  fresh : ∀ chunk ∈ state.recvStream, chunk.Fresh
  size : state.recvSize = (unread state.recvStream).length

/-- The bytes of a socket that a step sends. -/
def sentBy (sender : SocketId) : DomainStep D × Reply D → List (Marked D)
  | (.call step, .sent (.ok count) _) =>
    match step.sending with
    | some sending =>
      if sending.id = sender then mark sending.ancillary (sending.buffer.take count) else []
    | none => []
  | _ => []

/-- The receive of a socket, unless it only peeks, and whether it asks for
ancillary data. -/
def receivedBy (id : SocketId) : DomainStep D × Reply D → List (Bool × SocketReceive D)
  | (.call (.receive receiver _ flags control), .received (.ready result)) =>
    if receiver = id ∧ isPeek flags = false then [(control, result)] else []
  | _ => []

/-- A receive returns these bytes and what the first one carries; no other
carries anything. -/
def Hands (receive : Bool × SocketReceive D) (segment : List (Marked D)) : Prop :=
  Plain segment.tail ∧
    receive.2 = receiveFromAncillary none (if receive.1 then carried segment else none) 0
      (segment.map Prod.fst)

/-- What `peer` has sent is what `id` has received, and what is queued. -/
def Conveys (id peer : SocketId) (labels : List (DomainStep D × Reply D))
    (state : UnixSocketState D) : Prop :=
  ∃ segments : List (List (Marked D)),
    labels.flatMap (sentBy peer) = segments.flatten ++ unread state.recvStream ∧
      List.Forall₂ Hands (labels.flatMap (receivedBy id)) segments

section Queue

variable {id peer : SocketId} {labels : List (DomainStep D × Reply D)}
  {label : DomainStep D × Reply D} {before state : UnixSocketState D} {buffer : List Byte}
  {ancillary : Option (UnixAncillary D)} {flags : BitVec 64}

/-- Nothing was sent or received. -/
theorem Conveys.keep (conveys : Conveys id peer labels before)
    (queue : state.recvStream = before.recvStream := by rfl)
    (unsent : sentBy peer label = [] := by rfl)
    (unreceived : receivedBy id label = [] := by rfl) :
    Conveys id peer (labels ++ [label]) state := by
  obtain ⟨segments, sent, received⟩ := conveys
  refine ⟨segments, ?_, ?_⟩
  · simp [unsent, queue, sent]
  · simpa [unreceived] using received

theorem Conveys.send (conveys : Conveys id peer labels before) {count : Nat}
    (offered : before.enqueueStream buffer ancillary = (.ok count, state))
    (sent : sentBy peer label = mark ancillary (buffer.take count))
    (unreceived : receivedBy id label = []) : Conveys id peer (labels ++ [label]) state := by
  obtain ⟨-, -, queue, -⟩ := enqueueStream_ok offered
  obtain ⟨segments, past, received⟩ := conveys
  refine ⟨segments, ?_, ?_⟩
  · simp [past, sent, queue]
  · simpa [unreceived] using received

theorem Neat.send (neat : Neat before) {count : Nat}
    (offered : before.enqueueStream buffer ancillary = (.ok count, state)) : Neat state := by
  obtain ⟨bounded, size, queue, fresh⟩ := enqueueStream_ok offered
  refine ⟨fresh neat.fresh, ?_⟩
  rw [size, queue, length_append, length_mark, length_take, Nat.min_eq_left bounded, neat.size]

/-- A peek returns what a receive would return, and leaves the socket as it is. -/
theorem receiveStream_peek (fresh : ∀ chunk ∈ state.recvStream, chunk.Fresh) (len : Nat)
    {peek : BitVec 64} (peeks : isPeek peek) (takes : isPeek flags = false) (control : Bool) :
    state.receiveStream len peek control =
      ((state.receiveStream len flags control).1, state, false) := by
  have same : peekLoop len control state.recvStream .start =
      (takeLoop len control state.recvStream .start state.recvSize).1 :=
    peekLoop_eq fresh fun _ => rfl
  simp only [receiveStream, takes, same]
  split
  · rfl
  split <;> rfl

/-- A receive takes a row of bytes off the queue. -/
theorem Neat.receive (neat : Neat before) {len : Nat} {control notifies : Bool}
    {received : Received D}
    (receive : before.receiveStream len flags control = (received, state, notifies)) :
    Neat state ∧ ∀ id peer labels, Conveys id peer labels before →
      Conveys id peer (labels ++ [(.call (.receive id len flags control), .received received)])
        state := by
  cases peek : isPeek flags with
  | true =>
    have takes : isPeek 0 = false := rfl
    rw [receiveStream_peek neat.fresh len peek takes] at receive
    cases receive
    refine ⟨neat, fun id peer labels conveys => conveys.keep rfl rfl ?_⟩
    cases (before.receiveStream len 0 control).1 <;> simp [receivedBy, peek]
  | false =>
    have draws := draws_receiveStream neat.fresh peek len control
    rw [receive] at draws
    cases draws with
    | drained => exact ⟨neat, fun id peer labels conveys => conveys.keep⟩
    | row plain fits queue size fresh =>
      rename_i segment
      refine ⟨⟨fresh, ?_⟩, ?_⟩
      · rw [size, neat.size, queue, length_append]
        exact Nat.add_sub_cancel_left ..
      rintro id peer labels ⟨segments, past, earlier⟩
      refine ⟨segments ++ [segment], ?_, ?_⟩
      · simp [sentBy, past, queue]
      · simp only [flatMap_append, flatMap_singleton, receivedBy, peek, and_self, if_true]
        exact rel_append earlier (.cons ⟨plain, rfl⟩ .nil)

end Queue

/-! ## Steps and runs -/

/-- Sockets refer to each other, and the queues of streams are counted. -/
structure Sound (network : Network D) : Prop where
  linked : network.Linked
  neat : ∀ id socket, network.sockets id = some socket → socket.kind = .stream → Neat socket.state

/-- A socket of a stream, if it exists, refers to this peer or to nobody. -/
structure Joined (id peer : SocketId) (network : Network D) : Prop where
  below : id < network.next
  refers : ∀ socket, network.sockets id = some socket → socket.kind = .stream ∧
    (socket.peer = some peer ∨ socket.peer = none)

section Step

variable {network after : Network D} {step : NetStep D} {reply : Reply D} {id peer : SocketId}
  {labels : List (DomainStep D × Reply D)}

theorem neat_moves (sound : Sound network) (moves : Moves network step reply after)
    (id : SocketId) (socket : UnixSocket D) (found : after.sockets id = some socket)
    (stream : socket.kind = .stream) : Neat socket.state := by
  cases moves with
  | unsent => exact sound.neat id socket found stream
  | sends begun source reached offered sent =>
    rcases Network.found_update found with ⟨rfl, rfl⟩ | found
    · have streams := sound.linked.sendTarget_kind source reached
      rw [UnixSocket.offer, ← streams, stream] at offered
      exact (sound.neat _ _ (Network.sendTarget_eq_ok reached) stream).send offered
    · exact sound.neat id socket found stream
  | receives asked there receive returned =>
    rcases Network.found_update found with ⟨rfl, rfl⟩ | found
    · rw [UnixSocket.receive, stream] at receive
      exact ((sound.neat _ _ there stream).receive receive).1
    · exact sound.neat id socket found stream
  | stays quiet still stays =>
    rcases stays.comes id socket found with ⟨-, blank⟩ | ⟨former, was, kept⟩
    · refine ⟨?_, ?_⟩
      · simp [blank.stream]
      · rw [blank.size, blank.stream]
        rfl
    · have neat := sound.neat id former was (kept.kind ▸ stream)
      refine ⟨?_, ?_⟩
      · rw [kept.stream]
        exact neat.fresh
      · rw [kept.size, kept.stream]
        exact neat.size

theorem Joined.moves (joined : Joined id peer network) (moves : Moves network step reply after)
    (apart : reply.client ≠ some id) : Joined id peer after := by
  refine ⟨joined.below.trans_le moves.next_le, fun socket found => ?_⟩
  obtain ⟨former, was, remains⟩ := moves.former joined.below found
  obtain ⟨stream, refers⟩ := joined.refers former was
  refine ⟨remains.kind.trans stream, ?_⟩
  rcases remains.peer with same | gone | joins | dgram
  · rw [same]
    exact refers
  · exact .inr gone
  · exact absurd joins apart
  · rw [stream] at dgram
    cases dgram

theorem sentBy_of_sending {sending : Sending D} (begun : step.sending = some sending)
    (sender : SocketId) (count : Nat) (queued : Option SocketId) :
    sentBy sender (.call step, .sent (.ok count) queued) =
      if sending.id = sender then mark sending.ancillary (sending.buffer.take count) else [] := by
  simp only [sentBy, begun]

theorem receivedBy_sent (id : SocketId) (step : NetStep D) (result : Except SysErr Nat)
    (queued : Option SocketId) : receivedBy id (.call step, .sent result queued) = [] := by
  cases step <;> rfl

/-- What is queued at an end comes from the other end, and what that sends goes nowhere
else. -/
theorem conveys_moves (sound : Sound network) (near : Joined id peer network)
    (far : Joined peer id network) (moves : Moves network step reply after)
    (past : ∀ socket, network.sockets id = some socket → Conveys id peer labels socket.state)
    (socket : UnixSocket D) (found : after.sockets id = some socket) :
    Conveys id peer (labels ++ [(.call step, reply)]) socket.state := by
  cases moves with
  | unsent sent nothing =>
    rename_i result
    subst sent
    refine (past socket found).keep rfl ?_ (receivedBy_sent id step ..)
    cases result with
    | error => rfl
    | ok count =>
      cases nothing count rfl
      cases begun : step.sending with
      | none => simp only [sentBy, begun]
      | some sending => rw [sentBy_of_sending begun, take_zero, mark_nil, ite_self]
  | sends begun source reached offered sent =>
    rename_i sending sender receiver target count state
    subst sent
    have there := Network.sendTarget_eq_ok reached
    by_cases here : target = id
    · subst here
      cases (update_self ..).symm.trans found
      obtain ⟨stream, refers⟩ := near.refers receiver there
      have same : receiver.kind = sender.kind := sound.linked.sendTarget_kind source reached
      have oriented : sender.kind.isConnectionOriented := by
        rw [← same, stream]
        rfl
      have back : receiver.peer = some sending.id :=
        sound.linked.paired _ _ _ _ source (Network.sendTarget_peer oriented reached) there oriented
      have meant : sending.id = peer := by
        rw [back] at refers
        simpa using refers
      rw [UnixSocket.offer, ← same, stream] at offered
      refine (past receiver there).send offered ?_ (receivedBy_sent ..)
      rw [sentBy_of_sending begun, if_pos meant]
    · refine (past socket ((update_of_ne (Ne.symm here) ..).symm.trans found)).keep rfl ?_
        (receivedBy_sent ..)
      rw [sentBy_of_sending begun, if_neg]
      rintro rfl
      obtain ⟨stream, refers⟩ := far.refers sender source
      have meant : sender.peer = some target :=
        Network.sendTarget_peer (by rw [stream]; rfl) reached
      rw [meant] at refers
      simp [here] at refers
  | receives asked there receive returned =>
    rename_i receiver former len flags control notifies received state
    subst asked returned
    by_cases here : receiver = id
    · subst here
      cases (update_self ..).symm.trans found
      have stream := (near.refers _ there).1
      rw [UnixSocket.receive, stream] at receive
      exact ((sound.neat _ _ there stream).receive receive).2 _ _ _ (past _ there)
    · refine (past socket ((update_of_ne (Ne.symm here) ..).symm.trans found)).keep rfl rfl ?_
      cases received with
      | ready result => simp [receivedBy, here]
      | refused | drained => rfl
  | stays quiet still stays =>
    rcases stays.comes id socket found with ⟨fresh, -⟩ | ⟨former, was, kept⟩
    · exact absurd near.below fresh.not_gt
    · refine (past former was).keep kept.stream ?_ ?_
      · cases reply with
        | sent result queued => exact absurd rfl (quiet result queued)
        | _ => rfl
      · cases reply with
        | received result => exact absurd rfl (still result)
        | _ => cases step <;> rfl

end Step

/-- The two ends of a stream, and what has happened since they were connected. -/
structure Conversation (id peer : SocketId) (labels : List (DomainStep D × Reply D))
    (domain : UnixDomain D) : Prop where
  sound : Sound domain.network
  near : Joined id peer domain.network
  far : Joined peer id domain.network
  conveys : ∀ socket, domain.sockets id = some socket →
    Conveys id peer labels socket.state

section Run

variable {before after last : UnixDomain D} {label : DomainStep D × Reply D}
  {labels : List (DomainStep D × Reply D)} {id peer client server : SocketId}

theorem sound_turns (sound : Sound before.network) (turns : Turns before label after) :
    Sound after.network := by
  refine ⟨turns.linked sound.linked, ?_⟩
  cases turns with
  | call performs => exact neat_moves sound (.of_perform performs)
  | checkPeer => exact sound.neat

theorem sound_run (run : Run Performs empty labels last) : Sound last.network := by
  refine invariant_of_run (P := fun domain => Sound domain.network) run ?_
    ⟨Network.linked_empty, fun _ _ found => nomatch found⟩
  exact fun _ _ _ => sound_turns

theorem Conversation.turns (conversation : Conversation id peer labels before)
    (turns : Turns before label after)
    (apart : label.2.client ≠ some id ∧ label.2.client ≠ some peer) :
    Conversation id peer (labels ++ [label]) after := by
  obtain ⟨sound, near, far, conveys⟩ := conversation
  have sounds := sound_turns sound turns
  cases turns with
  | call performs =>
    have moves := Moves.of_perform performs
    exact ⟨sounds, near.moves moves apart.1, far.moves moves apart.2,
      conveys_moves sound near far moves conveys⟩
  | checkPeer => exact ⟨sounds, near, far, fun socket found => (conveys socket found).keep⟩

/-- A connection begins with nothing sent, if nothing was left in the queue of the client. -/
theorem conversation_of_connected {step : DomainStep D} (sound : Sound before.network)
    (joins : before.Performs (step, .connected client server) after)
    (stream : ∀ socket, after.sockets client = some socket → socket.kind = .stream)
    (clear : ∀ socket, before.sockets client = some socket → socket.recvStream = []) :
    Conversation client server [] after ∧ Conversation server client [] after := by
  have turns := joins.turns
  have sounds := sound_turns sound turns
  generalize known : (step, Reply.connected client server) = label at turns
  cases turns with
  | checkPeer => cases known
  | call performs =>
    rename_i called notified network keeps
    obtain ⟨-, same⟩ := Prod.mk.inj known
    obtain ⟨fresh, near, found, refers⟩ := Network.found_of_connected performs same.symm
    have linked := sounds.linked
    have joined : Joined client server network := by
      refine ⟨linked.below client near found, fun socket there => ?_⟩
      cases found.symm.trans there
      exact ⟨stream near found, .inl refers⟩
    have back : Joined server client network := by
      refine ⟨linked.peers client near server found refers, fun socket there => ?_⟩
      have same := linked.kinds client near server socket found refers there
      have oriented : near.kind.isConnectionOriented := by
        rw [stream near found]
        rfl
      exact ⟨same.trans (stream near found),
        .inl (linked.paired client near server socket found refers there oriented)⟩
    have moves := Moves.of_perform performs
    rw [← same] at moves
    cases moves with
    | unsent sent | sends _ _ _ _ sent | receives _ _ _ sent => cases sent
    | stays quiet still stays =>
      refine ⟨⟨sounds, joined, back, fun socket there => ⟨[], ?_, .nil⟩⟩,
        sounds, back, joined, fun socket there => ⟨[], ?_, .nil⟩⟩
      · rcases stays.comes client socket there with ⟨-, blank⟩ | ⟨former, was, kept⟩
        · rw [blank.stream]
          rfl
        · rw [kept.stream, clear former was]
          rfl
      · rcases stays.comes server socket there with ⟨-, blank⟩ | ⟨former, was, -⟩
        · rw [blank.stream]
          rfl
        · exact absurd (sound.linked.below server former was) fresh.not_gt

/-- The bytes that the receives of a socket have returned. -/
def bytesReceived (id : SocketId) (labels : List (DomainStep D × Reply D)) : List Byte :=
  (labels.flatMap (receivedBy id)).flatMap fun receive => receive.2.bytes

theorem bytes_of_hands {receives : List (Bool × SocketReceive D)}
    {segments : List (List (Marked D))}
    (hands : List.Forall₂ Hands receives segments) :
    receives.flatMap (fun receive => receive.2.bytes) = segments.flatten.map Prod.fst := by
  induction hands with
  | nil => rfl
  | cons first _ ih =>
    rw [flatMap_cons, ih, first.2, flatten_cons, map_append]
    rfl

/-- From when two sockets are connected until one of them is connected again, what an
end has received and what is queued for it are together what the other has sent, if
nothing was left in the queue of the client.  Each receive returns a row of these
bytes and the ancillary data of the first one, and no byte after the first carries
any. -/
theorem stream_integrity {earlier : List (DomainStep D × Reply D)} {step : DomainStep D}
    (past : Run Performs empty earlier before)
    (joins : before.Performs (step, .connected client server) after)
    (run : Run Performs after labels last)
    (stream : ∀ socket, after.sockets client = some socket → socket.kind = .stream)
    (clear : ∀ socket, before.sockets client = some socket → socket.recvStream = [])
    (apart : ∀ label ∈ labels, label.2.client ≠ some client ∧ label.2.client ≠ some server)
    (ends : id = client ∧ peer = server ∨ id = server ∧ peer = client) (socket : UnixSocket D)
    (found : last.sockets id = some socket) :
    bytesReceived id labels <+: (labels.flatMap (sentBy peer)).map Prod.fst ∧
    (∃ segments : List (List (Marked D)),
      labels.flatMap (sentBy peer) = segments.flatten ++ unread socket.recvStream ∧
        List.Forall₂ Hands (labels.flatMap (receivedBy id)) segments) ∧
    socket.recvSize = (unread socket.recvStream).length ∧
    ∀ len peek flags control, isPeek peek → isPeek flags = false →
      socket.receive len peek control =
        ((socket.receive len flags control).1, socket.state, false) := by
  obtain ⟨forth, back⟩ := conversation_of_connected (sound_run past) joins stream clear
  have begun : Conversation id peer [] after := by
    rcases ends with ⟨rfl, rfl⟩ | ⟨rfl, rfl⟩
    · exact forth
    · exact back
  have unjoined : ∀ label ∈ labels, label.2.client ≠ some id ∧ label.2.client ≠ some peer := by
    rcases ends with ⟨rfl, rfl⟩ | ⟨rfl, rfl⟩
    · exact apart
    · exact fun label member => (apart label member).symm
  obtain ⟨sound, near, -, conveys⟩ := (run.guarded unjoined).history
    (fun _ _ _ _ conversation moves => conversation.turns moves.2.turns moves.1) begun
  have kind := (near.refers socket found).1
  have neat := sound.neat id socket found kind
  have split := conveys socket found
  refine ⟨?_, split, neat.size, ?_⟩
  · obtain ⟨segments, sent, received⟩ := split
    rw [bytesReceived, bytes_of_hands received, sent, map_append]
    exact prefix_append _ _
  · intro len peek flags control peeks takes
    rw [UnixSocket.receive, UnixSocket.receive, kind]
    exact receiveStream_peek neat.fresh len peeks takes control

end Run

/-- A socket waits for connections, and another one is there. -/
def listenSteps : List (DomainStep Nat) :=
  [.call (.socket .stream ⟨1, 0, 0⟩), .call (.bind 0 Network.rendezvous), .call (.listen 0 1),
    .call (.socket .stream ⟨1, 0, 0⟩)]

/-- Two messages, the first one with a descriptor, are read in two pieces. -/
def rightsSteps : List (DomainStep Nat) :=
  [.call (.accept 0), .call (.sendMsg 1 ⟨none, [1, 2, 3], [7], ⟨1, 0, 0⟩, none⟩ false none),
    .call (.sendTo 1 [4] none none), .call (.receive 2 2 msgPeek true),
    .call (.receive 2 2 0 true), .call (.receive 2 8 0 true)]

def rightsReceived : List (Bool × SocketReceive Nat) :=
  [(true, ⟨none, [7], none, 0, [1, 2]⟩), (true, ⟨none, [], none, 0, [3, 4]⟩)]

theorem stream_integrity_rights :
    ∃ earlier before after labels last socket,
      Run Performs (empty : UnixDomain Nat) earlier before ∧
      before.Performs (.call (.connect 1 Network.rendezvous none), .connected 1 2) after ∧
      Run Performs after labels last ∧ last.sockets 2 = some socket ∧
      labels.flatMap (receivedBy 2) = rightsReceived ∧
      bytesReceived 2 labels <+: (labels.flatMap (sentBy 1)).map Prod.fst := by
  obtain ⟨earlier, before, reply, after, past, joins, seen⟩ :=
    exists_of_execute_bind perform (empty : UnixDomain Nat) listenSteps
      (.call (.connect 1 Network.rendezvous none)) (fun before reply after =>
        (reply, (before.sockets 1).map (·.recvStream),
          (after.sockets 1).map (·.kind),
          (execute perform after rightsSteps).map fun (labels, last) =>
            (labels.flatMap (receivedBy 2), labels.map (·.2.client),
              (last.sockets 2).isSome)))
      (show _ = some (.connected 1 2, some [], some .stream,
        some (rightsReceived, List.replicate 6 none, true)) from rfl)
  simp only [Prod.mk.injEq] at seen
  obtain ⟨rfl, clear, stream, rest⟩ := seen
  obtain ⟨⟨labels, last⟩, performed, values⟩ := Option.map_eq_some_iff.mp rest
  simp only [Prod.mk.injEq] at values
  obtain ⟨received, apart, present⟩ := values
  obtain ⟨socket, found⟩ := Option.isSome_iff_exists.mp present
  have run : Run Performs after labels last := run_of_execute performed
  refine ⟨earlier, before, after, labels, last, socket, run_of_execute past, joins, run, found,
    received, ?_⟩
  refine (stream_integrity (run_of_execute past) joins run ?_ ?_ ?_ (.inr ⟨rfl, rfl⟩)
    socket found).1
  · intro socket there
    simpa [there] using stream
  · intro socket there
    simpa [there] using clear
  · intro label member
    have none := List.eq_of_mem_replicate (apart ▸ mem_map_of_mem member)
    simp [none]

/-- A byte is left in the queue of a socket whose peer is gone, and another one waits for
connections. -/
def leftoverSteps : List (DomainStep Nat) :=
  [.call (.socketPair .stream ⟨1, 0, 0⟩), .call (.sendTo 1 [5] none none), .call (.close 1),
    .call (.socket .stream ⟨1, 0, 0⟩), .call (.bind 2 Network.rendezvous), .call (.listen 2 1)]

/-- The socket that has been connected again receives a byte that its new peer has never
sent. -/
theorem connect_keeps_old_bytes :
    ∃ earlier before after labels last, Run Performs (empty : UnixDomain Nat) earlier before ∧
      before.Performs (.call (.connect 0 Network.rendezvous none), .connected 0 3) after ∧
      (after.sockets 0).map (·.kind) = some .stream ∧ Run Performs after labels last ∧
      labels.map (·.2.client) = [none] ∧
      labels.flatMap (sentBy 3) = [] ∧ bytesReceived 0 labels = [5] := by
  obtain ⟨earlier, before, reply, after, past, joins, seen⟩ :=
    exists_of_execute_bind perform (empty : UnixDomain Nat) leftoverSteps
      (.call (.connect 0 Network.rendezvous none)) (fun _ reply after =>
        (reply, (after.sockets 0).map (·.kind),
          (execute perform after [.call (.receive 0 8 0 false)]).map fun (labels, _) =>
            (labels.map (·.2.client), labels.flatMap (sentBy 3), bytesReceived 0 labels)))
      (show _ = some (.connected 0 3, some .stream, some ([none], [], ([5] : List Byte))) from rfl)
  simp only [Prod.mk.injEq] at seen
  obtain ⟨rfl, stream, rest⟩ := seen
  obtain ⟨⟨labels, last⟩, performed, values⟩ := Option.map_eq_some_iff.mp rest
  simp only [Prod.mk.injEq] at values
  exact ⟨earlier, before, after, labels, last, run_of_execute past, joins, stream,
    run_of_execute performed, values⟩

end UnixDomain

end AetherKernel.Net
