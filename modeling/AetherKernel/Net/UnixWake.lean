import AetherKernel.Net.UnixConnect

/-!
# Blocked senders and connectors

A socket whose send or whose pending connection would block hears about it
when another socket changes that.
-/

namespace AetherKernel.Net.Network

open Lib List UnixSocketState PollEvents

variable {D : Type} {network before after : Network D} {notified : Notified}
  {id other sender : SocketId} {socket far : UnixSocket D} {state : UnixSocketState D}
  {buffer : List Byte} {ancillary : Option (UnixAncillary D)} {peer : Option SocketId}
  {condition : Prop}

/-! ## Closing a socket -/

/-- When a socket is gone, its peer may have to forget it. -/
theorem dropSocket_eq (network : Network D) (id : SocketId) (socket : UnixSocket D) :
    (network.dropSocket id socket).1 = network.forget id socket.boundAddress ∨
      ∃ peer far, socket.peer = some peer ∧ far.peer = some id ∧
        (network.forget id socket.boundAddress).sockets peer = some far ∧
        (network.dropSocket id socket).1 = (network.forget id socket.boundAddress).update peer
          far { far.state with peer := none } := by
  unfold dropSocket
  dsimp only
  split
  · exact .inl rfl
  · rename_i peer far upgraded
    obtain ⟨refers, there⟩ := upgrade_eq_some upgraded
    split
    · exact .inr ⟨peer, far, refers, ‹_›, there, rfl⟩
    · exact .inl rfl

/-- Who still exists has existed. -/
theorem found_dropSocket {now : UnixSocket D}
    (known : (network.dropSocket id socket).1.sockets other = some now) :
    ∃ former, network.sockets other = some former ∧ now.kind = former.kind := by
  rcases dropSocket_eq network id socket with same | ⟨peer, far, -, -, there, same⟩
  · rw [same] at known
    exact ⟨now, (found_forget known).2, rfl⟩
  · rw [same] at known
    rcases found_update known with ⟨rfl, rfl⟩ | known
    · exact ⟨far, (found_forget there).2, rfl⟩
    · exact ⟨now, (found_forget known).2, rfl⟩

theorem peer_is_told {peer : SocketId} (elsewhere : peer ≠ id)
    (refers : socket.peer = some peer) (known : network.sockets peer = some far) :
    Writable (network.dropSocket id socket).2 peer := by
  refine ⟨.hangup, ?_, rfl⟩
  unfold dropSocket
  simp [refers, upgrade, forget, elsewhere, known]

theorem connector_is_told (elsewhere : other ≠ id)
    (waits : other ∈ socket.pendingConnects) (known : network.sockets other = some far) :
    Writable (network.dropSocket id socket).2 other := by
  refine ⟨write ||| error ||| hup, ?_, rfl⟩
  have listed : (other, write ||| error ||| hup) ∈
      ((network.forget id socket.boundAddress).livePendingConnects socket.state).map
        (·, write ||| error ||| hup) := by
    simp [livePendingConnects, forget, waits, elsewhere, known]
  unfold dropSocket
  dsimp only
  split
  · exact listed
  · exact mem_append_left _ listed

/-- The queue of `id` is full, and `sender` sends to it. -/
def Blocks (network : Network D) (id sender : SocketId) : Prop :=
  network.sendBlocks sender ∧
    ∃ client, network.sockets sender = some client ∧ client.peer = some id

/-- `id` refers to every datagram socket that its full queue blocks. -/
def Answers (network : Network D) (id : SocketId) : Prop :=
  ∀ sender socket, network.Blocks id sender → network.sockets id = some socket →
    socket.kind = .dgram → socket.peer = some sender

/-- A step that makes room for a blocked socket is one that the socket hears
about.  A queue holds no more than its limit when it is read, a larger limit is
not set while somebody is blocked, and a datagram socket refers to whom it blocks. -/
def Considerate (network : Network D) (label : NetStep D × Notified) : Prop :=
  match label.1 with
  | .listen id backlog =>
    ∀ connector socket, network.connectBlocks connector id → network.sockets id = some socket →
      (if backlog = 0 then 16 else backlog.toInt.toNat) ≤ socket.backlog.length
  | .receive id _ flags _ =>
    isPeek flags = false → network.Answers id ∧
      ∀ sender socket, network.Blocks id sender → network.sockets id = some socket →
        socket.recvSize ≤ socket.rcvbuf
  | .setsockopt id _ optname value =>
    optname = soRcvbuf ∨ optname = soRcvbufforce →
      ∀ sender socket, network.Blocks id sender → network.sockets id = some socket →
        normalizeSocketBuffer (Bytes.wordAt 32 value 0) ≤ socket.recvSize
  | .shutdown id _ | .close id => network.Answers id
  | _ => True

variable (linked : network.Linked) (found : network.sockets id = some socket)
include linked found

/-- Whom the queue of a socket blocks, the socket refers to. -/
theorem peer_of_blocks (answers : network.Answers id) (blocks : network.Blocks id sender) :
    socket.peer = some sender := by
  obtain ⟨client, known, refers⟩ := blocks.2
  have same := linked.kinds sender client id socket known refers found
  cases kind : socket.kind with
  | dgram => exact answers sender socket blocks found kind
  | stream | seqpacket =>
    refine linked.paired sender client id socket known refers found ?_
    rw [← same, kind]
    rfl

theorem fair_dropSocket : Fair (network.Answers id) network (network.dropSocket id socket).2
      (network.dropSocket id socket).1 := by
  constructor
  · have gone : (network.forget id socket.boundAddress).Linked := linked.forget
    rcases dropSocket_eq network id socket with same | ⟨peer, far, -, back, there, same⟩
    · rw [same]
      exact gone
    rw [same]
    refine gone.update there (.inr ⟨fun other client known refers => ?_, nofun⟩) (.inl rfl)
      (fun _ _ _ _ held => held) fun _ held => held
    -- The peer referred to the socket that is gone, so that no other connection is to it.
    by_contra oriented
    have paired := gone.paired other client peer far known refers there (by simpa using oriented)
    exact (found_forget known).1 (Option.some.inj (paired.symm.trans back))
  intro answers
  have gone : Told network (network.dropSocket id socket).2
      (network.forget id socket.boundAddress) := by
    refine told_forget found (fun full sender client known refers elsewhere => ?_)
      fun _ connector client known refers elsewhere => connector_is_told elsewhere
        (linked.waiting connector client id socket known refers found) known
    have blocks := sendBlocks_iff.mpr ⟨client, id, socket, known, refers, found, full⟩
    exact peer_is_told elsewhere
      (peer_of_blocks linked found answers ⟨blocks, client, known, refers⟩)
      known
  rcases dropSocket_eq network id socket with same | ⟨peer, far, refers, back, there, same⟩
  · rw [same]
    exact gone
  rw [same]
  obtain ⟨elsewhere, known⟩ := found_forget there
  exact gone.trans linked (told_update there (.inr (peer_is_told elsewhere refers known))
    (fun _ => .inl) .inl .inl)

omit linked in
/-- Connections of the backlog have one sender only. -/
theorem answers_of_oriented (oriented : socket.kind.isConnectionOriented) : network.Answers id := by
  intro sender other blocks known dgram
  cases found.symm.trans known
  rw [dgram] at oriented
  nomatch oriented

omit linked found in
theorem fair_dropBacklog {start : Network D} {members : List SocketId} (linked : start.Linked)
    (fair : Fair condition start notified network)
    (oriented : ∀ member ∈ members, ∀ socket, network.sockets member = some socket →
      socket.kind.isConnectionOriented) :
    Fair condition start (dropBacklog members (network, notified)).2
      (dropBacklog members (network, notified)).1 := by
  induction members generalizing network notified with
  | nil => exact fair
  | cons member members ih =>
    obtain ⟨first, rest⟩ := forall_mem_cons.mp oriented
    unfold dropBacklog
    cases found : network.sockets member with
    | none => exact ih fair rest
    | some socket =>
      have dropped := fair_dropSocket fair.linked found
      have told := dropped.told (answers_of_oriented found (first socket found))
      refine ih ⟨dropped.linked, fun holds => ((fair.told holds).mono (subset_append_left ..)).trans
        linked (told.mono (subset_append_right ..))⟩ fun other belongs now known => ?_
      obtain ⟨former, was, kind⟩ := found_dropSocket known
      rw [kind]
      exact rest other belongs former was

theorem fair_close : Fair (network.Answers id) network (network.close id socket).notified
      (network.close id socket).network := by
  refine fair_dropBacklog linked (fair_dropSocket linked found) ?_
  intro member belongs now known
  obtain ⟨former, was, kind⟩ := found_dropSocket known
  rw [kind]
  exact linked.oriented id socket found member belongs former was

/-! ## The other operations -/

omit linked in
theorem full_of_blocks (blocks : network.Blocks id sender) : socket.Full := by
  obtain ⟨waits, client, known, refers⟩ := blocks
  obtain ⟨_, _, target, same, goes, there, full⟩ := sendBlocks_iff.mp waits
  cases known.symm.trans same
  cases refers.symm.trans goes
  cases found.symm.trans there
  exact full

/-- A socket has changed; what it refers to and its backlog are the same. -/
def Unmoved (former state : UnixSocketState D) : Prop :=
  state = { former with
    boundAddress := state.boundAddress, recvStream := state.recvStream
    recvPackets := state.recvPackets, recvSize := state.recvSize, passcred := state.passcred
    sndbuf := state.sndbuf, rcvbuf := state.rcvbuf, shutRd := state.shutRd
    shutWr := state.shutWr }

omit linked found in
theorem unmoved_of_requeued {former : UnixSocketState D} (requeued : Requeued former state) :
    Unmoved former state := by
  rw [requeued]
  rfl

omit linked found in
theorem unmoved_of_retuned {former : UnixSocketState D} (retuned : Retuned former state) :
    Unmoved former state := by
  rw [retuned]
  rfl

theorem fair_update (same : Unmoved socket.state state)
    (full : condition → ∀ sender, network.Blocks id sender → state.Full ∨
      Writable notified sender) :
    Fair condition network notified (network.update id socket state) := by
  constructor
  · refine linked.update found (.inl ?_) (.inl ?_) (fun _ _ _ _ member => ?_) fun _ member => ?_
    · rw [same]
    · rw [same]
    · rw [same]
      exact member
    · rw [same] at member
      exact member
  · intro holds
    refine told_update found (.inl ?_) (fun _ pending => .inl ?_) ?_ fun crowded => .inl ?_
    · rw [same]
    · rw [same] at pending
      exact pending
    · intro was
      refine or_iff_not_imp_left.mpr fun room sender client known refers => ?_
      have blocks : network.Blocks id sender :=
        ⟨sendBlocks_iff.mpr ⟨client, id, socket, known, refers, found, was⟩, client, known, refers⟩
      exact (full holds sender blocks).resolve_left room
    · rw [same]
      exact crowded

omit found

theorem fair_enqueue {target : SocketId × UnixSocket D}
    (found : network.sockets target.1 = some target.2) :
    Fair condition network (network.enqueue socket target buffer ancillary).notified
      (network.enqueue socket target buffer ancillary).network := by
  unfold enqueue
  split
  · exact .refl linked
  rename_i count state offered
  obtain ⟨requeued, longer⟩ := offer_spec offered
  refine fair_update linked found (unmoved_of_requeued requeued) fun _ sender blocks => .inl ?_
  obtain ⟨reads, full⟩ := full_of_blocks found blocks
  constructor
  · rw [requeued]
    exact reads
  · rw [show state.rcvbuf = target.2.rcvbuf by rw [requeued]]
    exact full.trans longer

theorem fair_sendToSocket {address : Option (List Byte)} :
    Fair condition network (network.sendToSocket socket buffer address peer).notified
      (network.sendToSocket socket buffer address peer).network := by
  unfold sendToSocket
  split
  · exact .refl linked
  · split
    · exact .refl linked
    · exact fair_enqueue linked (sendTarget_eq_ok ‹_›)

theorem fair_sendMsgToSocket {message : SocketMessage D} {passcred : Bool} :
    Fair condition network (network.sendMsgToSocket socket message passcred peer).notified
      (network.sendMsgToSocket socket message passcred peer).network := by
  unfold sendMsgToSocket
  split
  · exact .refl linked
  · dsimp only
    split
    · exact .refl linked
    · exact fair_enqueue linked (sendTarget_eq_ok ‹_›)

include found

omit linked in
theorem update_state : network.update id socket socket.state = network := by
  unfold update
  rw [← found, Function.update_eq_self]

/-- A receive tells the only socket that its queue blocks. -/
theorem fair_receiveOn {len : Nat} {flags : BitVec 64} {control : Bool} :
    Fair (network.Considerate (.receive id len flags control, notified)) network
      (network.receiveOn id socket len flags control).1
      (network.receiveOn id socket len flags control).2 := by
  unfold receiveOn
  dsimp only
  generalize run : socket.receive len flags control = result
  obtain ⟨received, state, notifies⟩ := result
  obtain ⟨requeued, rfl | ⟨takes, rfl⟩, -⟩ := receive_spec run
  · rw [update_state found]
    exact .refl linked
  have peer : state.peer = socket.peer := by rw [requeued]
  refine fair_update linked found (unmoved_of_requeued requeued) fun considerate sender blocks =>
    .inr ⟨.write, ?_, rfl⟩
  obtain ⟨answers, fits⟩ := considerate takes
  obtain ⟨client, known, -⟩ := blocks.2
  have exactly := le_antisymm (fits sender socket blocks found) (full_of_blocks found blocks).2
  have back := peer_of_blocks linked found answers blocks
  simp [exactly, peer, back, upgrade, known]

theorem fair_setsockopt {level optname : BitVec 32} {value : List Byte} :
    Fair (network.Considerate (.setsockopt id level optname value, notified)) network notified
      (network.update id socket (socket.setsockopt level optname value).2) := by
  obtain ⟨retuned, limit⟩ := setsockopt_spec socket.state level optname value
  generalize (socket.setsockopt level optname value).2 = state at *
  refine fair_update linked found (unmoved_of_retuned retuned) fun considerate sender blocks =>
    .inl ?_
  obtain ⟨reads, full⟩ := full_of_blocks found blocks
  constructor
  · rw [retuned]
    exact reads
  rw [show state.recvSize = socket.recvSize by rw [retuned]]
  rcases limit with same | ⟨asked, same⟩
  · rw [same]
    exact full
  · rw [same]
    exact considerate asked sender socket blocks found

theorem fair_shutdown {how : BitVec 32} :
    Fair (network.Answers id) network (network.shutdown id socket how).notified
      (network.shutdown id socket how).network := by
  have finish (shutRd shutWr : Bool) : Fair (network.Answers id) network ((id, .hangup) ::
        ((network.upgrade socket.peer).map fun peer => (peer.1, hangup)).toList)
      (network.update id socket { socket.state with shutRd, shutWr }) := by
    refine fair_update linked found rfl fun answers sender blocks => .inr ⟨.hangup, ?_, rfl⟩
    obtain ⟨client, known, -⟩ := blocks.2
    have back := peer_of_blocks linked found answers blocks
    simp [back, upgrade, known]
  unfold shutdown
  dsimp only
  split
  · exact .refl linked
  split
  · exact finish true _
  split
  · exact finish _ true
  split
  · exact finish true true
  · exact .refl linked

theorem fair_listen {backlog : BitVec 32} :
    Fair (network.Considerate (.listen id backlog, notified)) network
      (network.listen id socket backlog).notified (network.listen id socket backlog).network := by
  unfold listen
  split
  · exact .refl linked
  constructor
  · exact linked.update found (.inl rfl) (.inl rfl) (fun _ _ _ _ held => held) fun _ held => held
  · intro considerate
    refine told_update found (.inl rfl) (fun _ => .inl) .inl fun was => ?_
    refine or_iff_not_imp_left.mpr fun room connector client known refers => absurd ⟨rfl, ?_⟩ room
    have blocks := connectBlocks_iff.mpr ⟨client, socket, known, refers, found, was⟩
    exact (Bool.or_eq_true _ _).mpr
      (.inr (decide_eq_true (considerate connector socket blocks found)))

theorem fair_accept :
    Fair condition network (network.accept id socket).notified
      (network.accept id socket).network := by
  unfold accept
  split
  · exact .refl linked
  split
  · exact .refl linked
  rename_i accepted backlog queued
  refine ⟨linked.update found (.inl rfl) (.inl rfl) ?_ ?_,
    fun _ => told_update found (.inl rfl) (fun _ => .inl) .inl ?_⟩
  · intro other client known _ member
    simp [livePendingConnects, member, known]
  · intro member belongs
    rw [queued]
    exact mem_cons_of_mem _ belongs
  intro _
  right
  intro connector client known refers
  refine ⟨.write, ?_, rfl⟩
  have waits := linked.waiting connector client id socket known refers found
  simp [livePendingConnects, waits, known]

theorem fair_bind {address : List Byte} :
    Fair condition network (network.bind id socket address).notified
      (network.bind id socket address).network := by
  unfold bind
  split
  · exact .refl linked
  split
  · exact .refl linked
  split
  · exact .refl linked
  rename_i name _ _ _
  have renamed : { network with bound := Function.update network.bound name (some id) }.Linked :=
    ⟨linked.below, linked.peers, linked.targets, linked.members, linked.kinds, linked.paired,
      linked.waiting, linked.oriented⟩
  refine Fair.trans linked ⟨renamed, fun _ => told_rename _⟩
    (fair_update renamed found rfl fun _ _ blocks => .inl (full_of_blocks ?_ blocks))
  exact found

/-! ## Runs -/

omit linked found

theorem performs_held {f : UnixSocket D → Notified × Network D} {outcome : Notified × Network D}
    (performs : (network.held id).map f = some outcome) :
    ∃ socket, network.sockets id = some socket ∧ f socket = outcome := by
  obtain ⟨socket, held, same⟩ := Option.map_eq_some_iff.mp performs
  unfold Network.held at held
  split at held
  · exact ⟨socket, held, same⟩
  · nomatch held

theorem linked_empty : (empty : Network D).Linked := by
  constructor <;> simp [empty]

theorem fair_performs {label : NetStep D × Notified} (linked : before.Linked)
    (performs : Performs before label after) :
    Fair (before.Considerate label) before label.2 after := by
  obtain ⟨step, notified⟩ := label
  cases step with
  | socket kind owner =>
    cases performs
    exact ⟨linked.insert rfl rfl rfl, fun _ => told_insert (linked.free le_rfl) rfl⟩
  | socketPair kind owner =>
    cases performs
    refine ⟨linked_createPair linked, fun _ => .trans linked (told_insert (linked.free le_rfl) ?_)
      (told_insert ?_ ?_)⟩
    · rfl
    · exact (Function.update_of_ne (Nat.succ_ne_self _) ..).trans (linked.free (Nat.le_succ _))
    · rfl
  | bind id address =>
    obtain ⟨socket, found, ⟨⟩⟩ := performs_held performs
    exact fair_bind linked found
  | listen id backlog =>
    obtain ⟨socket, found, ⟨⟩⟩ := performs_held performs
    exact fair_listen linked found
  | connect id address peer =>
    unfold Performs perform at performs
    dsimp only at performs
    split at performs
    · nomatch performs
    · obtain ⟨socket, found, ⟨⟩⟩ := performs_held performs
      exact fair_connectSocket linked (Bool.not_eq_true _ ▸ ‹_›)
  | accept id =>
    obtain ⟨socket, found, ⟨⟩⟩ := performs_held performs
    exact fair_accept linked found
  | sendTo id buffer address peer =>
    obtain ⟨socket, found, ⟨⟩⟩ := performs_held performs
    exact fair_sendToSocket linked
  | sendMsg id message passcred peer =>
    obtain ⟨socket, found, ⟨⟩⟩ := performs_held performs
    exact fair_sendMsgToSocket linked
  | receive id len flags control =>
    obtain ⟨socket, found, ⟨⟩⟩ := performs_held performs
    exact fair_receiveOn linked found
  | setsockopt id level optname value =>
    obtain ⟨socket, found, ⟨⟩⟩ := performs_held performs
    exact fair_setsockopt linked found
  | shutdown id how =>
    obtain ⟨socket, found, ⟨⟩⟩ := performs_held performs
    exact fair_shutdown linked found
  | close id =>
    obtain ⟨socket, found, ⟨⟩⟩ := performs_held performs
    exact fair_close linked found

/-- Where steps are considerate, a step that ends what a send or a pending
connection waits for tells the socket that it can write. -/
theorem no_lost_writer_wakeup {labels : List (NetStep D × Notified)} {label : NetStep D × Notified}
    (run : Run (Guarded Considerate Performs) empty labels before)
    (performs : Guarded Considerate Performs before label after) (id : SocketId) :
    (before.sendBlocks id → (after.sockets id).isSome → after.sendBlocks id = false →
      Writable label.2 id) ∧
    ∀ target, before.connectBlocks id target → after.pends id target →
      after.connectBlocks id target = false → Writable label.2 id := by
  have linked : before.Linked := run.invariant
    (fun _ _ _ linked performs => (fair_performs linked performs.2).linked)
    linked_empty
  have told := (fair_performs linked performs.2).told performs.1
  constructor
  · intro blocks lives free
    exact (told.sends id blocks lives).resolve_left (by simp [free])
  · intro target blocks pends free
    exact (told.connects id target blocks pends).resolve_left (by simp [free])

/-! ## A few sockets -/

/-- A check that is enough for a step to be considerate. -/
def gentle (network : Network D) (step : NetStep D) : Bool :=
  match step with
  | .listen id _ => (network.sockets id).all (!·.listening)
  | .setsockopt id .. =>
    (network.sockets id).all fun socket => socket.recvSize < socket.rcvbuf
  | .receive id .. | .shutdown id _ | .close id =>
    (network.sockets id).all fun socket =>
      socket.kind ≠ .dgram && socket.recvSize ≤ socket.rcvbuf
  | _ => true

theorem considerate_of_gentle (network : Network D) (step : NetStep D) (notified : Notified)
    (allowed : gentle network step) : Considerate network (step, notified) := by
  have answers {id : SocketId} (orderly : (network.sockets id).all fun socket =>
      socket.kind ≠ .dgram && socket.recvSize ≤ socket.rcvbuf) :
      network.Answers id := by
    intro sender socket _ found dgram
    simp [found, dgram] at orderly
  cases step with
  | listen id backlog =>
    intro connector socket blocks found
    obtain ⟨_, listener, -, -, there, crowded⟩ := connectBlocks_iff.mp blocks
    simp [gentle, there, crowded.1] at allowed
  | setsockopt id level optname value =>
    intro _ sender socket blocks found
    have full := (full_of_blocks found blocks).2
    simp only [gentle, found, Option.all_some, decide_eq_true_eq] at allowed
    exact absurd full allowed.not_ge
  | receive id len flags control =>
    refine fun _ => ⟨answers allowed, fun sender socket _ found => ?_⟩
    simp only [gentle, found, Option.all_some, Bool.and_eq_true, decide_eq_true_eq] at allowed
    exact allowed.2
  | shutdown | close => exact answers allowed
  | socket | socketPair | bind | connect | accept | sendTo | sendMsg => trivial

/-- An address in the abstract namespace. -/
def rendezvous : List Byte :=
  [1, 0, 0, 7]

/-- One end of a pair sends, until the queue of the other end is full. -/
def pairSteps : List (NetStep Nat) :=
  [.socketPair .stream ⟨1, 0, 0⟩, .setsockopt 1 solSocket soRcvbuf [0, 16, 0, 0],
    .sendTo 0 (List.replicate 4096 0) none none]

/-- Two sockets connect to one that has a place for one of them. -/
def backlogSteps : List (NetStep Nat) :=
  [.socket .stream ⟨1, 0, 0⟩, .socket .stream ⟨1, 0, 0⟩, .socket .stream ⟨1, 0, 0⟩,
    .bind 0 rendezvous, .listen 0 1, .connect 1 rendezvous none, .connect 2 rendezvous none]

theorem no_lost_writer_wakeup_full :
    (∃ labels before notified after, Run (Guarded Considerate Performs) (empty : Network Nat)
        labels before ∧ Performs before (.receive 1 8 0 false, notified) after ∧
      before.sendBlocks 0 ∧ after.sendBlocks 0 = false ∧ Writable notified 0) ∧
    ∃ labels before notified after, Run (Guarded Considerate Performs) (empty : Network Nat)
        labels before ∧ Performs before (.accept 0, notified) after ∧
      before.connectBlocks 2 0 ∧ after.connectBlocks 2 0 = false ∧ Writable notified 2 := by
  constructor
  · obtain ⟨labels, before, notified, after, first, second, seen⟩ :=
      exists_of_execute_bind (allowed gentle perform) (empty : Network Nat) pairSteps
        (.receive 1 8 0 false) (fun before _ after =>
          (before.sendBlocks 0, after.sendBlocks 0, (after.sockets 0).isSome))
        (show _ = some (true, false, true) by decide +kernel)
    simp only [Prod.mk.injEq] at seen
    have run := guarded_of_execute considerate_of_gentle first
    have performs := guarded_of_allowed considerate_of_gentle second
    exact ⟨labels, before, notified, after, run, performs.2, seen.1, seen.2.1,
      (no_lost_writer_wakeup run performs 0).1 seen.1 seen.2.2 seen.2.1⟩
  · obtain ⟨labels, before, notified, after, first, second, seen⟩ :=
      exists_of_execute_bind (allowed gentle perform) (empty : Network Nat) backlogSteps (.accept 0)
        (fun before _ after =>
          (before.connectBlocks 2 0, after.connectBlocks 2 0, after.pends 2 0))
        (show _ = some (true, false, true) by decide +kernel)
    simp only [Prod.mk.injEq] at seen
    have run := guarded_of_execute considerate_of_gentle first
    have performs := guarded_of_allowed considerate_of_gentle second
    exact ⟨labels, before, notified, after, run, performs.2, seen.1, seen.2.1,
      (no_lost_writer_wakeup run performs 2).2 0 seen.1 seen.2.2 seen.2.1⟩

/-- Two datagram sockets send to a third one, until its queue is full. -/
def datagramSteps : List (NetStep Nat) :=
  [.socket .dgram ⟨1, 0, 0⟩, .socket .dgram ⟨1, 0, 0⟩, .socket .dgram ⟨1, 0, 0⟩,
    .bind 0 rendezvous, .connect 1 rendezvous none, .connect 2 rendezvous none,
    .setsockopt 0 solSocket soRcvbuf [0, 16, 0, 0], .sendTo 1 (List.replicate 4096 0) none none]

/-- The receiver takes the message, and neither of the two senders hears about
it. -/
theorem receive_wakes_no_sender : ∃ labels before label after,
      Run Performs (empty : Network Nat) labels before ∧ Performs before label after ∧
      label = (.receive 0 8 0 false, []) ∧
      (before.sendBlocks 1 ∧ after.sendBlocks 1 = false ∧ (after.sockets 1).isSome) ∧
      before.sendBlocks 2 ∧ after.sendBlocks 2 = false ∧ (after.sockets 2).isSome := by
  obtain ⟨labels, before, notified, after, first, second, seen⟩ :=
    exists_of_execute_bind perform (empty : Network Nat) datagramSteps (.receive 0 8 0 false)
      (fun before notified after =>
        (notified, (before.sendBlocks 1, after.sendBlocks 1, (after.sockets 1).isSome),
          before.sendBlocks 2, after.sendBlocks 2, (after.sockets 2).isSome))
      (show _ = some ([], (true, false, true), true, false, true) by decide +kernel)
  simp only [Prod.mk.injEq] at seen
  obtain ⟨rfl, one, two⟩ := seen
  exact ⟨labels, before, (.receive 0 8 0 false, []), after, run_of_execute first, second, rfl, one,
    two⟩

end AetherKernel.Net.Network
