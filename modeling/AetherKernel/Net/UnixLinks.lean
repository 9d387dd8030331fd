import AetherKernel.Lib.Transition
import AetherKernel.Net.UnixStream

/-!
# Sockets that refer to each other

Any number of sockets, and any interleaving of the operations on them.  A send
or a connection that blocks depends on what the socket refers to, which other
operations change.
-/

namespace AetherKernel.Net

open Lib Function Option

/-- An operation on a socket that a descriptor refers to. -/
inductive NetStep (D : Type) where
  | socket (kind : SocketKind) (owner : SocketCredentials)
  | socketPair (kind : SocketKind) (owner : SocketCredentials)
  | bind (id : SocketId) (address : List Byte)
  | listen (id : SocketId) (backlog : BitVec 32)
  | connect (id : SocketId) (address : List Byte) (peer : Option SocketId)
  | accept (id : SocketId)
  | sendTo (id : SocketId) (buffer : List Byte) (address : Option (List Byte))
      (peer : Option SocketId)
  | sendMsg (id : SocketId) (message : SocketMessage D) (passcred : Bool)
      (peer : Option SocketId)
  | receive (id : SocketId) (len : Nat) (flags : BitVec 64) (control : Bool)
  | setsockopt (id : SocketId) (level optname : BitVec 32) (value : List Byte)
  | shutdown (id : SocketId) (how : BitVec 32)
  | close (id : SocketId)

variable {D : Type} {network before after : Network D}

abbrev Notified :=
  List (SocketId × PollEvents)

/-- The wait queue of a socket has been told that the socket can be written. -/
def Writable (notified : Notified) (id : SocketId) : Prop :=
  ∃ events, (id, events) ∈ notified ∧ PollEvents.contains events .write

def Outcome.told {α : Type} (outcome : Outcome D α) : Notified × Network D :=
  (outcome.notified, outcome.network)

namespace Network

/-- A socket that has been accepted, or was never in a backlog. -/
def held (network : Network D) (id : SocketId) : Option (UnixSocket D) :=
  if (List.range network.next).all fun other =>
      (network.sockets other).all fun socket => !socket.backlog.contains id then
    network.sockets id
  else none

/-- A listening socket that connects to itself takes its own lock twice. -/
def hangs (network : Network D) (id : SocketId) (address : List Byte) (peer : Option SocketId) :
    Bool :=
  match UnixAddress.fromRaw address, network.sockets id with
  | .ok address, some client =>
    match network.lookupTarget client address.serialize peer with
    | .ok (target, listener) =>
      target = id && listener.listening && client.kind.isConnectionOriented
    | .error _ => false
  | _, _ => false

/-- A receive with the notification of the peer. -/
def receiveOn (network : Network D) (id : SocketId) (socket : UnixSocket D) (len : Nat)
    (flags : BitVec 64) (control : Bool) : Notified × Network D :=
  let (_, state, notifies) := socket.receive len flags control
  (if notifies then ((network.upgrade state.peer).map fun peer => (peer.1, .write)).toList else [],
    network.update id socket state)

/-- A step, with the wait queues that it notifies. -/
def perform (network : Network D) : NetStep D → Option (Notified × Network D)
  | .socket kind owner => some ([], network.create kind owner)
  | .socketPair kind owner => some ([], network.createPair kind owner)
  | .bind id address => (network.held id).map fun socket => (network.bind id socket address).told
  | .listen id backlog =>
    (network.held id).map fun socket => (network.listen id socket backlog).told
  | .connect id address peer =>
    if (network.clearPendingConnect id).hangs id address peer then none
    else (network.held id).map fun _ => (network.connectSocket id address peer).told
  | .accept id => (network.held id).map fun socket => (network.accept id socket).told
  | .sendTo id buffer address peer =>
    (network.held id).map fun socket => (network.sendToSocket socket buffer address peer).told
  | .sendMsg id message passcred peer =>
    (network.held id).map fun socket =>
      (network.sendMsgToSocket socket message passcred peer).told
  | .receive id len flags control =>
    (network.held id).map fun socket => network.receiveOn id socket len flags control
  | .setsockopt id level optname value =>
    (network.held id).map fun socket =>
      ([], network.update id socket (socket.setsockopt level optname value).2)
  | .shutdown id how =>
    (network.held id).map fun socket => (network.shutdown id socket how).told
  | .close id => (network.held id).map fun socket => (network.close id socket).told

def Performs (before : Network D) (label : NetStep D × Notified) (after : Network D) : Prop :=
  before.perform label.1 = some (label.2, after)

/-! ## What blocks -/

/-- A send of one byte returns `EAGAIN`. -/
def sendBlocks (network : Network D) (id : SocketId) : Bool :=
  (network.sockets id).any fun socket =>
    (network.sendToSocket socket [0] none none).result = .error .again

/-- The connection to `target` is pending. -/
def pends (network : Network D) (id target : SocketId) : Bool :=
  (network.sockets id).any fun socket => socket.pendingConnect = some target

/-- The connection to `target` is pending, and returns `EAGAIN` when it is tried again. -/
def connectBlocks (network : Network D) (id target : SocketId) : Bool :=
  (network.sockets id).any fun socket =>
    socket.pendingConnect = some target && (network.sockets target).any fun listener =>
        (network.connectTo id socket target listener).result = .error .again

end Network

variable (state : UnixSocketState D)

/-- A send to the socket would block. -/
def UnixSocketState.Full : Prop :=
  state.shutRd = false ∧ state.rcvbuf ≤ state.recvSize

/-- A connection to the socket would block. -/
def UnixSocketState.Crowded : Prop :=
  state.listening = true ∧ Network.backlogFull state = true

namespace Network

variable {target : SocketId × UnixSocket D}

theorem enqueue_again_iff {socket : UnixSocket D} {byte : Byte} :
    (network.enqueue socket target [byte] none).result = .error .again ↔ target.2.Full := by
  unfold enqueue UnixSocket.offer UnixSocketState.enqueueStream UnixSocketState.enqueuePacketFrom
    UnixSocketState.Full
  simp only [List.length_singleton, Nat.lt_add_one_iff]
  cases target.2.shutRd <;> cases socket.kind.isStreamLike <;>
    by_cases full : target.2.rcvbuf ≤ target.2.recvSize <;>
    simp [full, Nat.sub_eq_zero_iff_le]

theorem sendBlocks_iff {id : SocketId} :
    network.sendBlocks id ↔ ∃ socket peer target, network.sockets id = some socket ∧
      socket.peer = some peer ∧ network.sockets peer = some target ∧ target.Full := by
  unfold sendBlocks sendToSocket sendTarget upgrade
  cases network.sockets id with
  | none => simp
  | some socket =>
    cases known : socket.peer with
    | none =>
      grind
    | some peer =>
      cases found : network.sockets peer with
      | none =>
        grind
      | some target => simp [known, found, enqueue_again_iff]

theorem connectBlocks_iff {id target : SocketId} :
    network.connectBlocks id target ↔ ∃ socket listener, network.sockets id = some socket ∧
      socket.pendingConnect = some target ∧ network.sockets target = some listener ∧
      listener.Crowded := by
  have again (socket listener : UnixSocket D) :
      (network.connectTo id socket target listener).result = .error .again ↔
        listener.Crowded := by
    unfold connectTo UnixSocketState.Crowded
    cases listener.listening <;> cases backlogFull listener.state <;>
      cases (network.upgrade socket.peer).isSome <;> simp
  unfold connectBlocks
  cases network.sockets id with
  | none => simp
  | some socket =>
    cases network.sockets target with
    | none => simp
    | some listener => simp [again]

theorem pends_iff {id target : SocketId} :
    network.pends id target ↔ ∃ socket, network.sockets id = some socket ∧
      socket.pendingConnect = some target := by
  simp [pends, any_eq_true]

/-! ## How sockets refer to each other -/

/-- References are to sockets that have existed.  The two ends of a connection
refer to each other, and a listening socket knows who waits for it. -/
structure Linked (network : Network D) : Prop where
  below : ∀ id socket, network.sockets id = some socket → id < network.next
  peers : ∀ id socket peer, network.sockets id = some socket → socket.peer = some peer →
    peer < network.next
  targets : ∀ id socket target, network.sockets id = some socket →
    socket.pendingConnect = some target → target < network.next
  members : ∀ id socket, network.sockets id = some socket →
    ∀ member ∈ socket.backlog, member < network.next
  kinds : ∀ id socket peer other, network.sockets id = some socket →
    socket.peer = some peer → network.sockets peer = some other → other.kind = socket.kind
  paired : ∀ id socket peer other, network.sockets id = some socket →
    socket.peer = some peer → network.sockets peer = some other →
    socket.kind.isConnectionOriented → other.peer = some id
  waiting : ∀ id socket target listener, network.sockets id = some socket →
    socket.pendingConnect = some target → network.sockets target = some listener →
    id ∈ listener.pendingConnects
  oriented : ∀ id socket, network.sockets id = some socket → ∀ member ∈ socket.backlog,
    ∀ accepted, network.sockets member = some accepted → accepted.kind.isConnectionOriented

variable (linked : network.Linked) {peer : Option SocketId} {notified : Notified} {id : SocketId}
  {socket : UnixSocket D} {state : UnixSocketState D}

include linked

/-- A socket may choose another peer when no connection refers to it. -/
theorem Linked.update (found : network.sockets id = some socket)
    (peer : state.peer = socket.peer ∨
      (∀ other client, network.sockets other = some client → client.peer = some id →
        client.kind.isConnectionOriented = false) ∧
      ∀ peer, state.peer = some peer → socket.kind.isConnectionOriented = false ∧
        ∃ other, network.sockets peer = some other ∧ other.kind = socket.kind)
    (pending : state.pendingConnect = socket.pendingConnect ∨
      ∀ target, state.pendingConnect = some target → target ≠ id ∧
        ∃ listener, network.sockets target = some listener ∧ id ∈ listener.pendingConnects)
    (waiting : ∀ other client, network.sockets other = some client →
      client.pendingConnect = some id → other ∈ socket.pendingConnects →
        other ∈ state.pendingConnects)
    (backlog : ∀ member ∈ state.backlog, member ∈ socket.backlog) :
    (network.update id socket state).Linked := by
  have below := linked.below
  unfold Network.update
  constructor
  · grind [update_apply]
  · have peers := linked.peers
    grind [update_apply]
  · have targets := linked.targets
    grind [update_apply]
  · have members := linked.members
    grind [update_apply]
  · have kinds := linked.kinds
    grind [update_apply]
  · have kinds := linked.kinds
    have paired := linked.paired
    grind [update_apply]
  · have waits := linked.waiting
    grind [update_apply]
  · have oriented := linked.oriented
    grind [update_apply]

theorem Linked.insert (alone : socket.peer = none)
    (idle : socket.pendingConnect = none) (empty : socket.backlog = []) :
    (network.insert socket).Linked := by
  obtain ⟨below, peers, targets, members, kinds, paired, waiting, oriented⟩ := linked
  unfold Network.insert
  constructor
  all_goals grind [update_apply]

theorem Linked.forget {address : Option UnixAddress} : (network.forget id address).Linked := by
  obtain ⟨below, peers, targets, members, kinds, paired, waiting, oriented⟩ := linked
  unfold Network.forget
  constructor
  all_goals grind [update_apply]

theorem linked_createPair {kind : SocketKind} {owner : SocketCredentials} :
    (network.createPair kind owner).Linked := by
  have below := linked.below
  unfold createPair connected UnixSocket.shared Network.insert
  constructor
  · grind [update_apply]
  · have peers := linked.peers
    grind [update_apply]
  · have targets := linked.targets
    grind [update_apply]
  · have members := linked.members
    grind [update_apply]
  · have peers := linked.peers
    have kinds := linked.kinds
    grind [update_apply]
  · have peers := linked.peers
    have paired := linked.paired
    grind [update_apply]
  · have targets := linked.targets
    have waiting := linked.waiting
    grind [update_apply]
  · have members := linked.members
    have oriented := linked.oriented
    grind [update_apply]

omit linked

theorem upgrade_eq_some {weak : Option SocketId} {found : SocketId × UnixSocket D}
    (upgraded : network.upgrade weak = some found) :
    weak = some found.1 ∧ network.sockets found.1 = some found.2 := by
  obtain ⟨id, rfl, known⟩ := bind_eq_some_iff.mp upgraded
  obtain ⟨socket, present, rfl⟩ := map_eq_some_iff.mp known
  exact ⟨rfl, present⟩

theorem lookupTarget_eq_ok {address : List Byte}
    (looked : network.lookupTarget socket address peer = .ok target) :
    network.sockets target.1 = some target.2 ∧ target.2.kind = socket.kind := by
  suffices upgraded : ∃ weak, network.upgrade weak = some target ∧ target.2.kind = socket.kind by
    obtain ⟨weak, upgraded, same⟩ := upgraded
    exact ⟨(upgrade_eq_some upgraded).2, same⟩
  have resolved (weak : Option SocketId) (error : SysErr)
      (chosen : ((network.upgrade weak).elim (.error error) .ok >>= fun found =>
        if found.2.kind ≠ socket.kind then .error .protoType else .ok found) =
        (.ok target : Except SysErr _)) :
      ∃ weak, network.upgrade weak = some target ∧ target.2.kind = socket.kind := by
    cases found : network.upgrade weak with
    | none =>
      rw [found] at chosen
      nomatch chosen
    | some reached =>
      rw [found] at chosen
      change (if _ then _ else _) = _ at chosen
      split at chosen
      · nomatch chosen
      · cases chosen
        exact ⟨weak, found, not_not.mp ‹_›⟩
  unfold lookupTarget lookupBound at looked
  cases peer with
  | some peer => exact resolved _ _ looked
  | none =>
    cases parsed : UnixAddress.fromRaw address with
    | error error =>
      rw [parsed] at looked
      nomatch looked
    | ok name =>
      rw [parsed] at looked
      exact resolved _ _ looked

theorem sendTarget_eq_ok {address : Option (List Byte)}
    (looked : network.sendTarget socket address peer = .ok target) :
    network.sockets target.1 = some target.2 := by
  unfold sendTarget at looked
  split at looked
  · nomatch looked
  split at looked
  · exact (lookupTarget_eq_ok looked).1
  · split at looked
    · cases looked
      exact (upgrade_eq_some ‹_›).2
    · nomatch looked

/-! ## Who is told -/

/-- Whoever is blocked stays blocked, or is told.  No socket comes back, and
nobody begins to wait, except for a place that there is not. -/
structure Told (before : Network D) (notified : Notified) (after : Network D) : Prop where
  sends : ∀ id, before.sendBlocks id → (after.sockets id).isSome →
    after.sendBlocks id ∨ Writable notified id
  connects : ∀ id target, before.connectBlocks id target → after.pends id target →
    after.connectBlocks id target ∨ Writable notified id
  next : before.next ≤ after.next
  kept : ∀ id < before.next, (after.sockets id).isSome → (before.sockets id).isSome
  pends : ∀ id target, after.pends id target →
    before.pends id target ∨ after.connectBlocks id target ∨ Writable notified id

theorem Told.refl : Told network notified network :=
  ⟨fun _ blocks _ => .inl blocks, fun _ _ blocks _ => .inl blocks, le_rfl, fun _ _ lives => lives,
    fun _ _ pending => .inl pending⟩

theorem writable_mono {more : Notified} (subset : notified ⊆ more) (heard : Writable notified id) :
    Writable more id := by
  obtain ⟨events, member, holds⟩ := heard
  exact ⟨events, subset member, holds⟩

theorem Told.mono {more : Notified} (told : Told before notified after)
    (subset : notified ⊆ more) : Told before more after :=
  { told with
    sends := fun id blocks lives => (told.sends id blocks lives).imp_right (writable_mono subset)
    connects := fun id target blocks pending =>
      (told.connects id target blocks pending).imp_right (writable_mono subset)
    pends := fun id target pending =>
      (told.pends id target pending).imp_right (Or.imp_right (writable_mono subset)) }

theorem Told.trans {middle : Network D} (linked : before.Linked)
    (first : Told before notified middle)
    (second : Told middle notified after) : Told before notified after where
  sends id blocks lives := by
    obtain ⟨socket, -, -, found, -⟩ := sendBlocks_iff.mp blocks
    have lived := second.kept id ((linked.below id socket found).trans_le first.next) lives
    rcases first.sends id blocks lived with blocks | heard
    · exact second.sends id blocks lives
    · exact .inr heard
  connects id target blocks pending := by
    rcases second.pends id target pending with earlier | settled
    · rcases first.connects id target blocks earlier with blocks | heard
      · exact second.connects id target blocks pending
      · exact .inr heard
    · exact settled
  next := first.next.trans second.next
  kept id small lives := first.kept id small (second.kept id (small.trans_le first.next) lives)
  pends id target pending := by
    rcases second.pends id target pending with earlier | settled
    · rcases first.pends id target earlier with earliest | blocks | heard
      · exact .inl earliest
      · exact .inr (second.connects id target blocks pending)
      · exact .inr (.inr heard)
    · exact .inr settled

theorem told_update (found : network.sockets id = some socket)
    (peer : state.peer = socket.peer ∨ Writable notified id)
    (pending : ∀ target, state.pendingConnect = some target →
      socket.pendingConnect = some target ∨ target ≠ id ∧
        ∃ listener, network.sockets target = some listener ∧ listener.Crowded)
    (full : socket.Full → state.Full ∨ ∀ sender client,
      network.sockets sender = some client → client.peer = some id →
      Writable notified sender)
    (crowded : socket.Crowded → state.Crowded ∨ ∀ connector client,
      network.sockets connector = some client → client.pendingConnect = some id →
      Writable notified connector) : Told network notified (network.update id socket state) := by
  constructor
  · intro sender blocks _
    obtain ⟨client, reached, target, known, refers, present, blocked⟩ := sendBlocks_iff.mp blocks
    rw [sendBlocks_iff]
    unfold update
    grind [update_apply]
  · intro connector target blocks pending
    obtain ⟨client, listener, known, refers, present, blocked⟩ := connectBlocks_iff.mp blocks
    rw [pends_iff] at pending
    rw [connectBlocks_iff]
    unfold update at pending ⊢
    grind [update_apply]
  · exact le_rfl
  · intro other _ lives
    rwa [isSome_update found] at lives
  · intro connector target waits
    rw [pends_iff] at waits ⊢
    rw [connectBlocks_iff]
    unfold update at waits ⊢
    grind [update_apply]

theorem told_forget {address : Option UnixAddress} (found : network.sockets id = some socket)
    (full : socket.Full → ∀ sender client, network.sockets sender = some client →
      client.peer = some id → sender ≠ id → Writable notified sender)
    (crowded : socket.Crowded → ∀ connector client, network.sockets connector = some client →
      client.pendingConnect = some id → connector ≠ id → Writable notified connector) :
    Told network notified (network.forget id address) := by
  constructor
  · intro sender blocks lives
    obtain ⟨client, reached, target, known, refers, present, blocked⟩ := sendBlocks_iff.mp blocks
    rw [sendBlocks_iff]
    unfold forget at lives ⊢
    grind [update_apply]
  · intro connector target blocks pending
    obtain ⟨client, listener, known, refers, present, blocked⟩ := connectBlocks_iff.mp blocks
    rw [pends_iff] at pending
    rw [connectBlocks_iff]
    unfold forget at pending ⊢
    grind [update_apply]
  · exact le_rfl
  · intro other _ lives
    obtain ⟨now, lives⟩ := isSome_iff_exists.mp lives
    simp [(found_forget lives).2]
  · intro connector target waits
    obtain ⟨now, known, refers⟩ := pends_iff.mp waits
    exact .inl (pends_iff.mpr ⟨now, (found_forget known).2, refers⟩)

theorem told_insert (fresh : network.sockets network.next = none)
    (idle : socket.pendingConnect = none) : Told network notified (network.insert socket) := by
  constructor
  · intro sender blocks _
    obtain ⟨client, reached, target, known, refers, present, blocked⟩ := sendBlocks_iff.mp blocks
    rw [sendBlocks_iff]
    unfold Network.insert
    grind [update_apply]
  · intro connector target blocks _
    obtain ⟨client, listener, known, refers, present, blocked⟩ := connectBlocks_iff.mp blocks
    rw [connectBlocks_iff]
    unfold Network.insert
    grind [update_apply]
  · exact Nat.le_succ _
  · intro other small lives
    simpa [Network.insert, small.ne] using lives
  · intro connector target waits
    rw [pends_iff] at waits ⊢
    unfold Network.insert at waits
    grind [update_apply]

theorem Linked.free (linked : network.Linked) (later : network.next ≤ id) :
    network.sockets id = none := by
  cases known : network.sockets id with
  | none => rfl
  | some socket => exact absurd (linked.below id socket known) later.not_gt

/-- Who is blocked does not depend on the names. -/
theorem told_rename (bound : UnixAddress → Option SocketId) :
    Told network notified { network with bound } := by
  constructor
  · intro sender blocks _
    left
    rw [sendBlocks_iff] at blocks ⊢
    exact blocks
  · intro connector target blocks _
    left
    rw [connectBlocks_iff] at blocks ⊢
    exact blocks
  · exact le_rfl
  · exact fun _ _ lives => lives
  · exact fun _ _ pending => .inl pending

/-- A step keeps the references, and under a condition lets nobody go without notice. -/
structure Fair (condition : Prop) (before : Network D) (notified : Notified) (after : Network D) :
    Prop where
  linked : after.Linked
  told : condition → Told before notified after

variable {condition : Prop}

theorem Fair.refl (linked : network.Linked) : Fair condition network notified network :=
  ⟨linked, fun _ => .refl⟩

theorem Fair.trans {middle : Network D} (linked : before.Linked)
    (first : Fair condition before notified middle)
    (second : Fair condition middle notified after) :
    Fair condition before notified after :=
  ⟨second.linked, fun holds => (first.told holds).trans linked (second.told holds)⟩

end Network

end AetherKernel.Net
