import AetherKernel.Net.UnixLinks

/-!
# Connections

What `connect` does to the references between sockets, and to those who wait
for a place in a backlog.
-/

namespace AetherKernel.Net.Network

open Lib Function

variable {D : Type} {network before after : Network D} {notified : Notified} {id target : SocketId}
  {socket client listener : UnixSocket D} {state : UnixSocketState D} {condition : Prop}

theorem fair_clearPendingConnect (linked : network.Linked) (id : SocketId) :
    Fair condition network notified (network.clearPendingConnect id) := by
  unfold clearPendingConnect
  cases found : network.sockets id with
  | none => exact .refl linked
  | some client =>
    have first : Fair condition network notified
        (network.update id client { client.state with pendingConnect := none }) :=
      ⟨linked.update found (.inl rfl)
        (.inr (by simp)) (fun _ _ _ _ held => held) fun _ held => held,
        fun _ => told_update found (.inl rfl) (by simp) .inl .inl⟩
    dsimp only
    split
    · exact first
    rename_i listener socket upgraded
    have known := (upgrade_eq_some upgraded).2
    refine first.trans linked ⟨?_, fun _ => told_update known (.inl rfl) (fun _ => .inl) .inl .inl⟩
    refine first.linked.update known (.inl rfl) (.inl rfl) ?_ fun _ held => held
    intro other waiter known pending member
    have different : other ≠ id := by
      rintro rfl
      simp only [update, update_self, Option.some.injEq] at known
      subst known
      cases pending
    simp [member, different]

/-- Two sockets change. -/
theorem update_comm {first second : SocketId} {one two : UnixSocket D}
    {other : UnixSocketState D} (different : first ≠ second) :
    (network.update first one state).update second two other =
      (network.update second two other).update first one state := by
  unfold update
  rw [Function.update_comm different]

/-- A socket as it was before `id` has been connected to a new socket. -/
def Former (network : Network D) (id : SocketId) (accepted : UnixSocket D) (other : SocketId)
    (now : UnixSocket D) : Prop :=
  other = network.next ∧ now = accepted ∨
    ∃ former, network.sockets other = some former ∧ now.kind = former.kind ∧
      now.pendingConnects = former.pendingConnects ∧
      (∀ member ∈ now.backlog, member = network.next ∨ member ∈ former.backlog) ∧
      (other = id ∧ now.peer = some network.next ∧ now.pendingConnect = none ∨
        other ≠ id ∧ now.peer = former.peer ∧
          now.pendingConnect = former.pendingConnect)

theorem linked_connect (id : SocketId) (accepted : UnixSocket D) (linked : network.Linked)
    (found : network.sockets id = some client)
    (alone : ∀ peer other, client.peer = some peer → network.sockets peer ≠ some other)
    (oriented : client.kind.isConnectionOriented) (same : accepted.kind = client.kind)
    (back : accepted.peer = some id) (idle : accepted.pendingConnect = none)
    (empty : accepted.backlog = []) (next : after.next = network.next + 1)
    (formers : ∀ other now, after.sockets other = some now → network.Former id accepted other now) :
    after.Linked := by
  have below := linked.below
  have peers := linked.peers
  unfold Former at formers
  constructor
  · grind
  · grind
  · have targets := linked.targets
    grind
  · have members := linked.members
    grind
  · intro other now peer far known refers present
    have one := formers other now known
    have two := formers peer far present
    have kinds := linked.kinds
    clear formers
    grind
  · intro other now peer far known refers present connects
    rcases formers other now known with ⟨rfl, rfl⟩ |
      ⟨former, was, kind, -, -, ⟨rfl, forth, -⟩ | ⟨elsewhere, unmoved, -⟩⟩
    · grind
    · grind
    -- The client was not connected, so that nobody referred to it.
    have referred := unmoved.symm.trans refers
    rw [kind] at connects
    have nobody : peer ≠ id := by
      rintro rfl
      exact alone other former
        (linked.paired other former peer client was referred found connects) was
    rcases formers peer far present with ⟨rfl, -⟩ | ⟨past, had, -, -, -, ⟨rfl, -⟩ | ⟨-, still, -⟩⟩
    · exact absurd (peers other former _ was referred) (lt_irrefl _)
    · exact absurd rfl nobody
    · exact still.trans (linked.paired other former peer past was referred had connects)
  · intro other now peer far known refers present
    have one := formers other now known
    have two := formers peer far present
    have targets := linked.targets
    have waiting := linked.waiting
    clear formers peers
    grind
  · intro other now known member belongs far present
    have one := formers other now known
    have two := formers member far present
    have members := linked.members
    have orient := linked.oriented
    clear formers peers
    grind

/-- The client of a connection that blocks. -/
def waiting (client : UnixSocketState D) (target : SocketId) : UnixSocketState D :=
  { client with pendingConnect := some target }

/-- The listening socket of a connection that blocks. -/
def withWaiter (network : Network D) (listener : UnixSocketState D) (id : SocketId) :
    UnixSocketState D :=
  { listener with
    pendingConnects := (network.livePendingConnects listener).filter (· ≠ id) ++ [id] }

def withServer (listener : UnixSocketState D) (server : SocketId) : UnixSocketState D :=
  { listener with backlog := listener.backlog ++ [server] }

section Targets

variable (linked : network.Linked) (found : network.sockets id = some client)
  (present : network.sockets target = some listener)
include linked found present

theorem fair_wait (different : id ≠ target) (crowded : listener.Crowded) :
    Fair condition network notified
      ((network.update id client (waiting client.state target)).update target
      listener (network.withWaiter listener.state id)) := by
  have listed : (network.update target listener (network.withWaiter listener.state id)).Linked := by
    refine linked.update present (.inl rfl) (.inl rfl) ?_ fun _ held => held
    intro other waiter known _ member
    simp [withWaiter, livePendingConnects, member, known, or_iff_not_imp_right]
  have first : Told network notified (network.update id client (waiting client.state target)) := by
    refine told_update found (.inl rfl) ?_ .inl .inl
    rintro _ ⟨⟩
    exact .inr ⟨different.symm, listener, present, crowded⟩
  have still : (network.update id client (waiting client.state target)).sockets target =
      some listener := by
    simpa [update, different.symm] using present
  refine ⟨?_, fun _ => first.trans linked (told_update still (.inl rfl) (fun _ => .inl) .inl .inl)⟩
  rw [update_comm different]
  refine listed.update ?_ (.inl rfl) (.inr ?_) (fun _ _ _ _ held => held) fun _ held => held
  · simpa [update, different] using found
  · rintro _ ⟨⟩
    exact ⟨different.symm, { listener with state := network.withWaiter listener.state id },
      update_self .., by simp [withWaiter]⟩

/-- The client of a connection that has been made. -/
def joined (client : UnixSocketState D) (peer : SocketId) (credentials : SocketCredentials) :
    UnixSocketState D :=
  { connected client peer credentials with pendingConnect := none }

/-- The socket that waits in the backlog to be accepted. -/
def server (id : SocketId) (client listener : UnixSocket D) : UnixSocket D :=
  let accepted : UnixSocket D := .shared client.kind listener.owner
  { accepted with
    state := connected (inheritListenerState accepted.state listener.state) id client.owner }

/-- A connection that has been made. -/
def join (network : Network D) (id : SocketId) (client : UnixSocket D) (target : SocketId)
    (listener : UnixSocket D) : Network D :=
  ((network.insert (server id client listener)).update id client
    (joined client.state network.next listener.owner)).update target listener
      (withServer listener.state network.next)

theorem fair_join (different : id ≠ target) (oriented : client.kind.isConnectionOriented)
    (alone : (network.upgrade client.peer).isSome = false) (heard : Writable notified id) :
    Fair condition network notified (network.join id client target listener) := by
  have fresh {other : SocketId} {far : UnixSocket D} (known : network.sockets other = some far) :
      other ≠ network.next := (linked.below other far known).ne
  have had : (network.insert (server id client listener)).sockets id = some client :=
    (update_of_ne (fresh found) ..).trans found
  have still : ((network.insert (server id client listener)).update id client
      (joined client.state network.next listener.owner)).sockets target = some listener :=
    (update_of_ne different.symm ..).trans ((update_of_ne (fresh present) ..).trans present)
  constructor
  · refine linked_connect id (server id client listener) linked found ?_ oriented rfl rfl
      rfl rfl rfl ?_
    · intro peer other refers known
      simp [upgrade, refers, known] at alone
    intro other now known
    rcases found_update known with ⟨rfl, rfl⟩ | known
    · refine .inr ⟨listener, present, rfl, rfl, fun member belongs => ?_,
        .inr ⟨different.symm, rfl, rfl⟩⟩
      exact (List.mem_append.mp belongs).symm.imp_left List.mem_singleton.mp
    by_cases here : other = id
    · subst here
      cases (update_self other _ _).symm.trans known
      exact .inr ⟨client, found, rfl, rfl, fun _ belongs => .inr belongs, .inl ⟨rfl, rfl, rfl⟩⟩
    have known := (update_of_ne here ..).symm.trans known
    by_cases last : other = network.next
    · subst last
      cases (update_self network.next _ _).symm.trans known
      exact .inl ⟨rfl, rfl⟩
    · have known := (update_of_ne last ..).symm.trans known
      exact .inr ⟨now, known, rfl, rfl, fun _ belongs => .inr belongs, .inr ⟨here, rfl, rfl⟩⟩
  · intro _
    have first : Told network notified (network.insert (server id client listener)) :=
      told_insert (linked.free le_rfl) rfl
    have second : Told (network.insert (server id client listener)) notified
        ((network.insert (server id client listener)).update id client
          (joined client.state network.next listener.owner)) :=
      told_update had (.inr heard) (fun _ pending => by cases pending) .inl .inl
    refine (first.trans linked second).trans linked (told_update still (.inl rfl) (fun _ => .inl)
      .inl fun crowded => .inl ?_)
    unfold UnixSocketState.Crowded backlogFull withServer at *
    grind

theorem fair_connectTo (different : listener.listening → id ≠ target)
    (oriented : client.kind.isConnectionOriented) :
    Fair condition network (network.connectTo id client target listener).notified
      (network.connectTo id client target listener).network := by
  unfold connectTo
  cases listens : listener.listening with
  | false => exact .refl linked
  | true =>
    cases full : backlogFull listener.state with
    | true => exact fair_wait linked found present (different listens) ⟨listens, full⟩
    | false =>
      cases alone : (network.upgrade client.peer).isSome with
      | true => exact .refl linked
      | false =>
        exact fair_join linked found present (different listens) oriented alone
          ⟨.write, by simp, rfl⟩

/-- A datagram socket chooses whom it sends to. -/
theorem fair_choose (same : listener.kind = client.kind) (dgram : client.kind = .dgram)
    {credentials : SocketCredentials} (heard : Writable notified id) :
    Fair condition network notified
      (network.update id client (joined client.state target credentials)) := by
  have unoriented : client.kind.isConnectionOriented = false := by
    rw [dgram]
    rfl
  refine ⟨?_, fun _ => told_update found (.inr heard) nofun .inl .inl⟩
  refine linked.update found (.inr ⟨fun other sender known refers => ?_, ?_⟩) (.inr nofun)
    (fun _ _ _ _ held => held) fun _ held => held
  · rw [← linked.kinds other sender id client known refers found]
    exact unoriented
  · rintro _ ⟨⟩
    exact ⟨unoriented, listener, present, same⟩

end Targets

theorem fair_connectSocket {address : List Byte} {peer : Option SocketId} (linked : network.Linked)
    (hangs : (network.clearPendingConnect id).hangs id address peer = false) :
    Fair condition network (network.connectSocket id address peer).notified
      (network.connectSocket id address peer).network := by
  unfold connectSocket
  unfold Network.hangs at hangs
  cases parsed : UnixAddress.fromRaw address with
  | error error => exact .refl linked
  | ok name =>
    rw [parsed] at hangs
    have first {notified : Notified} :
        Fair condition network notified (network.clearPendingConnect id) :=
      fair_clearPendingConnect linked id
    have cleared := (@first []).linked
    refine first.trans linked ?_
    dsimp only
    cases found : (network.clearPendingConnect id).sockets id with
    | none => exact .refl cleared
    | some client =>
      rw [found] at hangs
      dsimp only at hangs ⊢
      cases looked : (network.clearPendingConnect id).lookupTarget client name.serialize peer with
      | error error => exact .refl cleared
      | ok reached =>
        rw [looked] at hangs
        obtain ⟨present, same⟩ := lookupTarget_eq_ok looked
        dsimp only at hangs ⊢
        split
        · exact fair_choose cleared found present same ‹_› ⟨.write, by simp, rfl⟩
        · have oriented : client.kind.isConnectionOriented := by
            cases kind : client.kind <;> simp_all [SocketKind.isConnectionOriented]
          refine fair_connectTo cleared found present ?_ oriented
          rintro listens rfl
          simp [listens, oriented] at hangs

end AetherKernel.Net.Network
