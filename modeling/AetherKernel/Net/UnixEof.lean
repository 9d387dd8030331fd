import AetherKernel.Net.UnixDomain

/-!
# The end of a stream

A socket that has shut down its writing side can still send, because a send does
not look at it.  A receive that finds its queue empty looks at the peer later,
when something may have been queued in between.  A socket whose peer is gone can
be connected again.  Where none of this happens, the end of a stream is final.
-/

namespace AetherKernel.Net

open Lib UnixSocketState Option Network

variable {D : Type}

/-- Nothing is queued. -/
def UnixSocket.Empty (socket : UnixSocket D) : Prop :=
  if socket.kind.isStreamLike then socket.recvStream = [] else socket.recvPackets = []

namespace UnixDomain

/-- A send on a connection by a socket that has shut down writing finds a peer that
does not read any more.  A receive that found nothing looks at the peer that the
socket has, and finds nothing still when it sees the end of the stream. -/
structure Behaves (domain : UnixDomain D) (label : DomainStep D × Reply D) : Prop where
  send : ∀ step sending source target, label.1 = .call step → step.sending = some sending →
    domain.sockets sending.id = some source → source.kind.isConnectionOriented →
    source.shutWr → domain.sendTarget source sending.address sending.peer = .ok target →
    target.2.shutRd
  check : ∀ index check socket, label.1 = .checkPeer index → domain.checks[index]? = some check →
    domain.sockets check.socket = some socket →
    check.established = socket.established ∧
    check.peer = (domain.upgrade socket.peer).map Prod.fst ∧
    (label.2 = .checked check.socket (.ok .empty) → socket.Empty)

/-- What a receive of a socket returns, once it is finished. -/
def returned (id : SocketId) : DomainStep D × Reply D → Option (Except SysErr (SocketReceive D))
  | (.call (.receive receiver _ _ _), .received (.ready result)) =>
    if receiver = id then some (.ok result) else none
  | (.call (.receive receiver _ _ _), .received (.refused error)) =>
    if receiver = id then some (.error error) else none
  | (.checkPeer _, .checked receiver result) => if receiver = id then some result else none
  | _ => none

variable {network after : Network D} {step : NetStep D} {reply : Reply D} {id : SocketId}
  {state : UnixSocketState D} {socket : UnixSocket D}

/-! ## Writing has been shut down -/

/-- The socket is gone, or is one of a connection and has shut down writing. -/
structure Silent (id : SocketId) (network : Network D) : Prop where
  below : id < network.next
  shut : ∀ socket, network.sockets id = some socket →
    socket.kind.isConnectionOriented ∧ socket.shutWr

theorem shutdown_shutWr {how : BitVec 32} (asked : how = 1 ∨ how = 2)
    (succeeds : (network.shutdown id socket how).result.isOk) {now : UnixSocket D}
    (known : (network.shutdown id socket how).network.sockets id = some now) :
    now.kind = socket.kind ∧ now.shutWr := by
  unfold Network.shutdown at succeeds known
  dsimp only at succeeds known
  split at known
  · rename_i unconnected
    rw [if_pos unconnected] at succeeds
    cases succeeds
  split at known
  · rename_i reading
    rcases asked with rfl | rfl <;> cases reading
  split at known
  · cases (Function.update_self ..).symm.trans known
    exact ⟨rfl, rfl⟩
  split at known
  · cases (Function.update_self ..).symm.trans known
    exact ⟨rfl, rfl⟩
  · rename_i neither both
    exact absurd asked (not_or.mpr ⟨neither, both⟩)

theorem Silent.moves (silent : Silent id network) (moves : Moves network step reply after) :
    Silent id after := by
  refine ⟨silent.below.trans_le moves.next_le, fun socket known => ?_⟩
  obtain ⟨former, was, remains⟩ := moves.former silent.below known
  obtain ⟨oriented, shut⟩ := silent.shut former was
  exact ⟨remains.kind ▸ oriented, remains.shutWr shut⟩

/-- A socket that does not read takes nothing in. -/
theorem offer_of_shutRd {target sender : UnixSocket D} {buffer : List Byte}
    {ancillary : Option (UnixAncillary D)} {count : Nat} (shut : target.shutRd = true)
    (offered : target.offer sender buffer ancillary = (.ok count, state)) :
    sender.kind.isStreamLike ∧ count = 0 ∧ state = target.state := by
  unfold UnixSocket.offer at offered
  split at offered
  · rename_i stream
    unfold enqueueStream at offered
    split at offered
    · cases offered
      exact ⟨stream, rfl, rfl⟩
    · cases offered
  · simp only [enqueuePacketFrom, shut] at offered
    cases offered

/-! ## The end of the stream -/

/-- Nothing is queued, and nobody will write. -/
structure Over (network : Network D) (socket : UnixSocket D) : Prop where
  oriented : socket.kind.isConnectionOriented
  established : socket.established
  empty : socket.Empty
  silent : ∀ peer far, socket.peer = some peer → network.sockets peer = some far →
    far.shutWr

/-- The end of the stream has been reached. -/
structure Ended (id : SocketId) (network : Network D) : Prop where
  below : id < network.next
  final : ∀ socket, network.sockets id = some socket → Over network socket

theorem receive_of_empty (oriented : socket.kind.isConnectionOriented) (empty : socket.Empty)
    (len : Nat) (flags : BitVec 64) (control : Bool) :
    socket.receive len flags control =
      (if socket.shutRd then .ready .empty else .drained, socket.state, false) := by
  unfold UnixSocket.receive
  unfold UnixSocket.Empty at empty
  split
  · rename_i stream
    rw [if_pos stream] at empty
    simp only [receiveStream, empty]
    split <;> rfl
  · rename_i packets
    rw [if_neg packets] at empty
    simp only [receivePacket, empty, oriented]
    split <;> rfl

section Ended

variable {domain : UnixDomain D} (linked : domain.Linked)
  (ended : Ended id domain.network) (moves : Moves domain.network step reply after)
  (behaves : Behaves domain (.call step, reply))

include linked ended moves behaves

/-- The peer does not write, so that nothing is queued. -/
theorem empty_moves (known : after.sockets id = some socket) : socket.Empty := by
  cases moves with
  | unsent => exact (ended.final socket known).empty
  | sends begun source reached offered sent =>
    rcases found_update known with ⟨rfl, rfl⟩ | known
    · have there := sendTarget_eq_ok reached
      obtain ⟨oriented, -, empty, silent⟩ := ended.final _ there
      have same : _ = UnixSocket.kind _ := linked.sendTarget_kind source reached
      rw [same] at oriented
      have refers := sendTarget_peer oriented reached
      have back := linked.paired _ _ _ _ source refers there oriented
      have shut := silent _ _ back source
      have unread := behaves.send _ _ _ _ rfl begun source oriented shut reached
      obtain ⟨-, -, rfl⟩ := offer_of_shutRd unread offered
      exact empty
    · exact (ended.final socket known).empty
  | receives asked there receive returned =>
    rcases found_update known with ⟨rfl, rfl⟩ | known
    · have final := ended.final _ there
      rw [receive_of_empty final.oriented final.empty] at receive
      cases receive
      exact final.empty
    · exact (ended.final socket known).empty
  | stays quiet still stays =>
    rcases stays.comes id socket known with ⟨fresh, -⟩ | ⟨former, was, kept⟩
    · exact absurd ended.below fresh.not_gt
    · have empty := (ended.final former was).empty
      unfold UnixSocket.Empty at empty ⊢
      rw [kept.kind, kept.stream, kept.packets]
      exact empty

theorem ended_moves (apart : reply.client ≠ some id) : Ended id after := by
  refine ⟨ended.below.trans_le moves.next_le, fun now known => ?_⟩
  obtain ⟨former, found, remains⟩ := moves.former ended.below known
  obtain ⟨oriented, established, -, silent⟩ := ended.final former found
  refine ⟨remains.kind ▸ oriented, remains.established established,
    empty_moves linked ended moves behaves known, fun peer far refers there => ?_⟩
  have same : former.peer = some peer := by
    rcases remains.peer with same | gone | joins | dgram
    · exact same.symm.trans refers
    · cases gone.symm.trans refers
    · exact absurd joins apart
    · rw [dgram] at oriented
      cases oriented
  obtain ⟨past, held, remained⟩ := moves.former (linked.peers id former peer found same) there
  exact remained.shutWr (silent peer past same held)

end Ended

/-- A receive is under way on a socket that exists, which is one of connections. -/
def Held (domain : UnixDomain D) : Prop :=
  ∀ check ∈ domain.checks, ∃ socket, domain.sockets check.socket = some socket ∧
    socket.kind.isConnectionOriented

theorem oriented_of_drained {len : Nat} {flags : BitVec 64} {control : Bool}
    (drained : (socket.receive len flags control).1 = .drained) :
    socket.kind.isConnectionOriented := by
  unfold UnixSocket.receive at drained
  cases kind : socket.kind with
  | stream | seqpacket => rfl
  | dgram =>
    rw [kind] at drained
    change (socket.receivePacket .dgram len flags control).1 = .drained at drained
    unfold receivePacket at drained
    split at drained
    · cases drained
    split at drained
    · cases drained
    · dsimp only at drained
      split at drained <;> cases drained

theorem held_turns {before after : UnixDomain D} {label : DomainStep D × Reply D}
    (linked : before.Linked) (held : Held before) (turns : Turns before label after) :
    Held after := by
  cases turns with
  | checkPeer found => exact fun check member => held check (List.mem_of_mem_eraseIdx member)
  | call performs keeps =>
    rename_i step notified network
    have moves := Moves.of_perform performs
    intro check member
    rcases List.mem_append.mp member with old | new
    · have present := (Bool.and_eq_true_iff.mp (keeps check old)).1
      obtain ⟨socket, known⟩ := Option.isSome_iff_exists.mp present
      obtain ⟨former, was, oriented⟩ := held check old
      obtain ⟨past, found, remains⟩ := moves.former (linked.below _ former was) known
      cases was.symm.trans found
      exact ⟨socket, known, remains.kind ▸ oriented⟩
    · cases step with
      | receive id len flags control =>
        obtain ⟨socket, found, ⟨⟩⟩ := performs_held performs
        unfold checksOf at new
        dsimp only at new
        rw [found] at new
        dsimp only [Option.elim] at new
        split at new
        · rename_i drained
          cases List.mem_singleton.mp new
          have oriented := oriented_of_drained drained
          exact ⟨_, Function.update_self .., oriented⟩
        · cases new
        · cases new
      | _ => cases new

/-! ## Steps and runs -/

/-- What holds between any two steps. -/
structure Settled (domain : UnixDomain D) : Prop where
  linked : domain.Linked
  held : Held domain

section Run

variable {before after last : UnixDomain D} {label : DomainStep D × Reply D} {index : Nat}
  {check : Check} {earlier later : List (DomainStep D × Reply D)}

theorem settled_turns (settled : Settled before) (turns : Turns before label after) :
    Settled after :=
  ⟨turns.linked settled.linked, held_turns settled.linked settled.held turns⟩

theorem settled_run (run : Run Performs empty earlier last) : Settled last := by
  refine invariant_of_run run ?_ ⟨linked_empty, nofun⟩
  exact fun _ _ _ => settled_turns

/-- A look at the peer that finds the end of the stream is right. -/
theorem ended_of_checked (settled : Settled before) (found : before.checks[index]? = some check)
    {result : SocketReceive D}
    (sees : before.checkPeer check.established check.peer = .ok result)
    (behaves : Behaves before (.checkPeer index,
      .checked check.socket (before.checkPeer check.established check.peer))) :
    Ended check.socket before.network := by
  obtain ⟨socket, known, oriented⟩ := settled.held check (List.mem_of_getElem? found)
  obtain ⟨established, refers, empty⟩ := behaves.check index check socket rfl found known
  unfold checkPeer at sees empty
  split at sees
  · cases sees
  rename_i begun
  split at sees
  · rename_i silent
    rw [if_neg begun, if_pos silent] at empty
    refine ⟨settled.linked.below _ socket known, fun now there => ?_⟩
    cases known.symm.trans there
    refine ⟨oriented, ?_, empty rfl, fun peer far names lives => ?_⟩
    · rw [← established]
      simpa using begun
    · have upgraded : before.upgrade (some peer) = some (peer, far) := by
        simp [upgrade, lives]
      rw [refers, names, upgraded] at silent
      simpa [upgraded] using silent
  · cases sees

theorem checked_of_ended (settled : Settled before) (ended : Ended check.socket before.network)
    (found : before.checks[index]? = some check)
    (behaves : Behaves before (.checkPeer index, .checked
      check.socket (before.checkPeer check.established check.peer))) :
    before.checkPeer check.established check.peer = .ok .empty := by
  obtain ⟨socket, known, oriented⟩ := settled.held check (List.mem_of_getElem? found)
  obtain ⟨established, refers, -⟩ := behaves.check index check socket rfl found known
  obtain ⟨-, begun, -, silent⟩ := ended.final socket known
  unfold checkPeer
  rw [established, refers, begun]
  cases upgraded : before.upgrade socket.peer with
  | none => rfl
  | some peer =>
    obtain ⟨names, lives⟩ := upgrade_eq_some upgraded
    rw [names] at upgraded
    simp [upgraded, silent peer.1 peer.2 names lives]

/-- At the end of the stream, a receive returns nothing. -/
theorem returned_of_ended (settled : Settled before) (ended : Ended id before.network)
    (turns : Turns before label after) (behaves : Behaves before label)
    {result : Except SysErr (SocketReceive D)} (returns : returned id label = some result) :
    result = .ok .empty := by
  cases turns with
  | checkPeer found =>
    rename_i index check
    by_cases here : check.socket = id
    · subst here
      rw [checked_of_ended settled ended found behaves] at returns
      simpa [returned] using returns.symm
    · simp [returned, here] at returns
  | call performs =>
    rename_i step notified network keeps
    have moves := Moves.of_perform performs
    generalize before.reply step = reply at returns moves
    cases moves with
    | unsent sent | sends _ _ _ _ sent =>
      subst sent
      cases step <;> cases returns
    | receives asked found receive answer =>
      rename_i receiver socket len flags control notifies received state
      subst asked answer
      by_cases here : receiver = id
      · subst here
        have final := ended.final socket found
        rw [receive_of_empty final.oriented final.empty] at receive
        cases receive
        split at returns
        · simpa [returned] using returns.symm
        · cases returns
      · cases received with
        | ready | refused => simp [returned, here] at returns
        | drained => cases returns
    | stays quiet still stays =>
      cases reply with
      | received result => exact absurd rfl (still result)
      | _ => cases step <;> cases returns

theorem ended_turns (settled : Settled before) (ended : Ended id before.network)
    (turns : Turns before label after) (behaves : Behaves before label)
    (apart : label.2.client ≠ some id) : Ended id after.network := by
  cases turns with
  | checkPeer => exact ended
  | call performs => exact ended_moves settled.linked ended (.of_perform performs) behaves apart

/-- What a socket that has shut down writing sends is not queued. -/
theorem unqueued_of_silent (silent : Silent id before.network) (turns : Turns before label after)
    (behaves : Behaves before label) {step : NetStep D} {sending : Sending D}
    {result : Except SysErr Nat} {queued : Option SocketId} (called : label.1 = .call step)
    (begun : step.sending = some sending) (sender : sending.id = id)
    (sent : label.2 = .sent result queued) : queued = none := by
  subst sender
  cases turns with
  | checkPeer => cases sent
  | call performs =>
    cases called
    have moves := Moves.of_perform performs
    dsimp only at sent
    rw [sent] at moves
    cases moves with
    | unsent none =>
      cases none
      rfl
    | sends known source reached offered same =>
      cases known.symm.trans begun
      obtain ⟨oriented, shut⟩ := silent.shut _ source
      have unread := behaves.send _ _ _ _ rfl begun source oriented shut reached
      obtain ⟨stream, zero, -⟩ := offer_of_shutRd unread offered
      cases same
      simp [stream, zero]
    | receives _ _ _ answer => cases answer
    | stays quiet => exact absurd rfl (quiet result queued)

theorem silent_turns (silent : Silent id before.network) (turns : Turns before label after) :
    Silent id after.network := by
  cases turns with
  | checkPeer => exact silent
  | call performs => exact silent.moves (.of_perform performs)

theorem silent_of_shutdown {how : BitVec 32} (linked : before.Linked)
    (asked : how = 1 ∨ how = 2) (oriented : ∀ socket, before.sockets id = some socket →
      socket.kind.isConnectionOriented)
    (turns : Turns before (.call (.shutdown id how), .done true) after) :
    Silent id after.network := by
  generalize known : ((.call (.shutdown id how), .done true) : DomainStep D × Reply D) = label
    at turns
  cases turns with
  | checkPeer => cases known
  | call performs =>
    obtain ⟨same, answer⟩ := Prod.mk.inj known
    cases same
    have moves := Moves.of_perform performs
    obtain ⟨socket, found, ⟨⟩⟩ := performs_held performs
    refine ⟨(linked.below id socket found).trans_le moves.next_le, fun now there => ?_⟩
    have succeeds := Reply.done.inj answer
    rw [found] at succeeds
    obtain ⟨kind, shut⟩ := shutdown_shutWr asked succeeds.symm there
    exact ⟨kind ▸ oriented socket found, shut⟩

end Run

/-! ## One end shuts down -/

/-- A check that is enough for a step to behave. -/
def careful (domain : UnixDomain D) : DomainStep D → Bool
  | .checkPeer _ =>
    domain.checks.all fun check => (domain.sockets check.socket).all fun socket =>
      check.established == socket.established &&
        check.peer == (domain.upgrade socket.peer).map Prod.fst &&
        socket.recvStream.isEmpty && socket.recvPackets.isEmpty
  | .call step =>
    step.sending.all fun sending => (domain.sockets sending.id).all (!·.shutWr)

theorem behaves_of_careful (domain : UnixDomain D) (step : DomainStep D) (reply : Reply D)
    (allowed : careful domain step) : Behaves domain (step, reply) := by
  constructor
  · rintro called sending source target ⟨⟩ begun found - shut
    simp [careful, begun, found, shut] at allowed
  · rintro index check socket ⟨⟩ found known
    have clear := List.all_eq_true.mp allowed check (List.mem_of_getElem? found)
    simp only [known, all_some, Bool.and_eq_true, beq_iff_eq, List.isEmpty_iff] at clear
    obtain ⟨⟨⟨established, refers⟩, stream⟩, packets⟩ := clear
    refine ⟨established, refers, fun _ => ?_⟩
    unfold UnixSocket.Empty
    split
    · exact stream
    · exact packets

/-- A byte is sent and received before the end of the stream. -/
def readSteps : List (DomainStep Nat) :=
  [.call (.socketPair .stream ⟨1, 0, 0⟩), .call (.sendTo 0 [1] none none), .call (.shutdown 0 1),
    .call (.receive 1 8 0 false), .call (.receive 1 8 0 false)]

end UnixDomain

end AetherKernel.Net
