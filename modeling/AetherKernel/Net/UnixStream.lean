import AetherKernel.Net.Unix

/-!
# The receive queue of a stream socket

The chunks of the queue stand for a row of bytes, some of which carry ancillary
data: the first byte of a message that was sent with it.  A receive takes bytes
off the front and goes no further than the next byte that carries something.
-/

namespace AetherKernel.Net

open Lib List UnixStreamChunk Bool

variable {D : Type}

/-- A byte of a stream, with the ancillary data that comes with it. -/
abbrev Marked (D : Type) :=
  Byte × Option (UnixAncillary D)

variable (ancillary : Option (UnixAncillary D)) (bytes : List Byte)

/-- The first byte of a message carries its ancillary data. -/
def mark : List Byte → List (Marked D)
  | [] => []
  | byte :: rest => (byte, ancillary) :: rest.map (·, none)

@[simp]
theorem mark_nil : mark ancillary [] = [] :=
  rfl

@[simp]
theorem length_mark : (mark ancillary bytes).length = bytes.length := by
  cases bytes <;> simp [mark]

@[simp]
theorem map_fst_mark : (mark ancillary bytes).map Prod.fst = bytes := by
  cases bytes <;> simp [mark, Function.comp_def]

theorem mark_none : mark (none : Option (UnixAncillary D)) bytes =
    bytes.map (·, none) := by
  cases bytes <;> rfl

variable {bytes}

/-- A message may be cut after its first byte. -/
theorem mark_append (some : bytes ≠ []) (rest : List Byte) :
    mark ancillary (bytes ++ rest) = mark ancillary bytes ++ mark none rest := by
  cases bytes with
  | nil => exact absurd rfl some
  | cons byte bytes =>
    rw [mark_none]
    simp [mark]

/-- Only the first byte may carry something. -/
def Plain (bytes : List (Marked D)) : Prop :=
  ∀ byte ∈ bytes, byte.2 = none

theorem plain_nil : Plain ([] : List (Marked D)) :=
  nofun

theorem plain_mark_none (bytes : List Byte) :
    Plain (mark (none : Option (UnixAncillary D)) bytes) := by
  rw [mark_none]
  exact forall_mem_map.mpr fun _ _ => rfl

theorem Plain.append {first second : List (Marked D)} (one : Plain first) (two : Plain second) :
    Plain (first ++ second) :=
  forall_mem_append.mpr ⟨one, two⟩

theorem plain_tail_mark (bytes : List Byte) : Plain (mark ancillary bytes).tail := by
  cases bytes with
  | nil => exact plain_nil
  | cons byte rest =>
    have plain := plain_mark_none (D := D) rest
    rwa [mark_none] at plain

/-- What the first byte carries. -/
def carried (bytes : List (Marked D)) : Option (UnixAncillary D) :=
  bytes.head?.bind Prod.snd

/-! ## Chunks -/

namespace UnixStreamChunk

variable (chunk : UnixStreamChunk D)

def unread : List (Marked D) :=
  mark chunk.ancillary (chunk.data.drop chunk.readOffset)

/-- A chunk of the queue has bytes left. -/
def Fresh : Prop :=
  chunk.readOffset < chunk.data.length

end UnixStreamChunk

def unread (chunks : List (UnixStreamChunk D)) : List (Marked D) :=
  chunks.flatMap UnixStreamChunk.unread

variable (chunk : UnixStreamChunk D)

@[simp]
theorem unread_cons (rest : List (UnixStreamChunk D)) :
    unread (chunk :: rest) = chunk.unread ++ unread rest :=
  rfl

/-- The part of a chunk that a receive copies, and what it leaves. -/
theorem unread_split {count : Nat} (positive : 0 < count)
    (fits : count ≤ chunk.data.length - chunk.readOffset) :
    chunk.unread = mark chunk.ancillary ((chunk.data.drop chunk.readOffset).take count) ++
      mark none (chunk.data.drop (chunk.readOffset + count)) := by
  have some : (chunk.data.drop chunk.readOffset).take count ≠ [] := by
    rw [← length_pos_iff, length_take, length_drop]
    omega
  rw [← mark_append _ some, ← drop_drop, take_append_drop]
  rfl

namespace UnixSocketState

/-! ## One receive -/

/-- What a receive has taken off the queue after it has copied something. -/
structure Takes (len : Nat) (reading : Reading D) (chunks : List (UnixStreamChunk D)) (size : Nat)
    (outcome : Reading D × List (UnixStreamChunk D) × Nat) (segment : List (Marked D)) : Prop where
  unread : unread chunks = segment ++ Net.unread outcome.2.1
  written : outcome.1.written = reading.written ++ segment.map Prod.fst
  fits : segment.length ≤ len - reading.written.length
  size : outcome.2.2 = size - segment.length
  fresh : ∀ chunk ∈ outcome.2.1, chunk.Fresh

variable {len count : Nat} {control : Bool} {reading next : Reading D} {size : Nat}
  {chunk : UnixStreamChunk D} {rest chunks : List (UnixStreamChunk D)}

theorem takes_nil (fresh : ∀ chunk ∈ chunks, chunk.Fresh) :
    Takes len reading chunks size (reading, chunks, size) [] :=
  ⟨rfl, by simp, Nat.zero_le _, rfl, fresh⟩

/-- `count` bytes of a chunk, as many as there are and fit. -/
structure Copies (len : Nat) (reading : Reading D) (chunk : UnixStreamChunk D) (count : Nat)
    (bytes : List Byte) : Prop where
  unread : chunk.unread =
    mark chunk.ancillary bytes ++ mark none (chunk.data.drop (chunk.readOffset + count))
  length : bytes.length = count
  positive : 0 < count
  fits : count ≤ len - reading.written.length
  bounded : count ≤ chunk.data.length - chunk.readOffset

theorem copies_min (room : ¬len ≤ reading.written.length) (fresh : chunk.Fresh) :
    Copies len reading chunk (min (len - reading.written.length)
      (chunk.data.length - chunk.readOffset)) ((chunk.data.drop chunk.readOffset).take
        (min (len - reading.written.length) (chunk.data.length - chunk.readOffset))) := by
  unfold Fresh at fresh
  have positive : 0 < min (len - reading.written.length)
      (chunk.data.length - chunk.readOffset) := by omega
  refine ⟨unread_split chunk positive (Nat.min_le_right _ _), ?_, positive, Nat.min_le_left _ _,
    Nat.min_le_right _ _⟩
  rw [length_take, length_drop]
  omega

namespace Copies

variable (copies : Copies len reading chunk count bytes)
include copies

theorem ne_nil : bytes ≠ [] := by
  rw [← length_pos_iff, copies.length]
  exact copies.positive

/-- A chunk is used up, and the receive goes on with the rest of the queue. -/
theorem used (all : chunk.readOffset + count = chunk.data.length)
    (grows : next.written = reading.written ++ bytes)
    {outcome : Reading D × List (UnixStreamChunk D) × Nat} {segment : List (Marked D)}
    (takes : Takes len next rest (size - count) outcome segment) :
    Takes len reading (chunk :: rest) size outcome (mark chunk.ancillary bytes ++ segment) := by
  have nothing : chunk.data.drop (chunk.readOffset + count) = [] := by
    rw [drop_eq_nil_iff]
    exact all.ge
  have fits := takes.fits
  have room := copies.fits
  rw [grows, length_append, copies.length] at fits
  refine ⟨?_, ?_, ?_, ?_, takes.fresh⟩
  · rw [unread_cons, copies.unread, nothing, takes.unread]
    simp
  · rw [takes.written, grows]
    simp
  · rw [length_append, length_mark, copies.length]
    omega
  · rw [takes.size, length_append, length_mark, copies.length]
    omega

/-- The buffer is full before the chunk is used up. -/
theorem cut (left : chunk.readOffset + count ≠ chunk.data.length) (fresh : chunk.Fresh)
    (others : ∀ chunk ∈ rest, chunk.Fresh) (grows : next.written = reading.written ++ bytes) :
    Takes len reading (chunk :: rest) size
      (next, ⟨chunk.data, chunk.readOffset + count, none⟩ :: rest, size - count)
      (mark chunk.ancillary bytes) := by
  unfold Fresh at fresh
  have bounded := copies.bounded
  refine ⟨?_, ?_, ?_, ?_, forall_mem_cons.mpr ⟨?_, others⟩⟩
  · rw [unread_cons, copies.unread, unread_cons, UnixStreamChunk.unread, append_assoc]
  · rw [grows, map_fst_mark]
  · rw [length_mark, copies.length]
    exact copies.fits
  · rw [length_mark, copies.length]
  · unfold Fresh
    dsimp only
    omega

end Copies

/-- Once something was copied, a receive takes plain bytes only. -/
theorem takeLoop_of_written (fresh : ∀ chunk ∈ chunks, chunk.Fresh)
    (written : reading.written ≠ []) (barrier : reading.barrier = false) :
    ∃ segment, Takes len reading chunks size (takeLoop len control chunks reading size) segment ∧
      Plain segment ∧ (takeLoop len control chunks reading size).1.ancillary =
        reading.ancillary := by
  induction chunks generalizing reading size with
  | nil => exact ⟨[], takes_nil fresh, plain_nil, rfl⟩
  | cons chunk rest ih =>
    obtain ⟨first, others⟩ := forall_mem_cons.mp fresh
    have nonempty : reading.written.isEmpty = false := by simpa using written
    have available : chunk.data.length - chunk.readOffset ≠ 0 := by
      unfold Fresh at first
      omega
    rw [takeLoop]
    split
    · exact ⟨[], takes_nil fresh, plain_nil, rfl⟩
    rename_i room
    simp only [nonempty, barrier, if_neg available]
    split
    · exact ⟨[], takes_nil fresh, plain_nil, rfl⟩
    rename_i plain
    have bare : chunk.ancillary = none := by simpa using plain
    have copies := copies_min room first
    generalize min (len - reading.written.length) (chunk.data.length - chunk.readOffset) = count
      at copies ⊢
    generalize (chunk.data.drop chunk.readOffset).take count = bytes at copies ⊢
    have unmarked : Plain (mark chunk.ancillary bytes) := by
      rw [bare]
      exact plain_mark_none bytes
    split
    · rename_i all
      obtain ⟨segment, takes, more, same⟩ :=
        @ih ⟨reading.written ++ bytes, reading.ancillary, false⟩ (size - count) others
          (by simp [written]) rfl
      exact ⟨_, copies.used all rfl takes, unmarked.append more, same⟩
    · rename_i left
      rw [bare]
      exact ⟨_, copies.cut left first others rfl, unmarked, rfl⟩

/-- A receive takes a row of bytes of which only the first may carry something. -/
theorem takeLoop_start (fresh : ∀ chunk ∈ chunks, chunk.Fresh) :
    ∃ segment, Takes len .start chunks size (takeLoop len control chunks .start size) segment ∧
      Plain segment.tail ∧ (takeLoop len control chunks .start size).1.ancillary =
        if control then carried segment else none := by
  cases chunks with
  | nil => exact ⟨[], takes_nil fresh, plain_nil, by simp [takeLoop, Reading.start, carried]⟩
  | cons chunk rest =>
    obtain ⟨first, others⟩ := forall_mem_cons.mp fresh
    have available : chunk.data.length - chunk.readOffset ≠ 0 := by
      unfold Fresh at first
      omega
    rw [takeLoop]
    split
    · exact ⟨[], takes_nil fresh, plain_nil, by simp [Reading.start, carried]⟩
    rename_i room
    simp only [Reading.start, isEmpty_nil, Bool.not_true, Bool.false_and, false_eq_true,
      if_false, if_neg available, Bool.true_and, Option.isNone_none, Bool.and_true,
      or_not_self, Bool.false_or]
    have copies := copies_min room first
    simp only [Reading.start] at copies
    generalize min (len - ([] : List Byte).length) (chunk.data.length - chunk.readOffset) = count
      at copies ⊢
    generalize (chunk.data.drop chunk.readOffset).take count = bytes at copies ⊢
    have head (more : List (Marked D)) :
        carried (mark chunk.ancillary bytes ++ more) = chunk.ancillary := by
      obtain ⟨byte, others, rfl⟩ := exists_cons_of_ne_nil copies.ne_nil
      rfl
    split
    · rename_i all
      split
      · refine ⟨_, copies.used all rfl (takes_nil others), ?_, ?_⟩
        · rw [append_nil]
          exact plain_tail_mark _ _
        · rw [head]
      rename_i plain
      have bare : chunk.ancillary = none := by simpa using plain
      obtain ⟨segment, takes, more, same⟩ := @takeLoop_of_written D len control
        ⟨[] ++ bytes, if control then chunk.ancillary else none, chunk.ancillary.isSome⟩
        (size - count) rest others (by simp [copies.ne_nil]) (by simp [bare])
      refine ⟨_, copies.used all rfl takes, ?_, ?_⟩
      · rw [tail_append_of_ne_nil (by
          rw [← length_pos_iff, length_mark, length_pos_iff]
          exact copies.ne_nil)]
        exact (plain_tail_mark _ _).append more
      · rw [same, head]
    · rename_i left
      refine ⟨_, copies.cut left first others rfl, plain_tail_mark _ _, ?_⟩
      have whole := head []
      rw [append_nil] at whole
      rw [whole]

variable {state after : UnixSocketState D} {buffer : List Byte}
  {ancillary : Option (UnixAncillary D)}

/-- A receive that does not peek takes a row of bytes off the queue, and returns them
with what the first of them carries. -/
inductive Draws (state : UnixSocketState D) (len : Nat) (control : Bool) :
    Received D → UnixSocketState D → Prop
  | drained : Draws state len control .drained state
  | row {after : UnixSocketState D} {segment : List (Marked D)} (plain : Plain segment.tail)
      (fits : segment.length ≤ len)
      (queue : unread state.recvStream = segment ++ unread after.recvStream)
      (size : after.recvSize = state.recvSize - segment.length)
      (fresh : ∀ chunk ∈ after.recvStream, chunk.Fresh) :
      Draws state len control (.ready (receiveFromAncillary none
        (if control then carried segment else none) 0 (segment.map Prod.fst))) after

theorem Draws.fresh {received : Received D} (draws : Draws state len control received after)
    (fresh : ∀ chunk ∈ state.recvStream, chunk.Fresh) :
    ∀ chunk ∈ after.recvStream, chunk.Fresh := by
  cases draws with
  | drained => exact fresh
  | row plain fits queue size others => exact others

theorem draws_receiveStream (fresh : ∀ chunk ∈ state.recvStream, chunk.Fresh) {flags : BitVec 64}
    (takes : isPeek flags = false) (len : Nat) (control : Bool) :
    Draws state len control (state.receiveStream len flags control).1
      (state.receiveStream len flags control).2.1 := by
  unfold receiveStream
  split
  · have nothing : Plain ([] : List (Marked D)).tail := plain_nil
    cases control <;> exact .row nothing (Nat.zero_le _) rfl rfl fresh
  split
  · exact .drained
  rw [takes]
  obtain ⟨segment, takes, plain, ancillary⟩ :=
    @takeLoop_start D len control state.recvSize state.recvStream fresh
  dsimp only
  generalize takeLoop len control state.recvStream .start state.recvSize = outcome
    at takes ancillary ⊢
  rw [ancillary, show outcome.1.written = segment.map Prod.fst from takes.written]
  exact .row plain takes.fits takes.unread takes.size takes.fresh

theorem enqueueStream_ok (offered : state.enqueueStream buffer ancillary = (.ok count, after)) :
    count ≤ buffer.length ∧ after.recvSize = state.recvSize + count ∧
      unread after.recvStream = unread state.recvStream ++ mark ancillary (buffer.take count) ∧
      ((∀ chunk ∈ state.recvStream, chunk.Fresh) → ∀ chunk ∈ after.recvStream, chunk.Fresh) := by
  unfold enqueueStream at offered
  dsimp only at offered
  split at offered
  · cases offered
    exact ⟨Nat.zero_le _, rfl, by simp, fun fresh => fresh⟩
  rename_i nonempty
  split at offered
  · nomatch offered
  split at offered
  · nomatch offered
  cases offered
  refine ⟨Nat.min_le_right _ _, rfl, ?_, fun fresh chunk member => ?_⟩
  · simp [unread, UnixStreamChunk.unread]
  have some : 0 < buffer.length := by simpa [length_pos_iff] using nonempty
  rcases mem_append.mp member with old | new
  · exact fresh chunk old
  · rw [mem_singleton.mp new, Fresh, length_take]
    dsimp only
    omega

theorem enqueueStream_error {error : SysErr}
    (refused : state.enqueueStream buffer ancillary = (.error error, after)) : after = state := by
  unfold enqueueStream at refused
  split at refused
  · cases refused
  split at refused
  · cases refused
    rfl
  dsimp only at refused
  split at refused <;> cases refused
  rfl

theorem peekLoop_of_full (full : len ≤ reading.written.length)
    (chunks : List (UnixStreamChunk D)) : peekLoop len control chunks reading = reading := by
  cases chunks with
  | nil => rfl
  | cons chunk rest => simp only [peekLoop, if_pos full, ite_self]

/-- A peek collects what a receive would take. -/
theorem peekLoop_eq (fresh : ∀ chunk ∈ chunks, chunk.Fresh)
    (first : reading.written = [] → reading.ancillary = none) :
    peekLoop len control chunks reading = (takeLoop len control chunks reading size).1 := by
  induction chunks generalizing reading size with
  | nil => rfl
  | cons chunk rest ih =>
    obtain ⟨head, others⟩ := forall_mem_cons.mp fresh
    have offset : chunk.readOffset < chunk.data.length := head
    have available : chunk.data.length - chunk.readOffset ≠ 0 := by omega
    have something : (chunk.data.drop chunk.readOffset).isEmpty = false := by
      rw [isEmpty_eq_false_iff, ← length_pos_iff, length_drop]
      omega
    rw [peekLoop, takeLoop]
    by_cases full : len ≤ reading.written.length
    · simp only [if_pos full, ite_self]
    simp only [something, false_eq_true, if_false, length_drop]
    split
    · rfl
    -- Both loops go on with the same bytes, ancillary data and barrier.
    have ancillary : (control && reading.written.isEmpty && reading.ancillary.isNone) =
        (reading.written.isEmpty && control && reading.ancillary.isNone) := by
      rw [and_comm control]
    have barrier : (reading.written.isEmpty && chunk.ancillary.isSome) =
        ((reading.written.isEmpty && control && reading.ancillary.isNone ||
          reading.written.isEmpty && !control) && chunk.ancillary.isSome) := by
      cases empty : reading.written.isEmpty with
      | false => rfl
      | true =>
        rw [first (isEmpty_iff.mp empty)]
        cases control <;> rfl
    rw [ancillary, ← barrier]
    have positive := (copies_min full head).ne_nil
    generalize copied : (chunk.data.drop chunk.readOffset).take _ = bytes at positive ⊢
    generalize (reading.barrier || reading.written.isEmpty && chunk.ancillary.isSome) = stop
    generalize (if (reading.written.isEmpty && control && reading.ancillary.isNone) = true then
      chunk.ancillary else reading.ancillary) = passed
    cases stop with
    | true =>
      simp only [if_true]
      split <;> rfl
    | false =>
      simp only [false_eq_true, if_false]
      split
      · refine ih others fun empty => ?_
        exact absurd (append_eq_nil_iff.mp empty).2 positive
      · refine peekLoop_of_full ?_ rest
        rw [length_append, ← copied, length_take, length_drop]
        omega

/-! ## What operations change -/

/-- Of a state, only the options have changed. -/
def Retuned (before after : UnixSocketState D) : Prop :=
  after = { before with passcred := after.passcred, sndbuf := after.sndbuf, rcvbuf := after.rcvbuf }

theorem setsockopt_spec (state : UnixSocketState D) (level optname : BitVec 32)
    (value : List Byte) :
    Retuned state (state.setsockopt level optname value).2 ∧
      ((state.setsockopt level optname value).2.rcvbuf = state.rcvbuf ∨
        (optname = soRcvbuf ∨ optname = soRcvbufforce) ∧
          (state.setsockopt level optname value).2.rcvbuf =
            normalizeSocketBuffer (Bytes.wordAt 32 value 0)) := by
  unfold setsockopt
  split
  · exact ⟨rfl, .inl rfl⟩
  split
  · exact ⟨rfl, .inl rfl⟩
  split
  · exact ⟨rfl, .inl rfl⟩
  split
  · exact ⟨rfl, .inl rfl⟩
  split
  · exact ⟨rfl, .inr ⟨‹_›, rfl⟩⟩
  · exact ⟨rfl, .inl rfl⟩

/-- Of a state, only the queues have changed. -/
def Requeued (before after : UnixSocketState D) : Prop :=
  after = { before with
      recvStream := after.recvStream
      recvPackets := after.recvPackets
      recvSize := after.recvSize }

theorem offer_spec {target sender : UnixSocket D} {result : Except SysErr Nat}
    (offered : target.offer sender buffer ancillary = (result, state)) :
    Requeued target.state state ∧ target.recvSize ≤ state.recvSize := by
  rw [show state = (target.offer sender buffer ancillary).2 by rw [offered]]
  unfold UnixSocket.offer
  split
  · unfold enqueueStream
    dsimp only
    split
    · exact ⟨rfl, le_rfl⟩
    split
    · exact ⟨rfl, le_rfl⟩
    split
    · exact ⟨rfl, le_rfl⟩
    · exact ⟨rfl, Nat.le_add_right ..⟩
  · unfold enqueuePacketFrom
    dsimp only
    split
    · exact ⟨rfl, le_rfl⟩
    split
    · exact ⟨rfl, le_rfl⟩
    · exact ⟨rfl, Nat.le_add_right ..⟩

/-- A receive leaves the queue alone, or tells whether it was full; it goes on to look at
the peer only if nothing was queued. -/
theorem receive_spec {socket : UnixSocket D} {len : Nat} {flags : BitVec 64}
    {control notifies : Bool}
    {received : Received D}
    (receive : socket.receive len flags control = (received, state, notifies)) :
    Requeued socket.state state ∧
      (state = socket.state ∨ isPeek flags = false ∧
        notifies = decide (socket.recvSize = socket.rcvbuf)) ∧
      (received = .drained → if socket.kind.isStreamLike then socket.recvStream = []
        else socket.recvPackets = []) := by
  unfold UnixSocket.receive at receive
  split
  · rename_i stream
    rw [if_pos stream, receiveStream] at receive
    split at receive
    · cases receive
      exact ⟨rfl, .inl rfl, nofun⟩
    split at receive
    · rename_i empty
      cases receive
      exact ⟨rfl, .inl rfl, fun _ => List.isEmpty_iff.mp empty⟩
    split at receive
    · cases receive
      exact ⟨rfl, .inl rfl, nofun⟩
    · rename_i takes
      cases receive
      exact ⟨rfl, .inr ⟨by simpa using takes, rfl⟩, nofun⟩
  · rename_i packets
    rw [if_neg packets, receivePacket] at receive
    split at receive
    · cases receive
      exact ⟨rfl, .inl rfl, nofun⟩
    split at receive
    · rename_i empty
      cases receive
      exact ⟨rfl, .inl rfl, fun _ => empty⟩
    dsimp only at receive
    split at receive
    · cases receive
      exact ⟨rfl, .inl rfl, nofun⟩
    · rename_i takes
      cases receive
      exact ⟨rfl, .inr ⟨by simpa using takes, rfl⟩, nofun⟩

end UnixSocketState

end AetherKernel.Net
