import AetherKernel.Fd.Transfer

/-!
# Conservation of the byte stream

What a call has moved when it returns, over every interleaving with the far
end.  A call that meets an obstacle after it has moved bytes forgets them: the
error is returned, or the call is started again.  Calls that only meet
obstacles at their first transfer conserve the stream.
-/

namespace AetherKernel.Fd

open Lib List ByteStream Call Transfer FlatMemory

variable {S : Type} [ByteStream S] {M : Type} [UserMemory M]

/-! ## What is to be conserved -/

/-- The bytes of a segment, when all of them can be read. -/
def segmentBytes (memory : M) (segment : UserIoVec) : List Byte :=
  match readUserBuffer memory segment.base segment.len with
  | .error _ => []
  | .ok bytes => if bytes.length = segment.len then bytes else []

/-- The concatenated segments of a call. -/
def Call.payload (call : Call) (memory : M) : List Byte :=
  match call.segments memory with
  | .error _ => []
  | .ok segments => segments.flatMap (segmentBytes memory)

/-- The bytes lie in the segments of the call, in order, and nothing else of
the memory was written but the length of the sender's address. -/
def Call.Stored (call : Call) (before : M) (moved : List Byte) (after : M) : Prop :=
  ∃ segments middle, call.segments before = .ok segments ∧
    writeIovecBytes segments moved before = (.ok (), middle) ∧
    writeReturnedSocketAddress call.addressLen middle = (.ok (), after)

/-- A call that has returned has moved what it reports: an input call has
stored it, an output call has taken it from the front of its segments. -/
def Call.Conserves (call : Call) (before : M) (moved : List Byte) (state : Execution S M) : Prop :=
  match state.phase with
  | .returned (.error _) => moved = []
  | .returned (.ok count) =>
    moved.length = count ∧ (call.IsInput → call.Stored before moved state.memory) ∧
      (¬call.IsInput → moved = (call.payload before).take count ∧ state.memory = before)
  | _ => True

/-- The bytes left the front of the stream, or came to its back; only what the far
end took in the meantime is gone. -/
def Transfer.Shifts (transfer : Transfer) (meanwhile : Meanwhile S) (moved : List Byte)
    (before after : S) : Prop :=
  match transfer with
  | .receive _ _ _ _ => incoming before = moved ++ incoming after
  | .send _ _ => ∃ drained : List Byte, drained.length ≤ taken meanwhile ∧
      outgoing before ++ moved = drained ++ outgoing after

/-- The bytes that a step is labelled with are those that it moved. -/
def Moves (state : Execution S M) (label : Move S × List Byte) (after : Execution S M) : Prop :=
  match state.phase, label.1 with
  | _, .peer _ => label.2 = []
  | .moving (transfer :: _) _, .run meanwhile =>
    transfer.Shifts meanwhile label.2 state.stream after.stream
  | _, _ => label.2 = [] ∧ after.stream = state.stream

/-! ## The condition -/

/-- A transfer meets no obstacle that would lose bytes: what is taken can be
stored, what is sent can be read whole and goes out, and after the first transfer
neither the memory nor the stream refuses. -/
def Transfer.Clear (transfer : Transfer) (total : Nat) (meanwhile : Meanwhile S)
    (stream : S) (memory : M) : Prop :=
  match transfer with
  | .receive want segments peek addressLen =>
    peek = false ∧ (∀ data, data.length ≤ want → ∃ middle after,
        writeIovecBytes segments data memory = (.ok (), middle) ∧
        writeReturnedSocketAddress addressLen middle = (.ok (), after)) ∧
      (total ≠ 0 → ∃ data after, read stream want = (.ok data, after))
  | .send base len =>
    Shows stream ∧
      (∀ bytes, readUserBuffer memory base len = .ok bytes → bytes.length = len) ∧
      (total ≠ 0 → ∃ bytes, readUserBuffer memory base len = .ok bytes ∧ (ByteStream.socket S ∨
          ∃ count after, write stream bytes meanwhile = (.ok count, after)))

/-- The step is one that can be taken without losing bytes. -/
def Call.Clear (state : Execution S M) (label : Move S × List Byte) : Prop :=
  match state.phase, label.1 with
  | .moving (transfer :: _) total, .run meanwhile =>
    transfer.Clear total meanwhile state.stream state.memory
  | _, _ => True

/-- The steps of a call, each with the bytes it moved. -/
def Call.Executes (call : Call) (blocking : Bool) (state : Execution S M)
    (label : Move S × List Byte) (after : Execution S M) : Prop :=
  call.step blocking state label.1 = some (label.2, after)

/-! ## Transfers -/

namespace Transfer

variable {total : Nat} {meanwhile : Meanwhile S} {stream : S} {memory : M}

/-- The three ways in which a transfer out of the stream ends. -/
theorem perform_receive {want : Nat} {segments : List UserIoVec} {addressLen : Option Nat}
    (clear : (receive want segments false addressLen).Clear total meanwhile stream memory) :
    (∃ error after, total = 0 ∧
        (receive want segments false addressLen).perform total meanwhile stream memory =
          ⟨[], .error error, after, memory⟩) ∨
      ∃ data after middle last, data.length ≤ want ∧
        writeIovecBytes segments data memory = (.ok (), middle) ∧
        writeReturnedSocketAddress addressLen middle = (.ok (), last) ∧
        (receive want segments false addressLen).perform total meanwhile stream memory =
          ⟨data, .ok (total + data.length, decide (want ≤ data.length)), after, last⟩ := by
  obtain ⟨-, writable, readable⟩ := clear
  cases got : read stream want with
  | mk result after =>
    cases result with
    | error error =>
      left
      refine ⟨error, after, ?_, ?_⟩
      · by_contra later
        obtain ⟨data, other, same⟩ := readable later
        rw [got] at same
        cases same
      · simp [perform, receiveFrom, got]
    | ok data =>
      right
      have short := (read_ok got).1
      obtain ⟨middle, last, stored, returned⟩ := writable data short
      refine ⟨data, after, middle, last, short, stored, returned, ?_⟩
      simp [perform, receiveFrom, got, stored, returned]

/-- The ways in which a transfer into the stream ends. -/
theorem perform_send {base len : Nat}
    (clear : (send base len).Clear total meanwhile stream memory) :
    (∃ error after, total = 0 ∧
        (send base len).perform total meanwhile stream memory = ⟨[], .error error, after, memory⟩) ∨
      (∃ after, (send base len).perform total meanwhile stream memory =
        ⟨[], .ok (total, false), after, memory⟩) ∨
      ∃ count after, count ≤ (segmentBytes memory ⟨base, len⟩).length ∧
        (send base len).perform total meanwhile stream memory =
          ⟨(segmentBytes memory ⟨base, len⟩).take count,
            .ok (total + count, decide ((segmentBytes memory ⟨base, len⟩).length ≤ count)),
            after, memory⟩ := by
  obtain ⟨-, whole, ready⟩ := clear
  cases loaded : readUserBuffer memory base len with
  | error error =>
    left
    refine ⟨error, stream, ?_, by simp [perform, loaded]⟩
    by_contra later
    obtain ⟨bytes, same, -⟩ := ready later
    rw [loaded] at same
    cases same
  | ok bytes =>
    have segment : segmentBytes memory ⟨base, len⟩ = bytes := by
      simp [segmentBytes, loaded, whole bytes loaded]
    rw [segment]
    cases put : write stream bytes meanwhile with
    | mk result after =>
      cases result with
      | ok count =>
        right
        right
        exact ⟨count, after, (write_ok put).1, by simp [perform, loaded, put]⟩
      | error error =>
        by_cases reports : ByteStream.socket S ∧ total ≠ 0
        · right
          left
          exact ⟨after, by simp [perform, loaded, put, reports]⟩
        left
        refine ⟨error, after, ?_, by simp [perform, loaded, put, reports]⟩
        by_contra later
        obtain ⟨other, sameBytes, socket | ⟨count, last, written⟩⟩ := ready later
        · exact reports ⟨socket, later⟩
        · rw [loaded] at sameBytes
          cases sameBytes
          rw [put] at written
          cases written

/-- What a transfer takes from the stream does not depend on where it is
stored. -/
theorem perform_receive_moved (want total : Nat) (segments : List UserIoVec) (peek : Bool)
    (addressLen : Option Nat) (meanwhile : Meanwhile S) (stream : S) (memory : M) :
    ((receive want segments peek addressLen).perform total meanwhile stream
        memory).stream = (receiveFrom want peek stream).2 ∧
      ((receive want segments peek addressLen).perform total meanwhile stream memory).moved =
        if peek then [] else ((receiveFrom want peek stream).1.toOption).getD [] := by
  dsimp only [perform]
  cases receiveFrom want peek stream with
  | mk result after =>
    cases result with
    | error error => cases peek <;> exact ⟨rfl, rfl⟩
    | ok data =>
      dsimp only
      split
      · exact ⟨rfl, rfl⟩
      · split <;> exact ⟨rfl, rfl⟩

theorem shifts_perform {transfer : Transfer}
    (clear : transfer.Clear total meanwhile stream memory) :
    transfer.Shifts meanwhile (transfer.perform total meanwhile stream memory).moved stream
      (transfer.perform total meanwhile stream memory).stream := by
  cases transfer with
  | receive want segments peek addressLen =>
    obtain ⟨sameStream, sameMoved⟩ :=
      perform_receive_moved want total segments peek addressLen meanwhile stream memory
    rw [sameStream, sameMoved]
    cases peek with
    | true => rfl
    | false =>
      simp only [receiveFrom]
      cases got : read stream want with
      | mk result after =>
        cases result with
        | error error => exact (read_error got).symm
        | ok data => exact (read_ok got).2
  | send base len =>
    unfold Shifts perform
    dsimp only
    split
    · exact ⟨[], Nat.zero_le _, by simp⟩
    · split
      · rename_i put
        exact (write_ok put).2 clear.1
      · rename_i put
        exact ⟨[], Nat.zero_le _, by simp [write_error put]⟩

end Transfer

variable {call : Call} {blocking socket : Bool} {state : Execution S M} {memory : M}
  {transfers : List Transfer}

variable {after : Execution S M} {label : Move S × List Byte}

theorem Call.Executes.moves (clear : Clear state label)
    (step : call.Executes blocking state label after) : Moves state label after := by
  obtain ⟨move, moved⟩ := label
  obtain ⟨phase, stream, memory⟩ := state
  unfold Executes Call.step at step
  cases move with
  | peer far =>
    cases step
    cases phase <;> rfl
  | wake ready =>
    cases phase <;> cases step
    exact ⟨rfl, rfl⟩
  | run meanwhile =>
    cases phase with
    | attempt =>
      dsimp only at step
      split at step <;> cases step <;> exact ⟨rfl, rfl⟩
    | moving rest total =>
      cases rest with
      | nil =>
        cases step
        exact ⟨rfl, rfl⟩
      | cons transfer rest =>
        cases step
        exact shifts_perform clear
    | waiting | returned => cases step

/-! ## The transfers of a call -/

theorem segmentBytes_of_len_zero {segment : UserIoVec} (empty : segment.len = 0) :
    segmentBytes memory segment = [] := by
  unfold segmentBytes
  split
  · rfl
  · split
    · rename_i bytes _ whole
      exact eq_nil_of_length_eq_zero (whole.trans empty)
    · rfl

theorem flatMap_segmentBytes_filter (memory : M) (segments : List UserIoVec) :
    (segments.filter fun segment => segment.len ≠ 0).flatMap (segmentBytes memory) =
      segments.flatMap (segmentBytes memory) := by
  induction segments with
  | nil => rfl
  | cons segment rest ih =>
    by_cases empty : segment.len = 0
    · rw [filter_cons_of_neg (by simp [empty]), ih, flatMap_cons,
        segmentBytes_of_len_zero empty, nil_append]
    · rw [filter_cons_of_pos (by simp [empty]), flatMap_cons, flatMap_cons, ih]

/-! ## The invariant -/

/-- An input call in the middle of its row: it has not begun, it has come to
the end of the row, or it has filled the first segments of a file. -/
def Call.Receiving (call : Call) (before : M) (moved : List Byte) (rest : List Transfer)
    (memory : M) : Prop :=
  (∃ segments want peek, call.segments before = .ok segments ∧
      rest = [.receive want segments peek call.addressLen] ∧ moved = [] ∧ memory = before) ∨
    (rest = [] ∧ call.Stored before moved memory) ∨
    ∃ segments done left, call.segments before = .ok segments ∧ call.addressLen = none ∧
      (segments.filter fun segment => segment.len ≠ 0) = done ++ left ∧
      rest = left.map (fun segment => .receive segment.len [segment] false none) ∧
      moved.length = capacity done ∧ writeIovecBytes done moved before = (.ok (), memory)

/-- An output call in the middle of its row has sent the first segments. -/
def Call.Sending (call : Call) (before : M) (moved : List Byte) (rest : List Transfer)
    (memory : M) : Prop :=
  ∃ done left : List UserIoVec,
    rest = left.map (fun segment => .send segment.base segment.len) ∧
    (done ++ left).flatMap (segmentBytes before) = call.payload before ∧
    moved = done.flatMap (segmentBytes before) ∧ memory = before

theorem Call.receiving_of_planned (input : call.IsInput)
    (planned : call.transfers socket memory = .ok transfers) :
    call.Receiving memory [] transfers memory := by
  cases call with
  | read address len =>
    cases planned
    exact .inl ⟨_, len, false, rfl, rfl, rfl, rfl⟩
  | readv iov iovcnt =>
    simp only [Call.transfers] at planned
    split at planned
    · cases planned
    rename_i segments parsed
    unfold readvTransfers at planned
    split at planned
    · split at planned
      · cases planned
      · cases planned
        exact .inl ⟨segments, _, false, parsed, rfl, rfl, rfl⟩
    · cases planned
      exact .inr (.inr ⟨segments, [], _, parsed, rfl, rfl, rfl, rfl, rfl⟩)
  | recvfrom address len peek source sourceLen =>
    simp only [Call.transfers] at planned
    split at planned
    · cases planned
    split at planned
    · cases planned
    · cases planned
      exact .inl ⟨_, len, peek, rfl, rfl, rfl, rfl⟩
  | write | writev => exact input.elim

theorem Call.sending_of_planned (output : ¬call.IsInput)
    (planned : call.transfers socket memory = .ok transfers) :
    call.Sending memory [] transfers memory := by
  cases call with
  | write address len =>
    cases planned
    exact ⟨[], [⟨address, len⟩], rfl, rfl, rfl, rfl⟩
  | writev iov iovcnt =>
    simp only [Call.transfers] at planned
    split at planned
    · cases planned
    rename_i segments parsed
    cases planned
    refine ⟨[], _, rfl, ?_, rfl, rfl⟩
    rw [nil_append, flatMap_segmentBytes_filter, payload, parsed]
  | read | readv | recvfrom => exact absurd trivial output

def Call.Progress (call : Call) (before : M) (moved : List Byte) (state : Execution S M) : Prop :=
  match state.phase with
  | .attempt | .waiting => moved = [] ∧ state.memory = before
  | .moving rest total =>
    moved.length = total ∧ (call.IsInput → call.Receiving before moved rest state.memory) ∧
      (¬call.IsInput → call.Sending before moved rest state.memory)
  | .returned _ => call.Conserves before moved state

section Progress

variable {before : M} {moved : List Byte} {stream : S}
  {total : Nat} {rest : List Transfer} {transfer : Transfer} {meanwhile : Meanwhile S}

omit [ByteStream S] in
/-- A call that fails before it has moved anything may be started again. -/
theorem progress_of_error (error : SysErr) (none : moved = []) (same : memory = before) :
    call.Progress before moved
      (⟨.finish blocking (.error error), stream, memory⟩ : Execution S M) := by
  unfold Phase.finish
  split
  · split
    · exact ⟨none, same⟩
    · exact none
  · exact none

omit [ByteStream S] in
theorem progress_of_ok {count : Nat} (counted : moved.length = count)
    (input : call.IsInput → call.Stored before moved memory)
    (output : ¬call.IsInput → moved = (call.payload before).take count ∧ memory = before) :
    call.Progress before moved (⟨.finish blocking (.ok count), stream, memory⟩ : Execution S M) :=
  ⟨counted, input, output⟩

theorem progress_of_planned
    (planned : call.transfers (ByteStream.socket S) before = .ok transfers) :
    call.Progress before [] (⟨.moving transfers 0, stream, before⟩ : Execution S M) :=
  ⟨rfl, fun input => receiving_of_planned input planned,
    fun output => sending_of_planned output planned⟩

omit [ByteStream S] in
/-- The end of the row. -/
theorem progress_of_end
    (held : call.Progress before moved (⟨.moving [] total, stream, memory⟩ : Execution S M)) :
    call.Progress before moved
      (⟨.finish blocking (.ok total), stream, memory⟩ : Execution S M) := by
  obtain ⟨counted, receiving, sending⟩ := held
  refine progress_of_ok counted (fun input => ?_) fun output => ?_
  · obtain ⟨_, _, _, _, begun, _⟩ | ⟨-, stored⟩ | ⟨segments, done, left, parsed, plain, split, row,
      -, stored⟩ := receiving input
    · cases begun
    · exact stored
    · have last : left = [] := map_eq_nil_iff.mp row.symm
      rw [last, append_nil] at split
      refine ⟨segments, memory, parsed, ?_, by rw [plain]; rfl⟩
      rw [← writeIovecBytes_filter, split]
      exact stored
  · obtain ⟨done, left, row, whole, sent, same⟩ := sending output
    have last : left = [] := map_eq_nil_iff.mp row.symm
    rw [last, append_nil, ← sent] at whole
    exact ⟨by rw [← whole, ← counted, take_length], same⟩

omit [ByteStream S] in
theorem progress_of_after {goOn : Bool} (next : goOn = true →
      call.Progress before moved (⟨.moving rest total, stream, memory⟩ : Execution S M))
    (ended : goOn = false → call.Progress before moved
        (⟨.finish blocking (.ok total), stream, memory⟩ : Execution S M)) :
    call.Progress before moved
      (⟨.after blocking rest (.ok (total, goOn)), stream, memory⟩ : Execution S M) := by
  cases goOn with
  | false => exact ended rfl
  | true => exact next rfl

variable (held : call.Progress before moved
    (⟨.moving (transfer :: rest) total, stream, memory⟩ : Execution S M))
  (clear : transfer.Clear total meanwhile stream memory)
include held clear

/-- One transfer of an input call. -/
theorem progress_of_receive (input : call.IsInput) :
    let done := transfer.perform total meanwhile stream memory
    call.Progress before (moved ++ done.moved)
      (⟨.after blocking rest done.outcome, done.stream, done.memory⟩ : Execution S M) := by
  obtain ⟨counted, receiving, -⟩ := held
  dsimp only
  obtain ⟨segments, want, peek, parsed, single, fresh, same⟩ | ⟨ended, -⟩ |
    ⟨segments, done, left, parsed, plain, split, row, filled, stored⟩ := receiving input
  · -- the only transfer of the call
    obtain ⟨rfl, rfl⟩ := List.cons.inj single
    subst fresh same
    obtain rfl : peek = false := clear.1
    obtain ⟨error, after, -, done⟩ | ⟨data, after, middle, last, -, stored, returned, done⟩ :=
      perform_receive clear
    · rw [done]
      exact progress_of_error error rfl rfl
    rw [done, ← counted, length_nil, Nat.zero_add]
    have whole : call.Stored memory data last := ⟨segments, middle, parsed, stored, returned⟩
    apply progress_of_after
    · intro _
      exact ⟨rfl, fun _ => .inr (.inl ⟨rfl, whole⟩), fun output => absurd input output⟩
    · intro _
      exact progress_of_ok rfl (fun _ => whole) fun output => absurd input output
  · cases ended
  -- the next segment of a file
  obtain _ | ⟨segment, left⟩ := left
  · cases row
  obtain ⟨rfl, rfl⟩ := List.cons.inj row
  obtain ⟨error, after, first, result⟩ |
    ⟨data, after, middle, last, short, piece, returned, result⟩ :=
    perform_receive clear
  · have none : moved = [] := eq_nil_of_length_eq_zero (counted.trans first)
    subst none
    rw [writeIovecBytes_nil] at stored
    rw [result]
    exact progress_of_error error rfl (Prod.mk.inj stored).2.symm
  rw [result]
  dsimp only
  obtain rfl : middle = last := (Prod.mk.inj returned).2
  have both : writeIovecBytes (done ++ segment :: left) (moved ++ data) before =
      (.ok (), middle) := by
    rw [writeIovecBytes_append filled stored, writeIovecBytes_of_short short, piece]
  have whole : call.Stored before (moved ++ data) middle := by
    refine ⟨segments, middle, parsed, ?_, by rw [plain]; rfl⟩
    rw [← writeIovecBytes_filter, split]
    exact both
  have count : (moved ++ data).length = total + data.length := by
    rw [length_append, counted]
  apply progress_of_after
  · intro full
    refine ⟨count, fun _ => .inr (.inr ⟨segments, done ++ [segment], left, parsed, plain,
      by rw [split, append_cons], rfl, ?_, ?_⟩), fun output => absurd input output⟩
    · have := of_decide_eq_true full
      rw [length_append, capacity_append, capacity_cons, capacity_nil]
      omega
    · rw [writeIovecBytes_append filled stored, piece]
  · intro _
    exact progress_of_ok count (fun _ => whole) fun output => absurd input output

/-- One transfer of an output call. -/
theorem progress_of_send (output : ¬call.IsInput) :
    let done := transfer.perform total meanwhile stream memory
    call.Progress before (moved ++ done.moved)
      (⟨.after blocking rest done.outcome, done.stream, done.memory⟩ : Execution S M) := by
  obtain ⟨counted, -, sending⟩ := held
  dsimp only
  obtain ⟨done, left, row, whole, sent, same⟩ := sending output
  obtain _ | ⟨segment, left⟩ := left
  · cases row
  obtain ⟨rfl, rfl⟩ := List.cons.inj row
  subst same
  have front : call.payload memory =
      moved ++ (segmentBytes memory segment ++ left.flatMap (segmentBytes memory)) := by
    rw [← whole, sent, flatMap_append, flatMap_cons]
  obtain ⟨error, after, first, result⟩ | ⟨after, result⟩ | ⟨count, after, fits, result⟩ :=
    perform_send clear
  · have none : moved = [] := eq_nil_of_length_eq_zero (counted.trans first)
    rw [result, append_nil]
    exact progress_of_error error none rfl
  · rw [result, append_nil]
    refine progress_of_after nofun fun _ =>
      progress_of_ok counted (fun input => absurd input output) fun _ => ⟨?_, rfl⟩
    rw [front, ← counted, take_left]
  rw [result]
  have length : (moved ++ (segmentBytes memory segment).take count).length = total + count := by
    rw [length_append, counted, length_take, Nat.min_eq_left fits]
  apply progress_of_after
  · intro full
    have all := of_decide_eq_true full
    refine ⟨length, fun input => absurd input output, fun _ =>
      ⟨done ++ [segment], left, rfl, by rw [append_assoc]; exact whole, ?_, rfl⟩⟩
    rw [take_of_length_le all, sent]
    simp
  · intro _
    refine progress_of_ok length (fun input => absurd input output) fun _ => ⟨?_, rfl⟩
    rw [front, ← counted, take_length_add_append, take_append_of_le_length fits]

omit held clear

/-- What a step that loses nothing preserves. -/
theorem Call.Executes.progress (held : call.Progress before moved state) (clear : Clear state label)
    (step : call.Executes blocking state label after) :
    call.Progress before (moved ++ label.2) after := by
  obtain ⟨move, bytes⟩ := label
  obtain ⟨phase, stream, memory⟩ := state
  unfold Executes Call.step at step
  cases move with
  | peer far =>
    cases step
    rw [append_nil]
    cases phase <;> exact held
  | wake ready =>
    cases phase <;> cases step
    rw [append_nil]
    cases ready with
    | true => exact held
    | false => exact held.1
  | run meanwhile =>
    cases phase with
    | attempt =>
      obtain ⟨none, same⟩ := held
      subst none same
      dsimp only at step
      split at step
      · cases step
        exact progress_of_error _ rfl rfl
      · rename_i planned
        cases step
        exact progress_of_planned planned
    | moving rest total =>
      cases rest with
      | nil =>
        cases step
        rw [append_nil]
        exact progress_of_end held
      | cons transfer rest =>
        cases step
        by_cases input : call.IsInput
        · exact progress_of_receive held clear input
        · exact progress_of_send held clear input
    | waiting | returned => cases step

end Progress

omit [ByteStream S] in
theorem Call.Progress.conserves {before : M} {moved : List Byte}
    (held : call.Progress before moved state) : call.Conserves before moved state := by
  obtain ⟨phase, stream, memory⟩ := state
  cases phase with
  | attempt | moving | waiting => trivial
  | returned result => exact held

/-- Over every interleaving with the far end, a call whose transfers meet no
obstacle after the first has moved, when it returns, exactly the bytes it
reports, and none when it returns an error. -/
def Conserving (S M : Type) [ByteStream S] [UserMemory M] : Prop :=
  ∀ (call : Call) (blocking : Bool) (stream : S) (memory : M) (labels : List (Move S × List Byte))
    (last : Execution S M),
    Run (Guarded Clear (call.Executes blocking)) ⟨.attempt, stream, memory⟩ labels last →
    call.Conserves memory (labels.flatMap Prod.snd) last ∧
      ∀ (state after : Execution S M) (label : Move S × List Byte), Clear state label →
        call.Executes blocking state label after → Moves state label after

theorem conserving (S M : Type) [ByteStream S] [UserMemory M] : Conserving S M := by
  intro call blocking stream memory labels last run
  refine ⟨?_, fun state after label clear step => step.moves clear⟩
  have preserved : ∀ (seen : List (Move S × List Byte)) (state : Execution S M)
      (label : Move S × List Byte) (after : Execution S M),
      call.Progress memory (seen.flatMap Prod.snd) state →
      Guarded Clear (call.Executes blocking) state label after →
      call.Progress memory ((seen ++ [label]).flatMap Prod.snd) after := by
    rintro seen state label after held ⟨clear, step⟩
    rw [flatMap_append, flatMap_cons, flatMap_nil, append_nil]
    exact step.progress held clear
  exact (run.history preserved ⟨rfl, rfl⟩).conserves

/-- Pipes, terminals and stream sockets. -/
theorem conserves_while_clear (M D : Type) [UserMemory M] :
    Conserving PipeEndpoint M ∧ Conserving Tty M ∧ Conserving (UnixStreamSocket D) M :=
  ⟨conserving _ _, conserving _ _, conserving _ _⟩

/-! ## Two calls on a pipe -/

namespace FlatMemory

/-- Two segments of four bytes each, at `100` and `200`; the vectors stand at
`0`. -/
def twoSegments : FlatMemory where
  byteAt address := (Bytes.ofNat 8 100 ++ Bytes.ofNat 8 4 ++ Bytes.ofNat 8 200 ++
    Bytes.ofNat 8 4).getD address 0

theorem exists_writeIovecBytes (segments : List UserIoVec) (bytes : List Byte)
    (memory : FlatMemory) : ∃ after, writeIovecBytes segments bytes memory = (.ok (), after) := by
  induction segments generalizing bytes memory with
  | nil => exact ⟨memory, rfl⟩
  | cons segment rest ih =>
    rw [writeIovecBytes]
    split
    · exact ⟨memory, rfl⟩
    · dsimp only
      split
      · exact ih bytes memory
      · simpa [writeUserBuffer, UserMemory.write] using ih _ _

end FlatMemory

/-- The read end of a pipe with some bytes in it. -/
def readEnd (bytes : List Byte) (writers : Nat) : PipeEndpoint :=
  ⟨.read, bytes, 1, writers⟩

/-- A `readv` whose second segment finds bytes in the pipe. -/
theorem conserves_while_clear_full_pipe :
    ∃ (labels : List (Move PipeEndpoint × List Byte)) (last : Execution PipeEndpoint FlatMemory),
      Run (Guarded Clear ((readv 0 2).Executes true))
        ⟨.attempt, readEnd [1, 2, 3, 4, 5, 6, 7, 8] 1, twoSegments⟩ labels last ∧
      last.phase = .returned (.ok 8) ∧
      (readv 0 2).Conserves twoSegments (labels.flatMap Prod.snd) last := by
  have writable (segments : List UserIoVec) (data : List Byte) (memory : FlatMemory) :
      ∃ middle after, writeIovecBytes segments data memory = (.ok (), middle) ∧
        writeReturnedSocketAddress none middle = (.ok (), after) := by
    obtain ⟨middle, stored⟩ := exists_writeIovecBytes segments data memory
    exact ⟨middle, middle, stored, rfl⟩
  have run : Run (Guarded Clear ((readv 0 2).Executes true))
      ⟨.attempt, readEnd [1, 2, 3, 4, 5, 6, 7, 8] 1, twoSegments⟩
      [(.run [], []), (.run [], [1, 2, 3, 4]), (.run [], [5, 6, 7, 8]), (.run [], [])] _ :=
    .cons ⟨trivial, rfl⟩ (.cons ⟨⟨rfl, fun data _ => writable _ data _, fun _ => ⟨_, _, rfl⟩⟩, rfl⟩
      (.cons ⟨⟨rfl, fun data _ => writable _ data _, fun _ => ⟨_, _, rfl⟩⟩, rfl⟩
        (.cons ⟨trivial, rfl⟩ .nil)))
  exact ⟨_, _, run, rfl, ((conserves_while_clear FlatMemory Unit).1 _ _ _ _ _ _ run).1⟩

/-- `readv` takes the first four bytes, finds the pipe empty at its second
segment, and starts again when the writer has sent four more and gone: it
returns four of the eight bytes it has taken. -/
theorem readv_drops_bytes_on_restart :
    ∃ (labels : List (Move PipeEndpoint × List Byte)) (last : Execution PipeEndpoint FlatMemory),
      Run ((readv 0 2).Executes true) ⟨.attempt, readEnd [1, 2, 3, 4] 1, twoSegments⟩ labels last ∧
      ¬(readv 0 2).Conserves twoSegments (labels.flatMap Prod.snd) last := by
  let moves : List (Move PipeEndpoint) :=
    [.run [], .run [], .run [], .peer (readEnd [5, 6, 7, 8] 0),
    .wake true, .run [], .run [], .run []]
  have played : (execute ((readv 0 2).step true)
      ⟨.attempt, readEnd [1, 2, 3, 4] 1, twoSegments⟩ moves).map
        (fun outcome => (outcome.1.flatMap Prod.snd, outcome.2.phase)) =
      some ([1, 2, 3, 4, 5, 6, 7, 8], .returned (.ok 4)) := by rfl
  obtain ⟨⟨labels, last⟩, played, outcome⟩ := Option.map_eq_some_iff.mp played
  refine ⟨labels, last, run_of_execute played, fun conserved => ?_⟩
  obtain ⟨moved, phase⟩ := Prod.mk.inj outcome
  unfold Conserves at conserved
  rw [moved, phase] at conserved
  exact absurd conserved.1 (by decide)

end AetherKernel.Fd
