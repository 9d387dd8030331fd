import AetherKernel.Fd.Transfer

/-!
# Pipes

Any number of processors open, close, read, write and poll the ends of a pipe.
What one of them does under the lock of the pipe is one step, and so is a
notification of the waiters.  A write gives the lock back after each chunk.

`PipeState::version` is only read for wait tokens and is left out.
-/

namespace AetherKernel.Fd

open Lib Vfs Function List PipeEndpoint PipeBuffer

variable (endpoint : PipeEndpoint)

def PipeEndpoint.poll (events : PollEvents) : PollEvents :=
  let inner := endpoint.buffer
  (if endpoint.kind = .read ∧ events.contains .read ∧ (inner.bytes ≠ [] ∨ inner.writers = 0) then
    PollEvents.read else 0) |||
  (if endpoint.kind = .read ∧ inner.writers = 0 then PollEvents.hup else 0) |||
  (if endpoint.kind = .write ∧ events.contains .write ∧ inner.readers ≠ 0 ∧
      inner.bytes.length < pipeCapacity then PollEvents.write else 0) |||
  if endpoint.kind = .write ∧ inner.readers = 0 then PollEvents.error else 0

/-- A read takes what it returns from the front. -/
theorem PipeEndpoint.exists_rest (len : Nat) :
    ∃ rest, (endpoint.read len).2.buffer = { endpoint.buffer with bytes := rest } ∧
      endpoint.buffer.bytes = (endpoint.read len).1.toOption.getD [] ++ rest := by
  unfold read
  split
  · exact ⟨_, rfl, rfl⟩
  dsimp only
  split
  · exact ⟨_, rfl, (take_append_drop _ _).symm⟩
  split <;> exact ⟨_, rfl, rfl⟩

namespace PipeBuffer

variable (buffer : PipeBuffer)

/-- How many ends of a kind the buffer knows of. -/
def count : PipeEndpointKind → Nat
  | .read => buffer.readers
  | .write => buffer.writers

/-- `add_reader` and `add_writer`; the counters are `usize`. -/
def add : PipeEndpointKind → PipeBuffer
  | .read => { buffer with readers := min (buffer.readers + 1) (2 ^ 64 - 1) }
  | .write => { buffer with writers := min (buffer.writers + 1) (2 ^ 64 - 1) }

/-- `remove_reader` and `remove_writer`. -/
def remove : PipeEndpointKind → PipeBuffer
  | .read => { buffer with readers := buffer.readers - 1 }
  | .write => { buffer with writers := buffer.writers - 1 }

end PipeBuffer

/-- A call of `PipeEndpoint::write`: its buffer, how much of it is in the pipe, and
what it has returned. -/
structure PipeWrite where
  bytes : List Byte
  written : Nat
  result : Option (Except FsError Nat)

/-- The bytes that the pipe has accepted. -/
def PipeWrite.accepted (write : PipeWrite) : List Byte :=
  write.bytes.take write.written

/-- Where a processor is in an operation on the pipe. -/
inductive PipePhase where
  | idle
  /-- At the head of the loop of a write. -/
  | writing (id : Nat)
  /-- The lock is free again, and a notification is due; a write goes on after it. -/
  | notifying (events : PollEvents) (next : Option Nat)

/-- The write that a processor is in. -/
def PipePhase.write : PipePhase → Option Nat
  | .idle => none
  | .writing id => some id
  | .notifying _ next => next

/-- A pipe with the operations on it: those that are going on, the writes by their
numbers, and what the reads have returned, in the order of the lock. -/
structure Pipe extends buffer : PipeBuffer where
  /-- How many ends of a kind are open. -/
  opened : PipeEndpointKind → Nat
  phases : Nat → PipePhase
  writes : Nat → PipeWrite
  nextWrite : Nat
  reads : List (List Byte)

inductive PipeStep where
  | open (cpu : Nat) (kind : PipeEndpointKind)
  | release (cpu : Nat) (kind : PipeEndpointKind)
  | read (cpu : Nat) (kind : PipeEndpointKind) (len : Nat)
  | write (cpu : Nat) (kind : PipeEndpointKind) (bytes : List Byte)
  | offer (cpu : Nat)
  | notify (cpu : Nat) (events : PollEvents)
  | poll (cpu : Nat) (kind : PipeEndpointKind) (events : PollEvents)

def PipeStep.cpu : PipeStep → Nat
  | .open cpu _ | .release cpu _ | .read cpu _ _ | .write cpu _ _ | .offer cpu | .notify cpu _
  | .poll cpu _ _ => cpu

namespace Pipe

/-- `anonymous_pipe`. -/
def new : Pipe where
  buffer := ⟨[], 0, 0⟩
  opened _ := 0
  phases _ := .idle
  writes _ := ⟨[], 0, none⟩
  nextWrite := 0
  reads := []

/-- What waiters are told when an end is opened or closed. -/
def endsChanged : PollEvents :=
  PollEvents.read ||| PollEvents.write ||| PollEvents.error ||| PollEvents.hup

def go (pipe : Pipe) (cpu : Nat) (phase : PipePhase) : Pipe :=
  { pipe with phases := update pipe.phases cpu phase }

/-- A write returns. -/
def finish (pipe : Pipe) (cpu id : Nat) (result : Except FsError Nat) : Pipe :=
  { pipe with
    writes := update pipe.writes id { pipe.writes id with result := some result } }.go
      cpu .idle

/-- What is left of the buffer of a write. -/
def rest (pipe : Pipe) (id : Nat) : List Byte :=
  (pipe.writes id).bytes.drop (pipe.writes id).written

/-- The steps: an operation begins, a write makes a turn of its loop, or the waiters
are notified. -/
inductive Performs (pipe : Pipe) : PipeStep → Pipe → Prop
  -- Every open file has a reference to the node, and more of them are an abort.
  | open {cpu : Nat} {kind : PipeEndpointKind} (idle : pipe.phases cpu = .idle)
      (room : pipe.opened kind < isizeMax) :
      Performs pipe (.open cpu kind) ({ pipe with
        buffer := pipe.add kind
        opened := update pipe.opened kind (pipe.opened kind + 1) }.go cpu
          (.notifying endsChanged none))
  | release {cpu : Nat} {kind : PipeEndpointKind} (idle : pipe.phases cpu = .idle)
      (held : 0 < pipe.opened kind) :
      Performs pipe (.release cpu kind) ({ pipe with
        buffer := pipe.remove kind
        opened := update pipe.opened kind (pipe.opened kind - 1) }.go cpu
          (.notifying endsChanged none))
  | read {cpu len : Nat} {kind : PipeEndpointKind} (idle : pipe.phases cpu = .idle) :
      Performs pipe (.read cpu kind len) ({ pipe with
        buffer := ((PipeEndpoint.mk kind pipe.buffer).read len).2.buffer
        reads := pipe.reads ++
          [((PipeEndpoint.mk kind pipe.buffer).read len).1.toOption.getD []] }.go cpu
          -- `was_full`
          (if kind = PipeEndpointKind.read ∧ pipe.bytes.length = pipeCapacity then
            .notifying .write none
          else .idle))
  | refused {cpu : Nat} {bytes : List Byte} (idle : pipe.phases cpu = .idle) :
      Performs pipe (.write cpu .read bytes) pipe
  | write {cpu : Nat} {bytes : List Byte} (idle : pipe.phases cpu = .idle) :
      Performs pipe (.write cpu .write bytes) ({ pipe with
        writes := update pipe.writes pipe.nextWrite ⟨bytes, 0, none⟩
        nextWrite := pipe.nextWrite + 1 }.go cpu (.writing pipe.nextWrite))
  | poll {cpu : Nat} {kind : PipeEndpointKind} {events : PollEvents}
      (idle : pipe.phases cpu = .idle) : Performs pipe (.poll cpu kind events) pipe
  | written {cpu id : Nat} (writes : pipe.phases cpu = .writing id) (all : pipe.rest id = []) :
      Performs pipe (.offer cpu) (pipe.finish cpu id (.ok (pipe.writes id).written))
  | stopped {cpu id : Nat} {error : FsError} {buffer : PipeBuffer}
      (writes : pipe.phases cpu = .writing id) (more : pipe.rest id ≠ [])
      (offered : pipe.offer (pipe.rest id) = (.error error, buffer)) :
      Performs pipe (.offer cpu) (pipe.finish cpu id
        (if (pipe.writes id).written = 0 then .error error else .ok (pipe.writes id).written))
  | accepted {cpu id chunk : Nat} {buffer : PipeBuffer} (writes : pipe.phases cpu = .writing id)
      (more : pipe.rest id ≠ [])
      (offered : pipe.offer (pipe.rest id) = (.ok chunk, buffer)) :
      Performs pipe (.offer cpu) ({ pipe with
        buffer := buffer
        writes := update pipe.writes id
          { pipe.writes id with written := (pipe.writes id).written + chunk } }.go cpu
            (.notifying PollEvents.read (some id)))
  | notify {cpu : Nat} {events : PollEvents} {next : Option Nat}
      (due : pipe.phases cpu = .notifying events next) :
      Performs pipe (.notify cpu events) (pipe.go cpu (next.elim .idle .writing))

/-- What `poll` says of an end that is asked whether it can be read or written. -/
def ready (pipe : Pipe) : PipeEndpointKind → PollEvents
  | .read => (PipeEndpoint.mk .read pipe.buffer).poll .read
  | .write => (PipeEndpoint.mk .write pipe.buffer).poll .write

/-! ## What is polled -/

section Poll

variable {pipe : Pipe}

theorem ready_read : pipe.ready .read =
    if pipe.writers = 0 then PollEvents.read ||| PollEvents.hup
    else if pipe.bytes = [] then 0 else PollEvents.read := by
  by_cases empty : pipe.bytes = [] <;> by_cases alone : pipe.writers = 0 <;>
    simp [ready, poll, empty, alone] <;> decide

theorem ready_write : pipe.ready .write = if pipe.readers = 0 then PollEvents.error
    else if pipe.bytes.length < pipeCapacity then PollEvents.write else 0 := by
  by_cases alone : pipe.readers = 0 <;>
    by_cases room : pipe.bytes.length < pipeCapacity <;>
    simp [ready, poll, alone, room]
  all_goals decide

theorem ready_read_iff :
    pipe.ready .read ≠ 0 ↔ pipe.bytes ≠ [] ∨ pipe.writers = 0 := by
  rw [ready_read]
  split
  · simp [*]; decide
  · split <;> simp [*]; decide

theorem ready_write_iff : pipe.ready .write ≠ 0 ↔
    pipe.readers = 0 ∨ pipe.bytes.length < pipeCapacity := by
  rw [ready_write]
  split
  · simp [*]; decide
  · split <;> simp [*]; decide

theorem read_intersects (now : pipe.ready .read ≠ 0) :
    PollEvents.read.intersects (pipe.ready .read) := by
  rw [ready_read] at now ⊢
  split at now
  · simp [*]; decide
  · split at now <;> simp_all; decide

/-- An end that is ready is ready for an event that openers and closers notify. -/
theorem changed_intersects {kind : PipeEndpointKind} (now : pipe.ready kind ≠ 0) :
    endsChanged.intersects (pipe.ready kind) := by
  cases kind with
  | read =>
    rw [ready_read] at now ⊢
    split at now
    · simp [*]; decide
    · split at now <;> simp_all; decide
  | write =>
    rw [ready_write] at now ⊢
    split at now
    · simp [*]; decide
    · split at now <;> simp_all; decide

theorem read_blocks_iff {len : Nat} :
    ((PipeEndpoint.mk .read pipe.buffer).read len).1 = .error .wouldBlock ↔
      pipe.ready .read = 0 := by
  rw [← not_iff_not, ← ne_eq (pipe.ready .read), ready_read_iff]
  by_cases empty : pipe.bytes = [] <;> by_cases alone : pipe.writers = 0 <;>
    simp [PipeEndpoint.read, empty, alone]

theorem offer_blocks_iff {rest : List Byte} :
    (pipe.offer rest).1 = .error .wouldBlock ↔ pipe.ready .write = 0 := by
  rw [← not_iff_not, ← ne_eq (pipe.ready .write), ready_write_iff]
  unfold offer
  split
  · simp [*]
  · dsimp only
    split
    · simp; omega
    · simp; omega

/-- Only the first turn of a write can end with an error. -/
theorem write_blocks_iff {bytes : List Byte} (some : bytes ≠ []) (drains : List Drain) :
    ((PipeEndpoint.mk .write pipe.buffer).write bytes drains).1 = .error .wouldBlock ↔
      pipe.ready .write = 0 := by
  rw [← offer_blocks_iff]
  unfold write writeLoop
  simp only [some]
  cases offered : pipe.offer bytes with
  | mk result buffer =>
    cases result with
    | error error => simp
    | ok chunk =>
      have moves := (offer_ok offered).2.2.1 some
      cases drains with
      | nil => simp
      | cons drain drains =>
        have wrote := wrote_writeLoop drains (buffer.drain drain) (bytes.drop chunk) (0 + chunk)
        cases loop : writeLoop drains (buffer.drain drain) (bytes.drop chunk)
          (0 + chunk) with
        | mk outcome last =>
          rw [loop] at wrote
          cases outcome with
          | error error => exact absurd wrote.1 (by omega)
          | ok count =>
            dsimp only
            rw [loop]
            simp

end Poll

/-! ## The bytes -/

/-- The bytes that were read and those in the buffer are the accepted bytes of the
writes in some order, and the counters count the open ends. -/
structure Sound (pipe : Pipe) : Prop where
  merged : ∃ merge : List (Nat × Byte),
    merge.map Prod.snd = pipe.reads.flatten ++ pipe.bytes ∧
      ∀ id, (merge.filter (·.1 = id)).map Prod.snd = (pipe.writes id).accepted
  fresh : ∀ id, pipe.nextWrite ≤ id → (pipe.writes id).written = 0
  going : ∀ cpu id, (pipe.phases cpu).write = some id → id < pipe.nextWrite
  bounded : pipe.bytes.length ≤ pipeCapacity
  counted : ∀ kind, pipe.count kind = pipe.opened kind ∧ pipe.opened kind ≤ isizeMax

variable {pipe after : Pipe} {step : PipeStep} {cpu id : Nat} {buffer : PipeBuffer}
  {kind : PipeEndpointKind}

theorem sound_new : Sound new :=
  ⟨⟨[], rfl, fun _ => rfl⟩, fun _ _ => rfl, nofun, Nat.zero_le _,
    fun kind => ⟨by cases kind <;> rfl, Nat.zero_le _⟩⟩

/-- A processor goes on; its write has a number. -/
theorem Sound.go {phase : PipePhase} (sound : Sound pipe)
    (going : ∀ id, phase.write = some id → id < pipe.nextWrite) : Sound (pipe.go cpu phase) := by
  refine { sound with going := fun index id goes => ?_ }
  by_cases here : index = cpu
  · subst here
    simp only [Pipe.go, update_self] at goes
    exact going id goes
  · simp only [Pipe.go, update_of_ne here] at goes
    exact sound.going index id goes

/-- A write has changed, and the bytes that are accepted of it are known. -/
theorem Sound.write {write : PipeWrite} (sound : Sound pipe)
    (known : id < pipe.nextWrite) (merge : List (Nat × Byte))
    (same : merge.map Prod.snd = pipe.reads.flatten ++ buffer.bytes)
    (each : ∀ other, (merge.filter (·.1 = other)).map Prod.snd =
      (update pipe.writes id write other).accepted)
    (bounded : buffer.bytes.length ≤ pipeCapacity) (count : buffer.count = pipe.count) :
    Sound { pipe with buffer, writes := update pipe.writes id write } := by
  refine ⟨⟨merge, same, each⟩, fun other later => ?_, sound.going, bounded, ?_⟩
  · simp only [update_of_ne (known.trans_le later).ne']
    exact sound.fresh other later
  · rw [count]
    exact sound.counted

theorem Sound.finish {result : Except FsError Nat} (sound : Sound pipe)
    (known : id < pipe.nextWrite) : Sound (pipe.finish cpu id result) := by
  obtain ⟨merge, same, each⟩ := sound.merged
  refine Sound.go (sound.write known merge same (fun other => ?_) sound.bounded rfl) nofun
  rw [each]
  by_cases here : other = id
  · subst here
    simp [PipeWrite.accepted]
  · rw [update_of_ne here]

/-- An end is opened or closed. -/
theorem Sound.count {number : Nat} (sound : Sound pipe) (bytes : buffer.bytes = pipe.bytes)
    (count : buffer.count = update pipe.count kind number) (bounded : number ≤ isizeMax) :
    Sound { pipe with buffer, opened := update pipe.opened kind number } := by
  refine ⟨?_, sound.fresh, sound.going, bytes ▸ sound.bounded, fun other => ?_⟩
  · rw [bytes]
    exact sound.merged
  · rw [count]
    by_cases here : other = kind
    · subst here
      simpa using bounded
    · simpa [update_of_ne here] using sound.counted other

theorem filter_tagged (id other : Nat) (bytes : List Byte) :
    ((bytes.map (id, ·)).filter (·.1 = other)).map Prod.snd = if id = other then bytes else [] := by
  by_cases same : id = other <;> simp [filter_map, same]

theorem Sound.performs (sound : Sound pipe) (performs : pipe.Performs step after) :
    Sound after := by
  obtain ⟨merge, same, each⟩ := sound.merged
  cases performs with
  | @«open» cpu kind idle room =>
    have below : pipe.opened kind + 1 ≤ 2 ^ 64 - 1 := Nat.le_trans room (by decide)
    refine Sound.go (sound.count (by cases kind <;> rfl) ?_ room) nofun
    rw [← (sound.counted kind).1] at below ⊢
    funext other
    cases kind <;> cases other <;>
      simp_all [add, PipeBuffer.count]
  | @release cpu kind idle held =>
    refine Sound.go (sound.count (by cases kind <;> rfl) ?_
      ((Nat.sub_le _ _).trans (sound.counted kind).2)) nofun
    rw [← (sound.counted kind).1]
    funext other
    cases kind <;> cases other <;> simp [remove, PipeBuffer.count]
  | @read cpu len kind idle =>
    obtain ⟨rest, left, taken⟩ := (PipeEndpoint.mk kind pipe.buffer).exists_rest len
    have shorter := congrArg List.length taken
    rw [length_append] at shorter
    rw [left]
    refine Sound.go ⟨⟨merge, ?_, each⟩, sound.fresh, sound.going,
      (Nat.le_add_left _ _).trans (shorter.symm.trans_le sound.bounded), fun kind => ?_⟩
      (by split <;> exact nofun)
    · rw [same, taken]
      simp
    · cases kind
      · exact sound.counted .read
      · exact sound.counted .write
  | refused | poll => exact sound
  | @write cpu bytes idle =>
    refine Sound.go ⟨⟨merge, same, fun id => ?_⟩, fun id later => ?_, fun cpu id goes => ?_,
      sound.bounded, sound.counted⟩ ?_
    · by_cases here : id = pipe.nextWrite
      · subst here
        simp [each, PipeWrite.accepted, sound.fresh]
      · simp [each, update_of_ne here]
    · simp only [update_of_ne (Nat.lt_of_succ_le later).ne']
      exact sound.fresh id (Nat.le_of_succ_le later)
    · exact (sound.going cpu id goes).trans (Nat.lt_succ_self _)
    · rintro _ ⟨⟩
      exact Nat.lt_succ_self _
  | written writes | stopped writes =>
    exact sound.finish (sound.going _ _ (congrArg PipePhase.write writes))
  | @accepted cpu id chunk buffer writes more offered =>
    have known := sound.going _ _ (congrArg PipePhase.write writes)
    obtain ⟨rfl, -, -, room⟩ := offer_ok offered
    refine Sound.go (sound.write known (merge ++ ((pipe.rest id).take chunk).map (id, ·)) ?_
      (fun other => ?_) (room sound.bounded) (by funext kind; cases kind <;> rfl)) ?_
    · simp [same]
    · rw [filter_append, map_append, each, filter_tagged]
      by_cases here : other = id
      · subst here
        simp [PipeWrite.accepted, rest, take_add]
      · simp [update_of_ne here, Ne.symm here]
    · rintro _ ⟨⟩
      exact known
  | @notify cpu events next due =>
    refine sound.go fun id goes => sound.going cpu id ?_
    rw [due]
    cases next with
    | none => nomatch goes
    | some other => exact goes

/-! ## Notifications -/

theorem phases_of_ne (performs : pipe.Performs step after) (other : cpu ≠ step.cpu) :
    after.phases cpu = pipe.phases cpu := by
  cases performs with
  | refused | poll => rfl
  | «open» | release | read | write | written | stopped | accepted | notify =>
    exact update_of_ne other _ _

/-- A processor that is to notify does so before it is idle. -/
theorem notifies_before_idle {events : PollEvents} {next : Option Nat} {labels : List PipeStep}
    (run : Run Performs pipe labels after) (due : pipe.phases cpu = .notifying events next)
    (idle : after.phases cpu = .idle) : .notify cpu events ∈ labels := by
  induction run with
  | nil => nomatch due.symm.trans idle
  | @cons pipe middle last step labels performs _ ih =>
    by_cases own : cpu = step.cpu
    · subst own
      cases performs with
      | «open» free | release free | read free | refused free | write free | poll free =>
        nomatch due.symm.trans free
      | written writes | stopped writes | accepted writes => nomatch due.symm.trans writes
      | notify other =>
        cases due.symm.trans other
        exact mem_cons_self
    · exact mem_cons_of_mem _ (ih ((phases_of_ne performs own).trans due) idle)

/-- Whoever makes an end ready is to notify for it. -/
theorem notifying_of_ready (sound : Sound pipe)
    (performs : pipe.Performs step after) (before : pipe.ready kind = 0)
    (now : after.ready kind ≠ 0) :
    ∃ events next, after.phases step.cpu = .notifying events next ∧
      events.intersects (after.ready kind) := by
  cases performs with
  | «open» | release =>
    exact ⟨endsChanged, none, update_self .., changed_intersects now⟩
  | @read cpu len asked idle =>
    obtain ⟨rest, left, taken⟩ := (PipeEndpoint.mk asked pipe.buffer).exists_rest len
    cases kind with
    | read =>
      -- Nothing can be read from an empty buffer.
      refine absurd before (ready_read_iff.mpr ?_)
      have full := ready_read_iff.mp now
      simp only [Pipe.go, left] at full
      refine full.imp_left fun some => ?_
      rw [taken]
      simp [some]
    | write =>
      have full := mt ready_write_iff.mpr (not_not_intro before)
      push Not at full
      have room := ready_write_iff.mp now
      simp only [Pipe.go, left] at room
      have fits := room.resolve_left full.1
      cases asked with
      | write =>
        have same : pipe.buffer = { pipe.buffer with bytes := rest } := left
        rw [same] at full
        exact absurd full.2 (Nat.not_le.mpr fits)
      | read =>
        have filled := sound.bounded.antisymm full.2
        refine ⟨.write, none, (update_self ..).trans (if_pos ⟨rfl, filled⟩), ?_⟩
        simp only [ready_write, Pipe.go, left, full.1, fits]
        decide
  | accepted writes more offered =>
    cases kind with
    | read => exact ⟨.read, _, update_self .., read_intersects now⟩
    | write =>
      refine absurd before (ready_write_iff.mpr ?_)
      obtain ⟨rfl, -⟩ := offer_ok offered
      refine (ready_write_iff.mp now).imp_right fun fits => ?_
      simp only [Pipe.go, length_append] at fits
      exact (Nat.le_add_right _ _).trans_lt fits
  | refused | write | poll | written | stopped | notify => cases kind <;> exact absurd before now

/-- A write that finds the pipe broken finds no reader. -/
theorem readers_of_broken (performs : pipe.Performs step after)
    (early : (pipe.writes id).result ≠ some (.error .brokenPipe))
    (late : (after.writes id).result = some (.error .brokenPipe)) : pipe.readers = 0 := by
  have changed {own : Nat} {write : PipeWrite}
      (broken : (update pipe.writes own write id).result = some (.error .brokenPipe)) :
      id = own ∧ write.result = some (.error .brokenPipe) := by
    by_cases here : id = own
    · subst here
      exact ⟨rfl, by simpa using broken⟩
    · exact absurd (by simpa [update_of_ne here] using broken) early
  cases performs with
  | «open» | release | read | refused | poll | notify => exact absurd late early
  | write | written => nomatch (changed late).2
  | accepted =>
    obtain ⟨rfl, broken⟩ := changed late
    exact absurd broken early
  | @stopped cpu own error buffer writes more offered =>
    have broken := (changed late).2
    split at broken <;> cases broken
    exact (offer_error offered).2 rfl

/-- What was read is the begin of a merge of the accepted bytes; the buffer is never
too long; an empty read and a broken pipe mean that the other side is closed; `poll`
tells which operations would block; and who makes an end ready notifies for it. -/
theorem pipe_is_correct {labels : List PipeStep} (run : Run Performs new labels pipe) :
    (∃ merge : List (Nat × Byte), pipe.reads.flatten <+: merge.map Prod.snd ∧
      ∀ id, (merge.filter (·.1 = id)).map Prod.snd = (pipe.writes id).accepted) ∧
    pipe.bytes.length ≤ pipeCapacity ∧
    (∀ len after, 0 < len → (PipeEndpoint.mk .read pipe.buffer).read len = (.ok [], after) →
      pipe.bytes = [] ∧ pipe.opened .write = 0) ∧
    (∀ step after id, pipe.Performs step after →
      (pipe.writes id).result ≠ some (.error .brokenPipe) →
      (after.writes id).result = some (.error .brokenPipe) → pipe.opened .read = 0) ∧
    (∀ len, 0 < len → (pipe.ready .read ≠ 0 ↔
      ((PipeEndpoint.mk .read pipe.buffer).read len).1 ≠ .error .wouldBlock)) ∧
    (∀ bytes drains, bytes ≠ [] → (pipe.ready .write ≠ 0 ↔
      ((PipeEndpoint.mk .write pipe.buffer).write bytes drains).1 ≠ .error .wouldBlock)) ∧
    ∀ step after kind, pipe.Performs step after → pipe.ready kind = 0 → after.ready kind ≠ 0 →
      ∀ later last, Run Performs after later last → last.phases step.cpu = .idle →
        ∃ events, .notify step.cpu events ∈ later ∧ events.intersects (after.ready kind) := by
  have sound : Sound pipe := run.invariant (fun _ _ _ => Sound.performs) sound_new
  refine ⟨?_, sound.bounded, fun len after some got => ?_, fun _ _ _ performs early late => ?_,
    fun len _ => read_blocks_iff.symm.not,
    fun bytes drains some => (write_blocks_iff some drains).symm.not,
    fun step after kind performs before now later last run idle => ?_⟩
  · obtain ⟨merge, same, each⟩ := sound.merged
    exact ⟨merge, ⟨_, same.symm⟩, each⟩
  · unfold PipeEndpoint.read at got
    simp only [ne_eq, not_true_eq_false, if_false] at got
    split at got
    · rename_i full
      have none := congrArg List.length (Except.ok.inj (congrArg Prod.fst got))
      rw [length_take, length_nil] at none
      have := length_pos_iff.mpr full
      omega
    · split at got <;> cases got
      exact ⟨not_not.mp ‹_›, (sound.counted .write).1 ▸ ‹_›⟩
  · exact (sound.counted .read).1 ▸ readers_of_broken performs early late
  · obtain ⟨events, next, due, intersects⟩ := notifying_of_ready sound performs before now
    exact ⟨events, notifies_before_idle run due idle, intersects⟩

/-- A byte goes through the pipe. -/
theorem pipe_is_correct_of_byte : ∃ labels pipe, Run Performs new labels pipe ∧
    pipe.reads = [[65]] ∧ pipe.bytes.length ≤ pipeCapacity := by
  have run : Run Performs new [.open 0 .read, .notify 0 endsChanged, .write 1 .write [65], .offer 1,
      .notify 1 .read, .read 0 .read 8] _ :=
    .cons (.open rfl (by decide)) (.cons (.notify rfl) (.cons (.write rfl) (.cons
      (.accepted rfl (by decide) rfl) (.cons (.notify rfl) (.cons (.read rfl) .nil)))))
  exact ⟨_, _, run, rfl, (pipe_is_correct run).2.1⟩

end Pipe

end AetherKernel.Fd
