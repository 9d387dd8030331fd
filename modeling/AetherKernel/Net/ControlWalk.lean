import AetherKernel.Lib.Exec
import AetherKernel.Net.Control
import Mathlib.Data.List.Basic

/-!
# What the control parser reads

The buffer is walked from header to header in exact arithmetic, and the
messages on the way are either acceptable to the kernel or not.  The parser
agrees with the walk until it meets a header whose stated length leaves the
range of machine words.
-/

namespace AetherKernel.Net

open Lib Word List ControlMessage Bytes

/-! ## The walk -/

section Walk

variable (control : List Byte) (offset : Nat)

/-- The length that the header at an offset states. -/
def lenAt : Nat :=
  toNat ((control.drop offset).take 8)

/-- The message whose header stands at an offset. -/
def messageAt : ControlMessage where
  level := wordAt 32 control (offset + 8)
  kind := wordAt 32 control (offset + 12)
  payload := (control.drop (offset + 16)).take (lenAt control offset - 16)

/-- Headers start at multiples of eight. -/
def nextOffset : Nat :=
  offset + (lenAt control offset + 7) / 8 * 8

/-- A well-formed header stands at the offset and its message ends inside the
buffer. -/
structure MessageFits (offset : Nat) : Prop where
  header : offset + 16 ≤ control.length
  long : 16 ≤ lenAt control offset
  inside : offset + lenAt control offset ≤ control.length

/-- The header at the offset states a length that takes the offset out of the
range of machine words. -/
structure LengthWraps (offset : Nat) : Prop where
  header : offset + 16 ≤ control.length
  wraps : size ≤ offset + lenAt control offset

/-- The messages between two offsets, header by header. -/
inductive Path : Nat → List ControlMessage → Nat → Prop
  | nil {offset : Nat} : Path offset [] offset
  | cons {offset last : Nat} {rest : List ControlMessage} :
      MessageFits control offset → Path (nextOffset control offset) rest last →
      Path offset (messageAt control offset :: rest) last

/-- The messages of the whole buffer: the walk ends where no header fits. -/
def Walked (messages : List ControlMessage) : Prop :=
  ∃ last, Path control 0 messages last ∧ control.length < last + 16

end Walk

/-! ## The messages -/

variable {D : Type} {sender : Sender D} {message : ControlMessage} {before after : Collected D}
  {messages : List ControlMessage}

namespace ControlMessage

def IsRights (message : ControlMessage) : Prop :=
  message.level = solSocket ∧ message.kind = scmRights

def IsCredentials (message : ControlMessage) : Prop :=
  message.level = solSocket ∧ message.kind = scmCredentials

instance (message : ControlMessage) : Decidable message.IsRights :=
  inferInstanceAs (Decidable (_ ∧ _))

instance (message : ControlMessage) : Decidable message.IsCredentials :=
  inferInstanceAs (Decidable (_ ∧ _))

/-- The descriptor numbers that a message passes. -/
def fds (message : ControlMessage) : List (BitVec 32) :=
  if message.IsRights then fdWords message.payload else []

/-- The credentials that a message passes. -/
def credentials (message : ControlMessage) : List SocketCredentials :=
  if message.IsCredentials then [readCredentials message.payload] else []

/-- The kernel takes the message from this sender. -/
structure Acceptable (sender : Sender D) (message : ControlMessage) : Prop where
  rights : message.IsRights → message.payload ≠ [] ∧ message.payload.length % 4 = 0 ∧
    message.payload.length / 4 ≤ scmMaxFd ∧
    ∀ fd ∈ fdWords message.payload, (sender.descriptor fd).isSome
  credentials : message.IsCredentials → message.payload.length = 12 ∧
    0 < (wordAt 32 message.payload 0).toInt ∧
    (sender.isSuperuser ∨ readCredentials message.payload = sender.current)

/-- No two messages of a buffer may both pass rights, or both credentials. -/
structure Compatible (first second : ControlMessage) : Prop where
  rights : first.IsRights → ¬second.IsRights
  credentials : first.IsCredentials → ¬second.IsCredentials

theorem IsRights.not_credentials (rights : message.IsRights) : ¬message.IsCredentials := by
  intro credentials
  have clash := rights.2.symm.trans credentials.2
  exact absurd clash (by decide)

end ControlMessage

/-- All messages of a buffer can be taken together. -/
structure Admissible (sender : Sender D) (messages : List ControlMessage) : Prop where
  each : ∀ message ∈ messages, message.Acceptable sender
  pairs : messages.Pairwise Compatible

/-- The parser has collected what the messages pass, in their order. -/
structure Collects (sender : Sender D) (messages : List ControlMessage)
    (collected : Collected D) : Prop where
  rights : collected.rights.map some = (messages.flatMap fds).map sender.descriptor
  credentials : collected.credentials.toList = messages.flatMap ControlMessage.credentials

/-- No header that the walk reaches over messages of this sender that can be
taken states a length out of range. -/
def LengthsInRange (sender : Sender D) (control : List Byte) : Prop :=
  ∀ messages last, Path control 0 messages last → Admissible sender messages →
    ¬LengthWraps control last

/-! ## One message -/

theorem fdWords_ne_nil {payload : List Byte} (nonempty : payload ≠ [])
    (whole : payload.length % 4 = 0) : fdWords payload ≠ [] := by
  match payload with
  | [] => exact absurd rfl nonempty
  | [_] | [_, _] | [_, _, _] => exact absurd whole (by simp)
  | _ :: _ :: _ :: _ :: _ => simp [fdWords]

theorem map_some_openRights {fds : List (BitVec 32)} {before after : List D}
    (opened : sender.openRights fds before = .ok after) :
    after.map some = before.map some ++ fds.map sender.descriptor := by
  induction fds generalizing before with
  | nil =>
    cases opened
    simp
  | cons fd rest ih =>
    rw [Sender.openRights] at opened
    cases found : sender.descriptor fd with
    | none => simp [found] at opened
    | some descriptor =>
      rw [found] at opened
      simpa [found] using ih opened

theorem exists_openRights_iff {fds : List (BitVec 32)} {before : List D} :
    (∃ after, sender.openRights fds before = .ok after) ↔
      ∀ fd ∈ fds, (sender.descriptor fd).isSome := by
  induction fds generalizing before with
  | nil => simp [Sender.openRights]
  | cons fd rest ih =>
    rw [Sender.openRights]
    cases found : sender.descriptor fd with
    | none => simp [found]
    | some descriptor => simp [ih, found]

/-- There is room in the collection for what the message passes. -/
structure Collected.Room (collected : Collected D) (message : ControlMessage) : Prop where
  rights : message.IsRights → collected.rights = []
  credentials : message.IsCredentials → collected.credentials = none

/-- One message has been added to the collection. -/
structure Collected.Adds (sender : Sender D) (message : ControlMessage)
    (before after : Collected D) : Prop where
  rights : after.rights.map some = before.rights.map some ++ message.fds.map sender.descriptor
  credentials : after.credentials.toList = before.credentials.toList ++ message.credentials

/-- What becomes of a message: it is taken when it is acceptable and there is room for
it, and then exactly what it passes is added. -/
def Collected.Settles (sender : Sender D) (message : ControlMessage) (before : Collected D) :
    Except SysErr (Collected D) → Prop
  | .ok after => message.Acceptable sender ∧ before.Room message ∧ before.Adds sender message after
  | .error _ => message.Acceptable sender → ¬before.Room message

theorem settles_acceptRights (isRights : message.IsRights) :
    before.Settles sender message (acceptRights sender before message.payload) := by
  unfold acceptRights
  split
  · rename_i shape
    intro acceptable room
    obtain ⟨nonempty, whole, -⟩ := acceptable.rights isRights
    simp [room.rights isRights, nonempty, whole] at shape
  rename_i shape
  split
  · rename_i many
    exact fun acceptable _ => Nat.not_le.mpr many (acceptable.rights isRights).2.2.1
  rename_i few
  split
  · rename_i error refused
    intro acceptable _
    obtain ⟨rights, opened⟩ := exists_openRights_iff.mpr (acceptable.rights isRights).2.2.2
    nomatch refused.symm.trans opened
  rename_i rights opened
  obtain ⟨first, nonempty, whole⟩ : before.rights = [] ∧ message.payload ≠ [] ∧
      message.payload.length % 4 = 0 := by simpa using shape
  have notCredentials := isRights.not_credentials
  have found := exists_openRights_iff.mp ⟨rights, opened⟩
  refine ⟨⟨fun _ => ⟨nonempty, whole, Nat.not_lt.mp few, found⟩,
    fun other => absurd other notCredentials⟩,
    ⟨fun _ => first, fun other => absurd other notCredentials⟩, ?_, ?_⟩
  · simpa [fds, isRights] using map_some_openRights opened
  · simp [ControlMessage.credentials, notCredentials]

theorem settles_acceptCredentials (isCredentials : message.IsCredentials) :
    before.Settles sender message (acceptCredentials sender before message.payload) := by
  unfold acceptCredentials
  split
  · rename_i shape
    intro acceptable room
    simp [room.credentials isCredentials, (acceptable.credentials isCredentials).1] at shape
  rename_i shape
  split
  · rename_i negative
    exact fun acceptable _ =>
      Int.not_lt.mpr negative (acceptable.credentials isCredentials).2.1
  rename_i positive
  split
  · rename_i foreign
    intro acceptable _
    rcases (acceptable.credentials isCredentials).2.2 with superuser | same
    · simp [superuser] at foreign
    · exact foreign.2 same
  rename_i allowed
  obtain ⟨first, twelve⟩ : before.credentials = none ∧ message.payload.length = 12 := by
    simpa using shape
  have notRights : ¬message.IsRights := fun rights => rights.not_credentials isCredentials
  refine ⟨⟨fun other => absurd other notRights, fun _ => ⟨twelve, Int.not_le.mp positive, ?_⟩⟩,
    ⟨fun other => absurd other notRights, fun _ => first⟩, ?_, ?_⟩
  · by_cases superuser : sender.isSuperuser = true
    · exact .inl superuser
    · by_contra refused
      exact allowed ⟨by simpa using superuser, fun same => refused (.inr same)⟩
  · simp [fds, notRights]
  · simp [ControlMessage.credentials, isCredentials, first]

theorem settles_acceptMessage :
    before.Settles sender message (acceptMessage sender before message) := by
  have other (notRights : ¬message.IsRights) (notCredentials : ¬message.IsCredentials) :
      before.Settles sender message (.ok before) := by
    refine ⟨⟨fun is => absurd is notRights, fun is => absurd is notCredentials⟩,
      ⟨fun is => absurd is notRights, fun is => absurd is notCredentials⟩, ?_, ?_⟩
    · simp [fds, notRights]
    · simp [ControlMessage.credentials, notCredentials]
  unfold acceptMessage
  split
  · rename_i level
    split
    · exact settles_acceptRights ⟨level, ‹_›⟩
    rename_i notRights
    split
    · exact settles_acceptCredentials ⟨level, ‹_›⟩
    · rename_i notCredentials
      exact other (fun rights => notRights rights.2) fun is => notCredentials is.2
  · rename_i level
    exact other (fun rights => level rights.1) fun is => level is.1

theorem acceptMessage_adds (accepted : acceptMessage sender before message = .ok after) :
    message.Acceptable sender ∧ before.Room message ∧ before.Adds sender message after :=
  (accepted ▸ settles_acceptMessage :)

theorem exists_acceptMessage (acceptable : message.Acceptable sender)
    (room : before.Room message) : ∃ after, acceptMessage sender before message = .ok after := by
  have settles : before.Settles sender message _ := settles_acceptMessage
  cases taken : acceptMessage sender before message with
  | error error =>
    rw [taken] at settles
    exact absurd room (settles acceptable)
  | ok after => exact ⟨after, rfl⟩

/-! ## All messages -/

def acceptAll (sender : Sender D) (collected : Collected D) (messages : List ControlMessage) :
    Except SysErr (Collected D) :=
  messages.foldlM (acceptMessage sender) collected

theorem acceptAll_cons_eq_ok {rest : List ControlMessage} :
    acceptAll sender before (message :: rest) = .ok after ↔
      ∃ middle, acceptMessage sender before message = .ok middle ∧
        acceptAll sender middle rest = .ok after := by
  rw [acceptAll, foldlM_cons]
  constructor
  · exact exists_of_bind_eq_ok
  · rintro ⟨middle, first, others⟩
    rw [first]
    exact others

/-- After a message has been taken there is room for those it is compatible
with. -/
theorem Collected.Adds.room_iff {other : ControlMessage} (adds : before.Adds sender message after)
    (acceptable : message.Acceptable sender) :
    after.Room other ↔ before.Room other ∧ message.Compatible other := by
  have rights : after.rights = [] ↔ before.rights = [] ∧ ¬message.IsRights := by
    rw [← map_eq_nil_iff (f := some), adds.rights, append_eq_nil_iff,
      map_eq_nil_iff, map_eq_nil_iff]
    constructor
    · rintro ⟨none, noFds⟩
      refine ⟨none, fun isRights => ?_⟩
      obtain ⟨nonempty, whole, -⟩ := acceptable.rights isRights
      rw [fds, if_pos isRights] at noFds
      exact fdWords_ne_nil nonempty whole noFds
    · rintro ⟨none, notRights⟩
      exact ⟨none, if_neg notRights⟩
  have credentials : after.credentials = none ↔
      before.credentials = none ∧ ¬message.IsCredentials := by
    rw [← Option.toList_eq_nil_iff, adds.credentials, append_eq_nil_iff]
    simp [ControlMessage.credentials]
  constructor
  · intro free
    exact ⟨⟨fun is => (rights.mp (free.rights is)).1,
      fun is => (credentials.mp (free.credentials is)).1⟩,
      fun is other => (rights.mp (free.rights other)).2 is,
      fun is other => (credentials.mp (free.credentials other)).2 is⟩
  · rintro ⟨free, compatible⟩
    exact ⟨fun is => rights.mpr ⟨free.rights is, fun own => compatible.rights own is⟩,
      fun is => credentials.mpr ⟨free.credentials is, fun own => compatible.credentials own is⟩⟩

/-- Messages are taken one after the other when they are admissible together
and there is room for each of them. -/
theorem exists_acceptAll_iff : (∃ after, acceptAll sender before messages = .ok after) ↔
      Admissible sender messages ∧ ∀ message ∈ messages, before.Room message := by
  induction messages generalizing before with
  | nil => exact ⟨fun _ => ⟨⟨nofun, .nil⟩, nofun⟩, fun _ => ⟨before, rfl⟩⟩
  | cons message rest ih =>
    constructor
    · rintro ⟨after, taken⟩
      obtain ⟨middle, first, others⟩ := acceptAll_cons_eq_ok.mp taken
      obtain ⟨acceptable, room, adds⟩ := acceptMessage_adds first
      obtain ⟨admissible, rooms⟩ := ih.mp ⟨after, others⟩
      have split other (mem : other ∈ rest) := (adds.room_iff acceptable).mp (rooms other mem)
      exact ⟨⟨forall_mem_cons.mpr ⟨acceptable, admissible.each⟩,
        .cons (fun other mem => (split other mem).2) admissible.pairs⟩,
        forall_mem_cons.mpr ⟨room, fun other mem => (split other mem).1⟩⟩
    · rintro ⟨admissible, rooms⟩
      obtain ⟨acceptable, each⟩ := forall_mem_cons.mp admissible.each
      obtain ⟨room, others⟩ := forall_mem_cons.mp rooms
      obtain ⟨compatible, pairs⟩ := pairwise_cons.mp admissible.pairs
      obtain ⟨middle, first⟩ := exists_acceptMessage acceptable room
      have adds := (acceptMessage_adds first).2.2
      obtain ⟨after, taken⟩ := ih.mpr ⟨⟨each, pairs⟩, fun other mem =>
        (adds.room_iff acceptable).mpr ⟨others other mem, compatible other mem⟩⟩
      exact ⟨after, acceptAll_cons_eq_ok.mpr ⟨middle, first, taken⟩⟩

theorem acceptAll_adds (taken : acceptAll sender before messages = .ok after) :
    after.rights.map some = before.rights.map some ++ (messages.flatMap fds).map sender.descriptor ∧
      after.credentials.toList =
        before.credentials.toList ++ messages.flatMap ControlMessage.credentials := by
  induction messages generalizing before with
  | nil =>
    cases taken
    simp
  | cons message rest ih =>
    obtain ⟨middle, first, others⟩ := acceptAll_cons_eq_ok.mp taken
    obtain ⟨rights, credentials⟩ := (acceptMessage_adds first).2.2
    obtain ⟨restRights, restCredentials⟩ := ih others
    rw [restRights, rights, restCredentials, credentials]
    simp

/-! ## One header -/

theorem lenAt_lt (control : List Byte) (offset : Nat) : lenAt control offset < size := by
  have short : ((control.drop offset).take 8).length ≤ 8 := by simp
  calc lenAt control offset < 256 ^ ((control.drop offset).take 8).length := toNat_lt _
    _ ≤ 256 ^ 8 := Nat.pow_le_pow_right (by decide) short
    _ = size := by decide

section Header

variable {control : List Byte} {offset : Nat}

/-- The fields of a header are in range. -/
theorem slice_header (header : offset + 16 ≤ control.length) {start count : Nat}
    (inside : start + count ≤ 16) :
    slice control (offset + start) (offset + (start + count)) =
      some ((control.drop (offset + start)).take count) := by
  rw [slice_eq_some (by omega) (by omega)]
  congr 2
  omega

variable (bounded : control.length < 2 ^ 63)
include bounded

/-- Only the payload of a header can lie out of range. -/
theorem readMessage_eq (header : offset + 16 ≤ control.length) : readMessage control offset =
      if lenAt control offset < cmsgHeaderLen ∨
          control.length < wrappingAdd offset (lenAt control offset) then
        some (.error .inval)
      else
        (slice control (offset + 16) (wrappingAdd offset (lenAt control offset))).map fun payload =>
            .ok (⟨wordAt 32 control (offset + 8), wordAt 32 control (offset + 12),
              payload⟩, lenAt control offset) := by
  have room : offset + 16 < size := by unfold size; omega
  have eight : wrappingAdd offset 8 = offset + 8 := wrappingAdd_of_lt (by omega)
  have twelve : wrappingAdd (offset + 8) 4 = offset + 12 := wrappingAdd_of_lt (by omega)
  have sixteen : wrappingAdd (offset + 8) 8 = offset + 16 := wrappingAdd_of_lt (by omega)
  have whole : wrappingAdd offset cmsgHeaderLen = offset + 16 := wrappingAdd_of_lt room
  have lenField : slice control offset (offset + 8) =
      some ((control.drop offset).take 8) := slice_header header (by decide : 0 + 8 ≤ 16)
  have levelField : slice control (offset + 8) (offset + 12) =
      some ((control.drop (offset + 8)).take 4) := slice_header header (by decide : 8 + 4 ≤ 16)
  have kindField : slice control (offset + 12) (offset + 16) =
      some ((control.drop (offset + 12)).take 4) := slice_header header (by decide : 12 + 4 ≤ 16)
  unfold readMessage
  rw [eight, lenField]
  simp only [twelve, sixteen, whole, levelField, kindField, Option.bind_eq_bind, Option.bind_some]
  rw [← lenAt]
  split
  · rfl
  · cases slice control (offset + 16) (wrappingAdd offset (lenAt control offset)) <;> rfl

theorem readMessage_of_fits (fits : MessageFits control offset) :
    readMessage control offset = some (.ok (messageAt control offset, lenAt control offset)) := by
  obtain ⟨header, long, inside⟩ := fits
  have stop : wrappingAdd offset (lenAt control offset) = offset + lenAt control offset := by
    apply wrappingAdd_of_lt
    unfold size
    omega
  have shape : ¬(lenAt control offset < cmsgHeaderLen ∨
      control.length < offset + lenAt control offset) := by
    unfold cmsgHeaderLen
    omega
  rw [readMessage_eq bounded header, stop, if_neg shape, slice_eq_some (by omega) inside,
    Nat.add_sub_add_left]
  rfl

/-- The sum of the offset and the length has wrapped around to a position
before the header, and the payload ends before it starts. -/
theorem readMessage_of_wraps (wraps : LengthWraps control offset) :
    readMessage control offset = none := by
  obtain ⟨header, wraps⟩ := wraps
  have below := lenAt_lt control offset
  have inWord : offset < size := by unfold size; omega
  have stop : wrappingAdd offset (lenAt control offset) = offset + lenAt control offset - size := by
    rw [wrappingAdd, Nat.mod_eq_sub_mod wraps, Nat.mod_eq_of_lt (by omega)]
  have large : 2 ^ 63 < lenAt control offset := by
    unfold size at wraps
    omega
  have shape : ¬(lenAt control offset < cmsgHeaderLen ∨
      control.length < offset + lenAt control offset - size) := by
    unfold cmsgHeaderLen
    omega
  rw [readMessage_eq bounded header, stop, if_neg shape, slice_eq_none (by omega)]
  rfl

theorem readMessage_of_malformed (header : offset + 16 ≤ control.length)
    (malformed : ¬MessageFits control offset) (inRange : ¬LengthWraps control offset) :
    readMessage control offset = some (.error .inval) := by
  have below : offset + lenAt control offset < size := by
    by_contra wraps
    exact inRange ⟨header, Nat.not_lt.mp wraps⟩
  have shape : lenAt control offset < cmsgHeaderLen ∨
      control.length < offset + lenAt control offset := by
    by_contra fine
    unfold cmsgHeaderLen at fine
    exact malformed ⟨header, by omega, by omega⟩
  rw [readMessage_eq bounded header, wrappingAdd_of_lt below, if_pos shape]

theorem cmsgAlign_of_fits (fits : MessageFits control offset) :
    saturatingAdd offset (cmsgAlign (lenAt control offset)) = nextOffset control offset := by
  obtain ⟨header, long, inside⟩ := fits
  have small : lenAt control offset + 7 < size := by unfold size; omega
  have aligned : cmsgAlign (lenAt control offset) = (lenAt control offset + 7) / 8 * 8 := by
    rw [cmsgAlign, show 8 = 2 ^ 3 from rfl, alignUp_two_pow (by decide),
      show 2 ^ 3 - 1 = 7 from rfl, Nat.mod_eq_of_lt small]
  rw [saturatingAdd, nextOffset]
  unfold Word.max size
  omega

end Header

/-! ## The loop -/

section Loop

variable {control : List Byte} {fuel offset : Nat} {collected : Collected D}

theorem parseFrom_of_ends (bounded : offset + 16 < size) (ends : control.length < offset + 16) :
    parseFrom sender control (fuel + 1) offset collected = some (.ok collected) := by
  have whole : wrappingAdd offset cmsgHeaderLen = offset + 16 := wrappingAdd_of_lt bounded
  rw [parseFrom, whole, if_neg (Nat.not_le.mpr ends)]

/-- How the loop ends at an offset where no message fits: with what was collected when
no header is left, and otherwise with an error or a panic. -/
def parseEnd (control : List Byte) (last : Nat) (collected : Collected D) :
    Option (Except SysErr (Collected D)) :=
  if last + 16 ≤ control.length then
    if size ≤ last + lenAt control last then none else some (.error .inval)
  else some (.ok collected)

theorem parseFrom_of_stops (bounded : control.length < 2 ^ 63) (near : offset < 2 ^ 63 + 16)
    (stops : ¬MessageFits control offset) :
    parseFrom sender control (fuel + 1) offset collected = parseEnd control offset collected := by
  unfold parseEnd
  split
  · rename_i header
    have whole : wrappingAdd offset cmsgHeaderLen = offset + 16 :=
      wrappingAdd_of_lt (by unfold size cmsgHeaderLen; omega)
    rw [parseFrom, whole, if_pos header]
    by_cases wraps : size ≤ offset + lenAt control offset
    · rw [readMessage_of_wraps bounded ⟨header, wraps⟩, if_pos wraps]
    · rw [readMessage_of_malformed bounded header stops fun other => wraps other.wraps,
        if_neg wraps]
  · rename_i ends
    exact parseFrom_of_ends (by unfold size; omega) (Nat.not_le.mp ends)

/-- The loop takes the messages on its way one after the other. -/
theorem parseFrom_of_path (sender : Sender D) {last : Nat} (collected : Collected D)
    (path : Path control offset messages last) (bounded : control.length < 2 ^ 63)
    (near : offset < 2 ^ 63 + 16) (stops : ¬MessageFits control last)
    (enough : control.length < offset + (fuel + 1)) :
    parseFrom sender control (fuel + 1) offset collected =
      match acceptAll sender collected messages with
      | .error error => some (.error error)
      | .ok after => parseEnd control last after := by
  induction path generalizing fuel collected with
  | nil => exact parseFrom_of_stops bounded near stops
  | @cons offset last rest fits path ih =>
    obtain ⟨header, long, inside⟩ := id fits
    obtain ⟨less, rfl⟩ : ∃ less, fuel = less + 1 := Nat.exists_eq_succ_of_ne_zero (by omega)
    have whole : wrappingAdd offset cmsgHeaderLen = offset + 16 :=
      wrappingAdd_of_lt (by unfold size cmsgHeaderLen; omega)
    rw [parseFrom, whole, if_pos header, readMessage_of_fits bounded fits, acceptAll, foldlM_cons]
    dsimp only
    rw [cmsgAlign_of_fits bounded fits]
    cases acceptMessage sender collected (messageAt control offset) with
    | error error => rfl
    | ok middle =>
      refine .trans ?_ (show parseFrom sender control (less + 1) _ middle = _ from
        ih middle (by unfold nextOffset; omega) stops (by unfold nextOffset; omega))
      -- Behind the last byte the loop stops at once, as it would in its next turn.
      by_cases beyond : control.length < nextOffset control offset
      · have bound : nextOffset control offset + 16 < size := by
          unfold nextOffset size
          omega
        rw [parseFrom_of_ends bound (by omega)]
        exact if_pos (.inr beyond)
      · apply if_neg
        unfold nextOffset at beyond ⊢
        omega

/-- The walk comes to an offset where no message fits. -/
theorem exists_path (control : List Byte) (offset : Nat) :
    ∃ messages last, Path control offset messages last ∧ ¬MessageFits control last := by
  induction left : control.length - offset using Nat.strong_induction_on generalizing offset with
  | _ left ih =>
    by_cases fits : MessageFits control offset
    · obtain ⟨header, long, -⟩ := id fits
      have further : offset < nextOffset control offset := by unfold nextOffset; omega
      obtain ⟨messages, last, path, stops⟩ :=
        ih (control.length - nextOffset control offset) (by omega) _ rfl
      exact ⟨_, last, .cons fits path, stops⟩
    · exact ⟨[], offset, .nil, fits⟩

theorem LengthWraps.not_fits (bounded : control.length < 2 ^ 63)
    (wraps : LengthWraps control offset) : ¬MessageFits control offset := by
  intro fits
  have past := wraps.wraps
  have inside := fits.inside
  unfold size at past
  omega

end Loop

/-! ## The whole buffer -/

theorem acceptAll_of_empty :
    (∃ after, acceptAll sender ⟨[], none⟩ messages = .ok after) ↔ Admissible sender messages := by
  rw [exists_acceptAll_iff]
  exact ⟨And.left, fun admissible => ⟨admissible, fun _ _ => ⟨fun _ => rfl, fun _ => rfl⟩⟩⟩

/-- The parser returns, and what it returns is what the headers of the buffer
pass, exactly when no header on the way states a length out of range. -/
theorem parseSocketSendControl_collects_iff (sender : Sender D) (control : ControlBuffer) :
    (∃ outcome, parseSocketSendControl sender control = some outcome ∧
        ∀ collected, outcome = .ok collected →
          ∃ messages, Walked control.bytes messages ∧ Collects sender messages collected) ↔
      LengthsInRange sender control.bytes := by
  have returns {messages : List ControlMessage} {last : Nat}
      (path : Path control.bytes 0 messages last) (stops : ¬MessageFits control.bytes last) :=
    parseFrom_of_path sender ⟨[], none⟩ path control.bounded (by decide) stops
      (Nat.lt_add_left 0 (Nat.lt_succ_self _))
  constructor
  · rintro ⟨outcome, parsed, -⟩ messages last path admissible wraps
    obtain ⟨after, taken⟩ := acceptAll_of_empty.mpr admissible
    rw [parseSocketSendControl, returns path (wraps.not_fits control.bounded), taken] at parsed
    simp [parseEnd, wraps.header, wraps.wraps] at parsed
  intro inRange
  obtain ⟨messages, last, path, stops⟩ := exists_path control.bytes 0
  rw [parseSocketSendControl, returns path stops]
  cases taken : acceptAll sender ⟨[], none⟩ messages with
  | error error => exact ⟨_, rfl, nofun⟩
  | ok after =>
    dsimp only [parseEnd]
    split
    · rename_i header
      have admissible := acceptAll_of_empty.mp ⟨after, taken⟩
      rw [if_neg fun wraps => inRange messages last path admissible ⟨header, wraps⟩]
      exact ⟨_, rfl, nofun⟩
    · rename_i ends
      refine ⟨_, rfl, ?_⟩
      rintro _ ⟨⟩
      obtain ⟨rights, credentials⟩ := acceptAll_adds taken
      exact ⟨messages, ⟨last, path, Nat.not_le.mp ends⟩, by simpa using rights,
        by simpa using credentials⟩

/-- A message without a payload, and behind it a header that states a length
of `2 ^ 64 - 8`. -/
def wrappingControl : ControlBuffer where
  bytes := ofNat 8 16 ++ ofNat 8 0 ++ ofNat 8 (2 ^ 64 - 8) ++ ofNat 8 0
  bounded := by decide

/-- A process without open files. -/
def ordinarySender : Sender Unit :=
  ⟨1, 1000, 1000, 1000, fun _ => none⟩

/-- The second header is taken for one that ends inside the buffer, and the
slice of its payload panics. -/
theorem parseSocketSendControl_panics :
    ¬∃ outcome, parseSocketSendControl ordinarySender wrappingControl = some outcome := by
  have stuck : parseSocketSendControl ordinarySender wrappingControl = none := by rfl
  simp [stuck]

end AetherKernel.Net
