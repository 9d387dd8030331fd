import AetherKernel.Vfs.PageCache
import Mathlib.Data.List.Induction

/-!
# The stream of an inotify descriptor

A record is a header of sixteen bytes and a padded name.  The length in the header
is that of the name before padding, so a reader that steps from header to header
finds the next one only when there is nothing to pad.
-/

namespace AetherKernel.Vfs

open Lib Bytes List

/-- What a reader sees of an event: `wd`, `mask`, `cookie` and the name. -/
abbrev Seen :=
  BitVec 32 × BitVec 32 × BitVec 32 × List Byte

/-- An event; without a name it is encoded as with an empty one, and no file name
has a NUL. -/
structure InotifyEvent where
  wd : BitVec 32
  mask : BitVec 32
  cookie : BitVec 32
  rawName : List Byte
  noNul : 0 ∉ rawName

namespace InotifyEvent

variable (event : InotifyEvent)

def seen : Seen :=
  (event.wd, event.mask, event.cookie, event.rawName)

def nameLen : Nat :=
  if event.rawName = [] then 0 else event.rawName.length + 1

def paddedLen : Nat :=
  (event.nameLen + 3) / 4 * 4

/-- `encode_event`. -/
def encode : List Byte :=
  ofWord event.wd ++ ofWord event.mask ++ ofWord event.cookie ++
    ofWord (BitVec.ofNat 32 event.nameLen) ++ event.rawName ++
    replicate (event.paddedLen - event.rawName.length) 0

/-- The name and its terminator need no padding, and their length fits its field. -/
def Unpadded : Prop :=
  event.rawName = [] ∨ event.rawName.length % 4 = 3 ∧ event.rawName.length + 1 < 2 ^ 32

end InotifyEvent

/-! ## The queue -/

/-- The loop of `read`: records as long as they fit. -/
def readRecords (room : Nat) : List (List Byte) → List Byte × List (List Byte)
  | [] => ([], [])
  | event :: events =>
    if room < event.length then ([], event :: events)
    else
      let (bytes, rest) := readRecords (room - event.length) events
      (event ++ bytes, rest)

def readEvents (len : Nat) (events : List (List Byte)) :
    Except FsError (List Byte × List (List Byte)) :=
  if len = 0 then .ok ([], events)
  else
    match events with
    | [] => .error .wouldBlock
    | first :: _ =>
      if len < first.length then .error .invalidInput else .ok (readRecords len events)

/-- The queue, with what the reads have returned so far. -/
structure InotifyFile where
  events : List (List Byte)
  returned : List Byte

inductive InotifyCall where
  | pushEvent (event : InotifyEvent)
  | read (len : Nat)

namespace InotifyCall

def queued : InotifyCall → Option InotifyEvent
  | .pushEvent event => some event
  | .read _ => none

def step (file : InotifyFile) : InotifyCall → InotifyFile
  | .pushEvent event => { file with events := file.events ++ [event.encode] }
  | .read len =>
    match readEvents len file.events with
    | .ok (bytes, rest) => ⟨rest, file.returned ++ bytes⟩
    | .error _ => file

def perform (calls : List InotifyCall) : InotifyFile :=
  calls.foldl step ⟨[], []⟩

theorem readRecords_eq (room : Nat) (events : List (List Byte)) :
    ∃ taken, events = taken ++ (readRecords room events).2 ∧
      (readRecords room events).1 = taken.flatten := by
  induction events generalizing room with
  | nil => exact ⟨[], rfl, rfl⟩
  | cons event events ih =>
    rw [readRecords]
    split
    · exact ⟨[], rfl, rfl⟩
    · obtain ⟨taken, same, bytes⟩ := ih (room - event.length)
      exact ⟨event :: taken, congrArg _ same, congrArg _ bytes⟩

theorem readEvents_ok {len : Nat} {events rest : List (List Byte)} {bytes : List Byte}
    (run : readEvents len events = .ok (bytes, rest)) :
    ∃ taken, events = taken ++ rest ∧ bytes = taken.flatten := by
  unfold readEvents at run
  split at run
  · cases run
    exact ⟨[], rfl, rfl⟩
  split at run
  · cases run
  split at run
  · cases run
  · rename_i first events _
    have taken := readRecords_eq len (first :: events)
    rwa [Except.ok.inj run] at taken

/-- A read with room for the first record returns it. -/
theorem readEvents_cons {len : Nat} {first : List Byte} (more : List (List Byte))
    (some : first ≠ []) (fits : first.length ≤ len) :
    ∃ taken left, more = taken ++ left ∧
      readEvents len (first :: more) = .ok ((first :: taken).flatten, left) := by
  have asked := length_pos_iff.mpr some
  obtain ⟨taken, same, bytes⟩ := readRecords_eq (len - first.length) more
  refine ⟨taken, (readRecords (len - first.length) more).2, same, ?_⟩
  rw [readEvents, if_neg (by omega), if_neg (by omega), readRecords, if_neg (by omega),
    flatten_cons, ← bytes]

/-- Reads return whole records from the front of the queue. -/
theorem perform_eq (calls : List InotifyCall) :
    ∃ taken, (calls.filterMap queued).map InotifyEvent.encode =
        taken ++ (perform calls).events ∧ (perform calls).returned = taken.flatten := by
  induction calls using reverseRecOn with
  | nil => exact ⟨[], rfl, rfl⟩
  | append_singleton calls call ih =>
    obtain ⟨taken, same, bytes⟩ := ih
    rw [perform, foldl_append, ← perform, filterMap_append, map_append, same]
    cases call with
    | pushEvent event => exact ⟨taken, append_assoc .., bytes⟩
    | read len =>
      rw [foldl_cons, step]
      split
      · rename_i run
        obtain ⟨more, front, rfl⟩ := readEvents_ok run
        exact ⟨taken ++ more, by simp [front, queued], by simp [bytes]⟩
      · exact ⟨taken, append_nil _, bytes⟩

/-- As many reads as there are records, each with room for any of them, leave none. -/
theorem events_of_reads {lens : List Nat} {file : InotifyFile}
    (some : ∀ event ∈ file.events, event ≠ [])
    (fits : ∀ len ∈ lens, ∀ event ∈ file.events, event.length ≤ len)
    (enough : file.events.length ≤ lens.length) :
    ((lens.map .read).foldl step file).events = [] := by
  induction lens generalizing file with
  | nil => exact length_eq_zero_iff.mp (Nat.le_zero.mp enough)
  | cons len lens ih =>
    obtain ⟨_ | ⟨first, more⟩, returned⟩ := file
    · have idle : (step ⟨[], returned⟩ (.read len)).events = [] := by
        by_cases none : len = 0 <;> simp [step, readEvents, none]
      exact ih (by simp [idle]) (by simp [idle]) (by simp [idle])
    · obtain ⟨here, others⟩ := forall_mem_cons.mp some
      obtain ⟨taken, left, rfl, run⟩ :=
        readEvents_cons more here (fits len mem_cons_self first mem_cons_self)
      rw [map_cons, foldl_cons, step, run]
      refine ih (fun event member => others event (mem_append_right _ member))
        (fun len member event queued => fits len (.tail _ member) event
          (.tail _ (mem_append_right _ queued))) ?_
      simp only [length_cons, length_append] at enough ⊢
      omega

end InotifyCall

/-! ## The reader -/

/-- The event at the front, and the distance to the next header. -/
def parseEvent (bytes : List Byte) : Option (Seen × Nat) :=
  let len := (wordAt 32 bytes 12).toNat
  if 16 + len ≤ bytes.length then
    some ((wordAt 32 bytes 0, wordAt 32 bytes 4, wordAt 32 bytes 8,
      ((bytes.drop 16).take len).takeWhile (· ≠ 0)), 16 + len)
  else none

/-- The events of a stream with the offsets of their headers. -/
def parseEvents : (fuel offset : Nat) → List Byte → Option (List (Nat × Seen))
  | _, _, [] => some []
  | 0, _, _ => none
  | fuel + 1, offset, bytes =>
    (parseEvent bytes).bind fun (event, stride) =>
      (parseEvents fuel (offset + stride) (bytes.drop stride)).map ((offset, event) :: ·)

namespace InotifyEvent

variable {event : InotifyEvent}

/-- Without padding the header tells where the record ends. -/
theorem Unpadded.len_eq (unpadded : event.Unpadded) :
    event.nameLen % 2 ^ 32 = event.paddedLen ∧ event.rawName.length ≤ event.paddedLen := by
  rcases unpadded with none | ⟨full, small⟩
  · simp [paddedLen, nameLen, none]
  · have some : event.rawName ≠ [] := by
      rintro none
      simp [none] at full
    rw [paddedLen, nameLen, if_neg some]
    omega

theorem Unpadded.length_encode (unpadded : event.Unpadded) :
    event.encode.length = 16 + event.paddedLen := by
  have fits := unpadded.len_eq.2
  simp only [encode, ofWord, length_append, length_replicate, ofNat, length_cons, length_nil]
  omega

theorem Unpadded.parseEvent_encode (unpadded : event.Unpadded) (rest : List Byte) :
    parseEvent (event.encode ++ rest) = some (event.seen, event.encode.length) := by
  have word (value : BitVec 32) := ofNat_toNat_ofWord (show 8 ∣ 32 by decide) value
  obtain ⟨same, fits⟩ := unpadded.len_eq
  have len : (wordAt 32 (event.encode ++ rest) 12).toNat = event.paddedLen :=
    (congrArg BitVec.toNat (word _)).trans ((BitVec.toNat_ofNat ..).trans same)
  have name : (((event.encode ++ rest).drop 16).take event.paddedLen).takeWhile (· ≠ 0) =
      event.rawName := by
    have padded : (event.encode ++ rest).drop 16 = event.rawName ++
        replicate (event.paddedLen - event.rawName.length) 0 ++ rest := rfl
    have kept : ∀ byte ∈ event.rawName, decide (byte ≠ 0) = true := fun byte member =>
      decide_eq_true fun nul => event.noNul (nul ▸ member)
    rw [padded, take_left' (by simp; omega), takeWhile_append_of_pos kept]
    simp
  rw [parseEvent, len, name, if_pos (by simp [unpadded.length_encode]), unpadded.length_encode]
  rw [show wordAt 32 (event.encode ++ rest) 0 = event.wd from word _,
    show wordAt 32 (event.encode ++ rest) 4 = event.mask from word _,
    show wordAt 32 (event.encode ++ rest) 8 = event.cookie from word _]
  rfl

theorem encode_ne_nil (event : InotifyEvent) : event.encode ≠ [] := by
  simp [encode, ofWord, Bytes.ofNat]

/-- A stream of unpadded records is read back; every header is aligned. -/
theorem parseEvents_encode {events : List InotifyEvent}
    (unpadded : ∀ event ∈ events, event.Unpadded)
    {fuel offset : Nat} (aligned : 4 ∣ offset) (enough : (events.flatMap encode).length ≤ fuel) :
    ∃ parsed, parseEvents fuel offset (events.flatMap encode) = some parsed ∧
      parsed.map Prod.snd = events.map seen ∧ ∀ record ∈ parsed, 4 ∣ record.1 := by
  induction events generalizing offset fuel with
  | nil => exact ⟨[], parseEvents.eq_1 .., rfl, forall_mem_nil _⟩
  | cons event events ih =>
    have here := unpadded event mem_cons_self
    rw [flatMap_cons, length_append, here.length_encode] at enough
    obtain ⟨fuel, rfl⟩ : ∃ n, fuel = n + 1 := Nat.exists_eq_succ_of_ne_zero (by omega)
    have next : 4 ∣ offset + event.encode.length := by
      rw [here.length_encode, paddedLen]
      omega
    obtain ⟨parsed, run, same, offsets⟩ := ih (fun other member => unpadded other (.tail _ member))
      next (show _ ≤ fuel by omega)
    refine ⟨(offset, event.seen) :: parsed, ?_, by simp [same], ?_⟩
    · rw [flatMap_cons, parseEvents, here.parseEvent_encode]
      · simp [run]
      · simp [event.encode_ne_nil]
    · exact forall_mem_cons.mpr ⟨aligned, offsets⟩

end InotifyEvent

open InotifyCall InotifyEvent

/-- As long as no event needs padding, a reader recovers from what the reads have
returned the events that are not still queued, in order and each once, and every
header is aligned.  A read with room for the first event returns it, and enough such
reads leave none. -/
theorem round_trip_while_unpadded {calls : List InotifyCall}
    (unpadded : ∀ event ∈ calls.filterMap queued, event.Unpadded) :
    ∃ events rest parsed, calls.filterMap queued = events ++ rest ∧
      (perform calls).events = rest.map encode ∧
      parseEvents (perform calls).returned.length 0 (perform calls).returned = some parsed ∧
      parsed.map Prod.snd = events.map seen ∧ (∀ record ∈ parsed, 4 ∣ record.1) ∧
      (∀ first more len, rest = first :: more → first.encode.length ≤ len →
        ∃ taken left, more = taken ++ left ∧ readEvents len (rest.map encode) =
          .ok ((first :: taken).flatMap encode, left.map encode)) ∧
      ∀ lens : List Nat, (∀ len ∈ lens, ∀ event ∈ rest, event.encode.length ≤ len) →
        rest.length ≤ lens.length → (perform (calls ++ lens.map .read)).events = [] := by
  obtain ⟨taken, same, bytes⟩ := perform_eq calls
  obtain ⟨events, rest, split, rfl, left⟩ := map_eq_append_iff.mp same
  rw [split] at unpadded
  obtain ⟨parsed, run, recovered, aligned⟩ := parseEvents_encode
    (fun event member => unpadded event (mem_append_left _ member)) (Nat.dvd_zero 4) le_rfl
  refine ⟨events, rest, parsed, split, left.symm, bytes ▸ run, recovered, aligned, ?_, ?_⟩
  · rintro first more len rfl fits
    obtain ⟨_, _, both, read⟩ := readEvents_cons (more.map encode) first.encode_ne_nil fits
    obtain ⟨taken, others, rfl, rfl, rfl⟩ := map_eq_append_iff.mp both
    exact ⟨taken, others, rfl, read⟩
  · intro lens fits enough
    rw [perform, foldl_append]
    refine events_of_reads ?_ (fun len member => ?_) ?_ <;> rw [← perform, ← left]
    · exact forall_mem_map.mpr fun event _ => event.encode_ne_nil
    · exact forall_mem_map.mpr (fits len member)
    · rwa [length_map]

/-- A file is created in a watched directory, and the event is read. -/
def createAndRead (name : List Byte) (noNul : 0 ∉ name) : List InotifyCall :=
  [.pushEvent ⟨1, 0x100, 0, name, noNul⟩, .read 64]

/-- With its terminator, a name of three bytes needs no padding. -/
theorem round_trip_of_three_bytes :
    ∃ parsed, parseEvents 20 0 (perform (createAndRead [97, 98, 99] (by decide))).returned =
        some parsed ∧ parsed.map Prod.snd = [(1, 0x100, 0, [97, 98, 99])] := by
  obtain ⟨events, rest, parsed, split, left, run, recovered, -⟩ := round_trip_while_unpadded
    (show ∀ event ∈ (createAndRead [97, 98, 99] (by decide)).filterMap queued, event.Unpadded by
      simp [createAndRead, queued, Unpadded])
  cases map_eq_nil_iff.mp left.symm
  refine ⟨parsed, run, recovered.trans ?_⟩
  rw [← append_nil events, ← split]
  rfl

/-- A name of one byte has two with its terminator and four in the record: where the
reader looks for the next header there is the padding. -/
theorem padding_displaces_reader : (perform (createAndRead [97] (by decide))).events = [] ∧
      parseEvents (perform (createAndRead [97] (by decide))).returned.length 0
        (perform (createAndRead [97] (by decide))).returned = none := by
  decide

end AetherKernel.Vfs
