import AetherKernel.Errno
import AetherKernel.Lib.Bytes
import AetherKernel.Lib.Word

/-!
# User buffers of the descriptor calls

The calls see the memory of the process through `read` and `write` of its
address space.  A read may be short or fault; a write that is short is a fault
too, after it has stored what it could.
-/

namespace AetherKernel.Fd

open Lib List

/-- The memory of a process, as far as the descriptor calls use it. -/
class UserMemory (M : Type) where
  /-- The bytes that can be copied from an address, or a fault. -/
  read : M → Nat → Nat → Option (List Byte)
  /-- The number of bytes stored at an address. -/
  write : M → Nat → List Byte → Except SysErr Nat × M
  length_read : ∀ {memory address len bytes}, read memory address len = some bytes →
    bytes.length ≤ len

structure UserIoVec where
  base : Nat
  len : Nat
  deriving DecidableEq

/-- `IOV_MAX`. -/
def iovMax : Nat := 1024

variable {M : Type} [UserMemory M] (memory : M)

def readUserBuffer (address len : Nat) : Except SysErr (List Byte) :=
  match UserMemory.read memory address len with
  | none => .error .fault
  | some bytes => .ok bytes

def readUserExactBuffer (address len : Nat) : Except SysErr (List Byte) :=
  match UserMemory.read memory address len with
  | none => .error .fault
  | some bytes => if bytes.length = len then .ok bytes else .error .fault

def writeUserBuffer (address : Nat) (bytes : List Byte) : Except SysErr Unit × M :=
  match UserMemory.write memory address bytes with
  | (.error error, memory) => (.error error, memory)
  | (.ok written, memory) =>
    if written = bytes.length then (.ok (), memory) else (.error .fault, memory)

/-- The vectors that stand one after the other, sixteen bytes each. -/
def parseIovecs : Nat → List Byte → List UserIoVec
  | 0, _ => []
  | count + 1, raw =>
    ⟨Bytes.toNat (raw.take 8), Bytes.toNat ((raw.drop 8).take 8)⟩ :: parseIovecs count (raw.drop 16)

def readIovecArray (address count : Nat) : Except SysErr (List UserIoVec) :=
  if count = 0 then .ok []
  else
    match readUserExactBuffer memory address (count * 16) with
    | .error error => .error error
    | .ok raw => .ok (parseIovecs count raw)

/-- Store bytes into the segments, each filled before the next. -/
def writeIovecBytes : List UserIoVec → List Byte → M → Except SysErr Unit × M
  | [], _, memory => (.ok (), memory)
  | segment :: rest, bytes, memory =>
    if bytes = [] then (.ok (), memory)
    else
      let count := min segment.len bytes.length
      if count = 0 then writeIovecBytes rest bytes memory
      else
        match writeUserBuffer memory segment.base (bytes.take count) with
        | (.error error, memory) => (.error error, memory)
        | (.ok (), memory) => writeIovecBytes rest (bytes.drop count) memory

/-- `checked_add` over the lengths, up to a limit. -/
def totalLen (limit : Nat) : List UserIoVec → Nat → Except SysErr Nat
  | [], total => .ok total
  | segment :: rest, total =>
    match Word.checkedAdd total segment.len with
    | none => .error .inval
    | some next => if next ≤ limit then totalLen limit rest next else .error .inval

/-! ## Storing in pieces -/

variable (segments : List UserIoVec)

@[simp]
theorem writeIovecBytes_nil (memory : M) :
    writeIovecBytes segments [] memory = (.ok (), memory) := by
  cases segments <;> simp [writeIovecBytes]

/-- The number of bytes that segments have room for. -/
def capacity : Nat :=
  (segments.map UserIoVec.len).sum

@[simp]
theorem capacity_nil : capacity [] = 0 :=
  rfl

@[simp]
theorem capacity_cons (segment : UserIoVec) (rest : List UserIoVec) :
    capacity (segment :: rest) = segment.len + capacity rest := by
  simp [capacity]

@[simp]
theorem capacity_append (first second : List UserIoVec) :
    capacity (first ++ second) = capacity first + capacity second := by
  simp [capacity]

/-- Bytes that fill the first segments leave the others to what follows. -/
theorem writeIovecBytes_append {first second : List UserIoVec} {head tail : List Byte}
    {memory after : M} (full : head.length = capacity first)
    (stored : writeIovecBytes first head memory = (.ok (), after)) :
    writeIovecBytes (first ++ second) (head ++ tail) memory =
      writeIovecBytes second tail after := by
  induction first generalizing head memory with
  | nil =>
    have empty : head = [] := eq_nil_of_length_eq_zero (by simpa [capacity] using full)
    subst empty
    simp only [writeIovecBytes, Prod.mk.injEq, true_and] at stored
    rw [stored]
    rfl
  | cons segment rest ih =>
    rw [capacity_cons] at full
    have fits : segment.len ≤ head.length := by omega
    by_cases small : segment.len = 0
    · have skipHead : writeIovecBytes (segment :: rest) head memory =
          writeIovecBytes rest head memory := by
        cases head <;> simp [writeIovecBytes, small]
      have skipBoth : writeIovecBytes (segment :: rest ++ second) (head ++ tail) memory =
          writeIovecBytes (rest ++ second) (head ++ tail) memory := by
        cases head ++ tail <;> simp [writeIovecBytes, small]
      rw [skipHead] at stored
      rw [skipBoth]
      exact ih (by omega) stored
    have nonempty : head ≠ [] := by
      rintro rfl
      simp at fits
      omega
    have count : min segment.len head.length = segment.len := by omega
    have countBoth : min segment.len (head ++ tail).length = segment.len := by
      rw [length_append]
      omega
    rw [writeIovecBytes, if_neg nonempty] at stored
    rw [cons_append, writeIovecBytes, if_neg (by simp [nonempty])]
    simp only [count, countBoth, small] at stored ⊢
    rw [take_append_of_le_length fits, drop_append_of_le_length fits]
    cases piece : writeUserBuffer memory segment.base (head.take segment.len) with
    | mk result middle =>
      rw [piece] at stored
      cases result with
      | error error => simp at stored
      | ok _ => exact ih (by rw [length_drop]; omega) stored

/-- Bytes that one segment has room for do not reach the others. -/
theorem writeIovecBytes_of_short {segment : UserIoVec} {bytes : List Byte}
    (short : bytes.length ≤ segment.len) (rest : List UserIoVec) (memory : M) :
    writeIovecBytes (segment :: rest) bytes memory = writeIovecBytes [segment] bytes memory := by
  have count : min segment.len bytes.length = bytes.length := Nat.min_eq_right short
  by_cases empty : bytes = []
  · simp [empty]
  · have some : bytes.length ≠ 0 := by simpa using empty
    simp only [writeIovecBytes, count]
    split
    · rfl
    · simp

/-- Empty segments take nothing. -/
theorem writeIovecBytes_filter (bytes : List Byte) (memory : M) :
    writeIovecBytes (segments.filter fun segment => segment.len ≠ 0) bytes memory =
      writeIovecBytes segments bytes memory := by
  induction segments generalizing bytes memory with
  | nil => rfl
  | cons segment rest ih =>
    by_cases small : segment.len = 0
    · have skip : writeIovecBytes (segment :: rest) bytes memory =
          writeIovecBytes rest bytes memory := by
        cases bytes <;> simp [writeIovecBytes, small]
      rw [skip, filter_cons_of_neg (by simp [small])]
      exact ih bytes memory
    · rw [filter_cons_of_pos (by simp [small])]
      simp only [writeIovecBytes, ih]

/-! ## Flat memory -/

/-- Memory that is accessible everywhere. -/
structure FlatMemory where
  byteAt : Nat → Byte

namespace FlatMemory

def load (memory : FlatMemory) (address len : Nat) : List Byte :=
  (List.range len).map fun i => memory.byteAt (address + i)

def store (memory : FlatMemory) (address : Nat) (bytes : List Byte) : FlatMemory where
  byteAt target :=
    if address ≤ target ∧ target < address + bytes.length then bytes.getD (target - address) 0
    else memory.byteAt target

instance : UserMemory FlatMemory where
  read memory address len := some (memory.load address len)
  write memory address bytes := (.ok bytes.length, memory.store address bytes)
  length_read := by
    rintro memory address len bytes ⟨rfl⟩
    simp [load]

end FlatMemory

end AetherKernel.Fd
