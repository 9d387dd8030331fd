import Mathlib.Tactic.Ring

/-!
# Little-endian words and cursors over byte strings

A binary record is read from front to back by a cursor: a position in a byte
string that each field advances past the bytes it occupies.  A read beyond the
end fails.  The lemmas say which bytes a successful read has looked at.
-/

namespace AetherKernel.Lib

abbrev Byte :=
  BitVec 8

namespace Bytes

/-- The low `count` bytes of a number, least significant first. -/
def ofNat : Nat → Nat → List Byte
  | 0, _ => []
  | count + 1, value => BitVec.ofNat 8 value :: ofNat count (value / 256)

/-- The number written by bytes that stand least significant first. -/
def toNat : List Byte → Nat
  | [] => 0
  | byte :: rest => byte.toNat + 256 * toNat rest

/-- The bytes of a word in memory order. -/
def ofWord {width : Nat} (word : BitVec width) : List Byte :=
  ofNat (width / 8) word.toNat

/-- The word of a given width that stands at an offset. -/
def wordAt (width : Nat) (bytes : List Byte) (offset : Nat) : BitVec width :=
  BitVec.ofNat width (toNat ((bytes.drop offset).take (width / 8)))

/-- The bytes from one position up to another; there are none when the
positions are out of order or beyond the end. -/
def slice (bytes : List Byte) (start stop : Nat) : Option (List Byte) :=
  if start ≤ stop ∧ stop ≤ bytes.length then some ((bytes.drop start).take (stop - start))
  else none

variable {bytes : List Byte} {start stop : Nat}

theorem slice_eq_some (ordered : start ≤ stop) (fits : stop ≤ bytes.length) :
    slice bytes start stop = some ((bytes.drop start).take (stop - start)) :=
  if_pos ⟨ordered, fits⟩

theorem slice_eq_none (reversed : stop < start) : slice bytes start stop = none :=
  if_neg fun both => Nat.not_le.mpr reversed both.1

theorem toNat_ofNat (count value : Nat) : toNat (ofNat count value) = value % 256 ^ count := by
  induction count generalizing value with
  | zero => simp [ofNat, toNat, Nat.mod_one]
  | succ count ih =>
    rw [ofNat, toNat, ih, show 256 ^ (count + 1) = 256 * 256 ^ count from
      Nat.pow_succ']
    exact Nat.mod_mul.symm

/-- A word of whole bytes is read back. -/
theorem ofNat_toNat_ofWord {width : Nat} (whole : 8 ∣ width) (word : BitVec width) :
    BitVec.ofNat width (toNat (ofWord word)) = word := by
  have size : 256 ^ (width / 8) = 2 ^ width := by
    rw [show 256 = 2 ^ 8 from rfl, ← Nat.pow_mul, Nat.mul_div_cancel' whole]
  rw [ofWord, toNat_ofNat, size, Nat.mod_eq_of_lt word.isLt, BitVec.ofNat_toNat, BitVec.setWidth_eq]

theorem toNat_lt (bytes : List Byte) : toNat bytes < 256 ^ bytes.length := by
  induction bytes with
  | nil => decide
  | cons byte rest ih =>
    rw [toNat, List.length_cons]
    omega

end Bytes

/-- A parser that reads a byte string from a position and returns the position
after what it has read. -/
def Cursor (α : Type) : Type :=
  List Byte → Nat → Option (α × Nat)

namespace Cursor

variable {α β : Type} {bytes : List Byte} {offset count width : Nat}

instance : Monad Cursor where
  pure value := fun _ offset => some (value, offset)
  bind first next := fun bytes offset =>
    (first bytes offset).bind fun read => next read.1 bytes read.2

/-- The next `count` bytes. -/
def slice (count : Nat) : Cursor (List Byte) :=
  fun bytes offset =>
    if offset + count ≤ bytes.length then
      some ((bytes.drop offset).take count, offset + count)
    else
      none

/-- The next word. -/
def word (width : Nat) : Cursor (BitVec width) := do
  let chunk ← slice (width / 8)
  pure (BitVec.ofNat width (Bytes.toNat chunk))

/-- The next `count` words, in order. -/
def words (width : Nat) : (count : Nat) → Cursor (Vector (BitVec width) count)
  | 0 => pure #v[]
  | count + 1 => do
      let front ← words width count
      let last ← word width
      pure (front.push last)

@[simp]
theorem pure_apply (value : α) (bytes : List Byte) (offset : Nat) :
    (pure value : Cursor α) bytes offset = some (value, offset) :=
  rfl

/-- A field that could be read hands its value and end to the next one. -/
theorem bind_apply {first : Cursor α} {next : α → Cursor β}
    {after : Nat} {value : α} (field : first bytes offset = some (value, after)) :
    (first >>= next) bytes offset = next value bytes after := by
  change (first bytes offset).bind (fun read => next read.1 bytes read.2) = _
  rw [field]
  rfl

theorem slice_apply (fits : offset + count ≤ bytes.length) :
    slice count bytes offset = some ((bytes.drop offset).take count, offset + count) :=
  if_pos fits

theorem word_apply (fits : offset + width / 8 ≤ bytes.length) :
    word width bytes offset = some (Bytes.wordAt width bytes offset, offset + width / 8) :=
  bind_apply (slice_apply fits)

/-- An array field holds the words that stand one after the other. -/
theorem words_apply (fits : offset + width / 8 * count ≤ bytes.length) :
    words width count bytes offset =
      some (Vector.ofFn fun i => Bytes.wordAt width bytes (offset + width / 8 * i),
        offset + width / 8 * count) := by
  induction count with
  | zero => simp [words]
  | succ count ih =>
    rw [Nat.mul_succ] at fits
    have front := ih (by omega)
    have room : offset + width / 8 * count + width / 8 ≤ bytes.length := by omega
    rw [words, bind_apply front, bind_apply (word_apply room), Vector.ofFn_succ]
    simp [Nat.mul_succ, Nat.add_assoc]

end Cursor

end AetherKernel.Lib
