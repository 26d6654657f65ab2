/-
Operations of the host that abort the program where they are refused:
arithmetic below zero or past a word, a shift by a word or more, and slices
that end before what is asked of them.  Main statements: loading from a slice
and storing into one agree with storage that is read most significant byte
first, and abort exactly where the slice is too short.
-/
import MegaDrive.BigEndian

namespace MegaDrive

theorem Width.bytes_le (width : Width) : width.bytes ≤ 4 := by
  cases width <;> decide

/-- To shift a value up and put another below it is to append them. -/
theorem shiftLeft_or_setWidth {j k : Nat} (high : BitVec j) (low : BitVec k) :
    (high.setWidth 32 : Long) <<< k ||| low.setWidth 32 =
      (high ++ low).setWidth 32 := by
  apply BitVec.eq_of_getLsbD_eq
  intro i hi
  simp only [BitVec.getLsbD_or, BitVec.getLsbD_shiftLeft,
    BitVec.getLsbD_setWidth, BitVec.getLsbD_append]
  by_cases hlow : i < k
  · simp [hlow, hi]
  · simp [hlow, hi, BitVec.getLsbD_of_ge low i (by omega),
      show i - k < 32 by omega]

/-- Why the host would abort the program. -/
inductive Abort
  | underflow
  | overflow
  | distance
  | slice
  | index
deriving DecidableEq, Repr

/-- A value, or an abort on the way to it. -/
abbrev Guarded (α : Type) : Type := Except Abort α

namespace Guarded

@[simp] theorem ok_bind {α β : Type} (value : α) (next : α → Guarded β) :
    (Except.ok value : Guarded α) >>= next = next value := rfl

@[simp] theorem error_bind {α β : Type} (abort : Abort) (next : α → Guarded β) :
    (Except.error abort : Guarded α) >>= next = .error abort := rfl

section Arithmetic

variable {left right : Nat}

def sub (left right : Nat) : Guarded Nat :=
  if right ≤ left then .ok (left - right) else .error .underflow

/-- Numbers of the host have 32 bits at least. -/
def add (left right : Nat) : Guarded Nat :=
  if left + right < 0x100000000 then .ok (left + right) else .error .overflow

def mul (left right : Nat) : Guarded Nat :=
  if left * right < 0x100000000 then .ok (left * right) else .error .overflow

def shiftRight (value : Long) (distance : Nat) : Guarded Long :=
  if distance < 32 then .ok (value >>> distance) else .error .distance

theorem sub_of_le (hle : right ≤ left) : sub left right = .ok (left - right) :=
  if_pos hle

theorem add_of_lt (hlt : left + right < 0x100000000) :
    add left right = .ok (left + right) :=
  if_pos hlt

theorem mul_of_lt (hlt : left * right < 0x100000000) :
    mul left right = .ok (left * right) :=
  if_pos hlt

theorem shiftRight_of_lt (value : Long) {distance : Nat}
    (hlt : distance < 32) :
    shiftRight value distance = .ok (value >>> distance) :=
  if_pos hlt

end Arithmetic

/-- Bytes from a place on, seen from there. -/
structure Slice (n : Nat) where
  bytes : Vector Byte n
  start : Nat
  start_le : start ≤ n

namespace Slice

variable {n : Nat}

def ofStart (bytes : Vector Byte n) (start : Nat) : Guarded (Slice n) :=
  if hstart : start ≤ n then .ok ⟨bytes, start, hstart⟩ else .error .slice

def length (slice : Slice n) : Nat := n - slice.start

/-- The first bytes of a slice. -/
def front (slice : Slice n) (count : Nat) : Guarded (List Byte) :=
  if count ≤ slice.length then
    .ok ((slice.bytes.toList.drop slice.start).take count)
  else .error .slice

/-- Put a byte below what has been read before it. -/
def below (value : Long) (byte : Byte) : Long :=
  value <<< 8 ||| byte.setWidth 32

def load (slice : Slice n) (width : Width) : Guarded Long := do
  let bytes ← slice.front width.bytes
  return bytes.foldl below 0

/-- The byte of a value that stands `i` bytes behind the first of `count`. -/
def byteAt (value : Long) (count i : Nat) : Guarded Byte := do
  let last ← sub count 1
  let behind ← sub last i
  let distance ← mul 8 behind
  let shifted ← shiftRight value distance
  return shifted.setWidth 8

/-- All bytes once a value has been stored at the front of a slice of them.  The
host goes over the places of the value and shifts each byte down. -/
def store (slice : Slice n) (width : Width) (value : Long) :
    Guarded (Vector Byte n) := do
  let places ← slice.front width.bytes
  (List.range places.length).foldlM (fun bytes i => do
    let byte ← byteAt value width.bytes i
    return bytes.setIfInBounds (slice.start + i) byte) slice.bytes

theorem ofStart_of_le (bytes : Vector Byte n) {start : Nat}
    (hstart : start ≤ n) : ofStart bytes start = .ok ⟨bytes, start, hstart⟩ :=
  dif_pos hstart

theorem ofStart_of_gt (bytes : Vector Byte n) {start : Nat}
    (hstart : n < start) : ofStart bytes start = .error .slice :=
  dif_neg (Nat.not_le_of_lt hstart)

theorem front_of_short (slice : Slice n) {count : Nat}
    (hshort : n < slice.start + count) : slice.front count = .error .slice := by
  have hstart := slice.start_le
  rw [front, length, if_neg (by omega)]

theorem below_append {k : Nat} (high : BitVec k) (byte : Byte) :
    below (high.setWidth 32) byte = (high ++ byte).setWidth 32 :=
  shiftLeft_or_setWidth high byte

theorem below_zero (byte : Byte) : below 0 byte = byte.setWidth 32 := by
  simp [below]

theorem below_word (high low : Byte) :
    below (below 0 high) low = (high ++ low).setWidth 32 := by
  rw [below_zero, below_append]

theorem below_long (first second third last : Byte) :
    below (below (below (below 0 first) second) third) last =
      first ++ second ++ third ++ last := by
  rw [below_word, below_append, below_append]
  exact BitVec.setWidth_eq _

/-- A slice that is long enough begins with the bytes of each place in turn. -/
theorem front_of_fits (slice : Slice n) {count : Nat}
    (hfits : slice.start + count ≤ n) :
    slice.front count =
      .ok (List.ofFn fun i : Fin count => slice.bytes[slice.start + i]) := by
  have hstart := slice.start_le
  rw [front, length, if_pos (by omega)]
  congr 1
  apply List.ext_getElem
  · rw [List.length_take, List.length_drop, List.length_ofFn,
      Vector.length_toList]
    omega
  · intro i hi hi'
    simp

theorem load_of_short (slice : Slice n) {width : Width}
    (hshort : n < slice.start + width.bytes) :
    slice.load width = .error .slice := by
  rw [load, slice.front_of_short hshort, error_bind]

theorem load_of_fits (slice : Slice n) {width : Width}
    (hfits : slice.start + width.bytes ≤ n) :
    ∃ value, BigEndian.load? slice.bytes slice.start width = some value ∧
      slice.load width = .ok value := by
  rw [load, slice.front_of_fits hfits]
  cases width with
  | byte =>
      exact ⟨_, BigEndian.load?_byte slice.bytes hfits,
        congrArg Except.ok (below_zero _)⟩
  | word =>
      exact ⟨_, BigEndian.load?_word slice.bytes hfits,
        congrArg Except.ok (below_word _ _)⟩
  | long =>
      exact ⟨_, BigEndian.load?_long slice.bytes hfits,
        congrArg Except.ok (below_long _ _ _ _)⟩

theorem byteAt_of_lt (value : Long) {count i : Nat} (hi : i < count)
    (hcount : count ≤ 4) :
    byteAt value count i = .ok (value.extractLsb' (8 * (count - 1 - i)) 8) := by
  rw [byteAt, sub_of_le (by omega : 1 ≤ count), ok_bind,
    sub_of_le (by omega : i ≤ count - 1), ok_bind,
    mul_of_lt (by omega : 8 * (count - 1 - i) < 0x100000000), ok_bind,
    shiftRight_of_lt value (by omega : 8 * (count - 1 - i) < 32)]
  rfl

theorem store_of_short (slice : Slice n) {width : Width} (value : Long)
    (hshort : n < slice.start + width.bytes) :
    slice.store width value = .error .slice := by
  rw [store, slice.front_of_short hshort, error_bind]

/-- The loop over the places of a store never aborts: it is over the places
that the value has bytes for. -/
theorem foldlM_byteAt (value : Long) {count : Nat} (hcount : count ≤ 4)
    (start : Nat) {places : List Nat} (hplaces : ∀ i ∈ places, i < count)
    (bytes : Vector Byte n) :
    places.foldlM (fun bytes i => do
      let byte ← byteAt value count i
      return bytes.setIfInBounds (start + i) byte) bytes =
      (.ok (places.foldl (fun bytes i =>
        bytes.setIfInBounds (start + i)
          (value.extractLsb' (8 * (count - 1 - i)) 8)) bytes) :
        Guarded (Vector Byte n)) := by
  induction places generalizing bytes with
  | nil => rfl
  | cons i rest ih =>
      have hi := byteAt_of_lt value (hplaces i List.mem_cons_self) hcount
      rw [List.foldlM_cons, hi]
      exact ih (fun other hother => hplaces other (List.mem_cons_of_mem i hother))
        _

theorem store_of_fits (slice : Slice n) {width : Width} (value : Long)
    (hfits : slice.start + width.bytes ≤ n) :
    slice.store width value =
      .ok (BigEndian.put slice.bytes slice.start width value) := by
  have hplaces : ∀ i ∈ List.range width.bytes, i < width.bytes :=
    fun i hi => List.mem_range.mp hi
  rw [store, slice.front_of_fits hfits, ok_bind, List.length_ofFn,
    foldlM_byteAt value width.bytes_le slice.start hplaces]
  cases width <;> rfl

end Slice

section Windows

variable {n : Nat} (bytes : Vector Byte n) (start : Nat) (width : Width)

def loadFrom : Guarded Long := do
  let slice ← Slice.ofStart bytes start
  slice.load width

def storeFrom (value : Long) : Guarded (Vector Byte n) := do
  let slice ← Slice.ofStart bytes start
  slice.store width value

/-- A load from a place on gives what the bytes there spell, and aborts exactly
where they run past the end. -/
theorem loadFrom_eq :
    loadFrom bytes start width =
      match BigEndian.load? bytes start width with
      | some value => .ok value
      | none => .error .slice := by
  by_cases hfits : start + width.bytes ≤ n
  · have hstart : start ≤ n := by omega
    obtain ⟨value, hvalue, hload⟩ :=
      Slice.load_of_fits ⟨bytes, start, hstart⟩ hfits
    rw [loadFrom, Slice.ofStart_of_le bytes hstart, ok_bind, hload, hvalue]
  · rw [(BigEndian.load?_eq_none_iff bytes start width).mpr (by omega),
      loadFrom]
    by_cases hstart : start ≤ n
    · rw [Slice.ofStart_of_le bytes hstart, ok_bind]
      exact Slice.load_of_short ⟨bytes, start, hstart⟩ (Nat.lt_of_not_le hfits)
    · rw [Slice.ofStart_of_gt bytes (Nat.lt_of_not_le hstart), error_bind]

/-- A store from a place on replaces the bytes there, and aborts exactly where
they run past the end. -/
theorem storeFrom_eq (value : Long) :
    storeFrom bytes start width value =
      match BigEndian.store? bytes start width value with
      | some stored => .ok stored
      | none => .error .slice := by
  by_cases hfits : start + width.bytes ≤ n
  · have hstart : start ≤ n := by omega
    rw [storeFrom, Slice.ofStart_of_le bytes hstart, ok_bind,
      BigEndian.store?, if_pos hfits]
    exact Slice.store_of_fits ⟨bytes, start, hstart⟩ value hfits
  · rw [BigEndian.store?, if_neg hfits, storeFrom]
    by_cases hstart : start ≤ n
    · rw [Slice.ofStart_of_le bytes hstart, ok_bind]
      exact Slice.store_of_short ⟨bytes, start, hstart⟩ value
        (Nat.lt_of_not_le hfits)
    · rw [Slice.ofStart_of_gt bytes (Nat.lt_of_not_le hstart), error_bind]

end Windows

namespace GuardWitness

example : sub 0xA13FFF 0xA14000 = .error .underflow := rfl

example : loadFrom #v[0x12, 0x34, 0x56] 1 .word = .ok 0x3456 := rfl

example : loadFrom #v[0x12, 0x34, 0x56] 2 .word = .error .slice := rfl

end GuardWitness

end Guarded

end MegaDrive
