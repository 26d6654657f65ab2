/-
A reference for the bus: one byte at every address and no regions, with the
accesses that are accepted listed by their addresses.  Its bytes are spelled in
base 256; main statements tie that to the storage of the regions.
-/
import Mathlib.Data.BitVec
import MegaDrive.Bus

namespace MegaDrive

/-- A write as the processor asks for it. -/
structure Write where
  address : Address
  width : Width
  value : Long
deriving DecidableEq, Repr

/-- The reference state: an image that is only read, the value of the
controller block, and a byte at every address. -/
structure FlatBus where
  image : Array Byte
  controller : Long
  cells : Nat → Byte

namespace FlatBus

def powerOn (image : Array Byte) (controller : Long) : FlatBus :=
  ⟨image, controller, fun _ => 0⟩

/-- The number that the bytes from `place` on spell in base 256. -/
def spelled (cells : Nat → Byte) (place : Nat) (width : Width) : Long :=
  BitVec.ofNat 32 <|
    (List.range width.bytes).foldl
      (fun value i => 256 * value + (cells (place + i)).toNat) 0

/-- The cells once the low bytes of `value` stand from `place` on, the most
significant first. -/
def spell (cells : Nat → Byte) (place : Nat) (width : Width) (value : Long) :
    Nat → Byte :=
  fun i =>
    if place ≤ i ∧ i < place + width.bytes then
      BitVec.ofNat 8 (value.toNat / 256 ^ (place + width.bytes - 1 - i))
    else cells i

/-- Writes to these addresses are accepted and change nothing. -/
def Discards (address : Address) : Prop :=
  0xA10000 ≤ address.toNat ∧ address.toNat ≤ 0xA1001F

instance (address : Address) : Decidable (Discards address) :=
  inferInstanceAs (Decidable (_ ∧ _))

/-- The writes that store their bytes. -/
def Stores (address : Address) (width : Width) : Prop :=
  let place := address.toNat
  (0xFF0000 ≤ place ∧ place ≤ 0xFFFFFF ∧ (width = .byte ∨ place % 2 = 0) ∧
    place + width.bytes ≤ 0x1000000) ∨
  (width = .long ∧ place = 0xA14000) ∨
  (width = .word ∧ (place = 0xA14000 ∨ place = 0xA14002)) ∨
  (width ≠ .byte ∧ place % 2 = 0 ∧ 0xC00000 ≤ place ∧ place ≤ 0xC0000F ∧
    place + width.bytes ≤ 0xC00010)

instance (address : Address) (width : Width) :
    Decidable (Stores address width) :=
  inferInstanceAs (Decidable (_ ∨ _ ∨ _ ∨ _))

/-- The fault of a write that is not accepted. -/
def refusal (address : Address) (width : Width) : Fault :=
  let place := address.toNat
  if 0xFF0000 ≤ place ∧ place ≤ 0xFFFFFF then
    if width ≠ .byte ∧ place % 2 = 1 then .misaligned address
    else .pastEnd address
  else if width ≠ .byte ∧ place % 2 = 0 ∧ 0xC00000 ≤ place ∧
      place ≤ 0xC0000F then
    .pastEnd address
  else .unwritable address width

def write (bus : FlatBus) (request : Write) : Except Fault FlatBus :=
  if Discards request.address then .ok bus
  else if Stores request.address request.width then
    .ok { bus with
      cells := spell bus.cells request.address.toNat request.width
        request.value }
  else .error (refusal request.address request.width)

/-- Read bytes that end at `limit`. -/
def readUpTo (limit : Nat) (cells : Nat → Byte) (address : Address)
    (width : Width) : Except Fault Long :=
  if width ≠ .byte ∧ address.toNat % 2 = 1 then .error (.misaligned address)
  else if address.toNat + width.bytes ≤ limit then
    .ok (spelled cells address.toNat width)
  else .error (.pastEnd address)

def read (bus : FlatBus) (address : Address) (width : Width) :
    Except Fault Long :=
  let place := address.toNat
  if place ≤ 0x3FFFFF then
    readUpTo bus.image.size (fun i => bus.image[i]?.getD 0) address width
  else if 0xFF0000 ≤ place ∧ place ≤ 0xFFFFFF then
    readUpTo 0x1000000 bus.cells address width
  else if 0xA10000 ≤ place ∧ place ≤ 0xA1001F then
    .ok (BitVec.ofNat 32 (bus.controller.toNat % 256 ^ width.bytes))
  else .error (.unreadable address)

end FlatBus

/-- The answers to writes made one after the other, and the state that they
lead to. -/
def attempt {σ : Type} (perform : σ → Write → Except Fault Unit × σ) :
    σ → List Write → List (Except Fault Unit) × σ
  | state, [] => ([], state)
  | state, request :: rest =>
      let (answer, reached) := perform state request
      let later := attempt perform reached rest
      (answer :: later.1, later.2)

def Bus.answer (bus : Bus) (request : Write) : Except Fault Unit × Bus :=
  let done := bus.written request.address request.width request.value
  (done.result, done.bus)

/-- A refused write leaves the reference as it is. -/
def FlatBus.answer (bus : FlatBus) (request : Write) :
    Except Fault Unit × FlatBus :=
  match bus.write request with
  | .ok reached => (.ok (), reached)
  | .error fault => (.error fault, bus)

namespace FlatBus

theorem ofNat_div_eq_extractLsb' (value : Long) (k : Nat) :
    BitVec.ofNat 8 (value.toNat / 256 ^ k) = value.extractLsb' (8 * k) 8 := by
  apply BitVec.eq_of_toNat_eq
  rw [BitVec.toNat_ofNat, BitVec.extractLsb'_toNat, Nat.shiftRight_eq_div_pow,
    Nat.pow_mul]

theorem toNat_append_byte {w : Nat} (front : BitVec w) (last : Byte) :
    (front ++ last).toNat = 256 * front.toNat + last.toNat := by
  rw [BitVec.toNat_append, ← Nat.shiftLeft_add_eq_or_of_lt last.isLt,
    Nat.shiftLeft_eq, Nat.mul_comm]

theorem spelled_word (cells : Nat → Byte) (place : Nat) :
    spelled cells place .word =
      BitVec.ofNat 32
        (256 * (cells place).toNat + (cells (place + 1)).toNat) := by
  simp [spelled, Width.bytes, List.range_succ]

theorem spelled_long (cells : Nat → Byte) (place : Nat) :
    spelled cells place .long =
      BitVec.ofNat 32
        (256 * (256 * (256 * (cells place).toNat + (cells (place + 1)).toNat) +
          (cells (place + 2)).toNat) + (cells (place + 3)).toNat) := by
  simp [spelled, Width.bytes, List.range_succ]

/-- Bytes that stand in cells are loaded as the number those cells spell. -/
theorem load?_eq_spelled {n : Nat} (bytes : Vector Byte n)
    {cells : Nat → Byte} {start : Nat}
    (hcells : ∀ (i : Nat) (hi : i < n), bytes[i] = cells (start + i))
    {offset : Nat} {width : Width} (hfits : offset + width.bytes ≤ n) :
    BigEndian.load? bytes offset width =
      some (spelled cells (start + offset) width) := by
  cases width with
  | byte =>
      have hbyte : offset + 1 ≤ n := hfits
      rw [BigEndian.load?_byte bytes hbyte, hcells]
      apply congrArg some
      apply BitVec.eq_of_toNat_eq
      simp [spelled, Width.bytes]
  | word =>
      have hword : offset + 2 ≤ n := hfits
      rw [BigEndian.load?_word bytes hword, hcells, hcells, spelled_word]
      apply congrArg some
      apply BitVec.eq_of_toNat_eq
      rw [BitVec.toNat_setWidth, toNat_append_byte, BitVec.toNat_ofNat,
        Nat.add_assoc]
  | long =>
      have hlong : offset + 4 ≤ n := hfits
      rw [BigEndian.load?_long bytes hlong, hcells, hcells, hcells, hcells,
        spelled_long]
      apply congrArg some
      apply BitVec.eq_of_toNat_eq
      rw [BitVec.toNat_ofNat, Nat.mod_eq_of_lt (by omega), toNat_append_byte,
        toNat_append_byte, toNat_append_byte]
      simp only [Nat.add_assoc]

theorem spell_outside (cells : Nat → Byte) {place i : Nat} {width : Width}
    (value : Long) (houtside : i < place ∨ place + width.bytes ≤ i) :
    spell cells place width value i = cells i := by
  rw [spell, if_neg (by omega)]

/-- To put bytes into storage is to spell them into the cells it stands for. -/
theorem getElem_put_eq_spell {n : Nat} {bytes : Vector Byte n}
    {cells : Nat → Byte} {start place : Nat} (hstart : start ≤ place)
    (hcells : ∀ (i : Nat) (hi : i < n), bytes[i] = cells (start + i))
    (width : Width) (value : Long) (i : Nat) (hi : i < n) :
    (BigEndian.put bytes (place - start) width value)[i] =
      spell cells place width value (start + i) := by
  rw [BigEndian.getElem_put, spell]
  by_cases hinside : place ≤ start + i ∧ start + i < place + width.bytes
  · rw [if_pos hinside, if_pos (by omega), ofNat_div_eq_extractLsb']
    congr 2
    omega
  · rw [if_neg hinside, if_neg (by omega), hcells]

end FlatBus

/-- A byte of a word that was cut out of a value is a byte of that value. -/
theorem extractLsb'_byte_of_word (value : Long) {start place : Nat}
    (hplace : place + 8 ≤ 16) :
    (value.extractLsb' start 16).extractLsb' place 8 =
      value.extractLsb' (start + place) 8 := by
  apply BitVec.eq_of_getLsbD_eq
  intro j hj
  simp only [BitVec.getLsbD_extractLsb', hj, decide_true, Bool.true_and,
    show place + j < 16 by omega, Nat.add_assoc]

/-- A write of the latch replaces its own bytes and keeps the others. -/
theorem Bus.extractLsb'_latchAfter? {latch stored : Long} {offset : Nat}
    {width : Width} {value : Long}
    (hstored : latchAfter? latch offset width value = some stored)
    {i : Nat} (hi : i < 4) :
    stored.extractLsb' (8 * (3 - i)) 8 =
      if offset ≤ i ∧ i < offset + width.bytes then
        value.extractLsb' (8 * (offset + width.bytes - 1 - i)) 8
      else latch.extractLsb' (8 * (3 - i)) 8 := by
  have hbytes : Width.word.bytes = 2 := rfl
  unfold latchAfter? at hstored
  split at hstored <;> cases hstored
  case h_1 =>
    rw [if_pos ⟨Nat.zero_le i, hi⟩]
    rfl
  case h_2 =>
    by_cases hhigh : i < 2
    · rw [if_pos (by omega), BitVec.extractLsb'_append_eq_of_le (by omega),
        extractLsb'_byte_of_word _ (by omega)]
      congr 1
      omega
    · rw [if_neg (by omega), BitVec.extractLsb'_append_eq_of_add_le (by omega),
        extractLsb'_byte_of_word _ (by omega), Nat.zero_add]
  case h_3 =>
    by_cases hhigh : i < 2
    · rw [if_neg (by omega), BitVec.extractLsb'_append_eq_of_le (by omega),
        extractLsb'_byte_of_word _ (by omega)]
      congr 1
      omega
    · rw [if_pos (by omega), BitVec.extractLsb'_append_eq_of_add_le (by omega),
        extractLsb'_byte_of_word _ (by omega), Nat.zero_add]
      rfl

end MegaDrive
