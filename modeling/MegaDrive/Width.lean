/-
The three widths at which the processor works, and what each keeps of a
32-bit value.
-/

namespace MegaDrive

abbrev Byte := BitVec 8

abbrev Word := BitVec 16

abbrev Long := BitVec 32

/-- Addresses are 32 bits wide; the console decodes the low part of them. -/
abbrev Address := BitVec 32

/-- An operand is a byte, a word of two bytes or a long of four. -/
inductive Width
  | byte
  | word
  | long
deriving DecidableEq, Repr

def Width.bytes : Width → Nat
  | .byte => 1
  | .word => 2
  | .long => 4

def Width.bits (width : Width) : Nat := 8 * width.bytes

/-- Ones in exactly the low `width.bits` places. -/
def Width.mask : Width → Long
  | .byte => 0xFF
  | .word => 0xFFFF
  | .long => 0xFFFFFFFF

/-- The top place of the width. -/
def Width.signBit : Width → Long
  | .byte => 0x80
  | .word => 0x8000
  | .long => 0x80000000

/-- The low part of a value, zeros above it. -/
def Width.truncate (width : Width) (value : Long) : Long :=
  value &&& width.mask

/-- The low part of `value` under the high part of `kept`. -/
def Width.merge (width : Width) (kept value : Long) : Long :=
  (kept &&& ~~~width.mask) ||| (value &&& width.mask)

/-- The sign of the low part, whatever stands above it. -/
def Width.isNegative (width : Width) (value : Long) : Bool :=
  value &&& width.signBit != 0

def Width.name : Width → String
  | .byte => "byte"
  | .word => "word"
  | .long => "long"

/-- The letter that follows the dot of a mnemonic. -/
def Width.suffix : Width → String
  | .byte => "b"
  | .word => "w"
  | .long => "l"

/-- Add a signed 16-bit displacement to an address, modulo `2 ^ 32`. -/
def displace (base : Address) (displacement : Word) : Address :=
  base + displacement.signExtend 32

theorem Width.getLsbD_mask (width : Width) (i : Nat) :
    width.mask.getLsbD i = decide (i < width.bits) := by
  have hmask : width.mask = (BitVec.allOnes width.bits).setWidth 32 := by
    cases width <;> rfl
  have hbits : width.bits ≤ 32 := by cases width <;> decide
  rw [hmask, BitVec.getLsbD_setWidth, BitVec.getLsbD_allOnes]
  by_cases hi : i < width.bits
  · simp [hi, Nat.lt_of_lt_of_le hi hbits]
  · simp [hi]

theorem Width.getLsbD_truncate (width : Width) (value : Long) (i : Nat) :
    (width.truncate value).getLsbD i =
      (value.getLsbD i && decide (i < width.bits)) := by
  rw [Width.truncate, BitVec.getLsbD_and, Width.getLsbD_mask]

/-- The low part of a value as a remainder. -/
theorem Width.toNat_truncate (width : Width) (value : Long) :
    (width.truncate value).toNat = value.toNat % (width.mask.toNat + 1) := by
  rw [Width.truncate, BitVec.toNat_and]
  cases width with
  | byte => exact Nat.and_two_pow_sub_one_eq_mod value.toNat 8
  | word => exact Nat.and_two_pow_sub_one_eq_mod value.toNat 16
  | long => exact Nat.and_two_pow_sub_one_eq_mod value.toNat 32

/-- What stands above the width does not reach down into a difference. -/
theorem Width.truncate_truncate_sub (width : Width) (value amount : Long) :
    width.truncate (width.truncate value - amount) =
      width.truncate (value - amount) := by
  apply BitVec.eq_of_toNat_eq
  simp only [Width.toNat_truncate, BitVec.toNat_sub]
  cases width <;> simp only [Width.mask, BitVec.reduceToNat] <;> omega

theorem Width.truncate_truncate_and (width : Width) (value mask : Long) :
    width.truncate (width.truncate value &&& mask) =
      width.truncate (value &&& mask) := by
  apply BitVec.eq_of_getLsbD_eq
  intro i _
  simp only [Width.getLsbD_truncate, BitVec.getLsbD_and]
  cases decide (i < width.bits) <;> simp

/-- The low part of a value as the slice that it is. -/
theorem Width.truncate_eq_setWidth (width : Width) (value : Long) :
    width.truncate value = (value.extractLsb' 0 width.bits).setWidth 32 := by
  apply BitVec.eq_of_getLsbD_eq
  intro i hi
  rw [Width.getLsbD_truncate, BitVec.getLsbD_setWidth,
    BitVec.getLsbD_extractLsb', Nat.zero_add, decide_eq_true hi, Bool.true_and,
    Bool.and_comm]

/-- What fits into a width has nothing above it. -/
theorem Width.truncate_setWidth {k : Nat} (width : Width) (value : BitVec k)
    (hfits : k ≤ width.bits) :
    width.truncate (value.setWidth 32) = value.setWidth 32 := by
  apply BitVec.eq_of_getLsbD_eq
  intro i hi
  rw [Width.getLsbD_truncate, BitVec.getLsbD_setWidth]
  by_cases hlow : i < width.bits
  · rw [decide_eq_true hlow, Bool.and_true]
  · rw [BitVec.getLsbD_of_ge value i (by omega), Bool.and_false,
      Bool.false_and]

theorem Width.truncate_truncate (width : Width) (value : Long) :
    width.truncate (width.truncate value) = width.truncate value := by
  rw [width.truncate_eq_setWidth value]
  exact width.truncate_setWidth _ (Nat.le_refl _)

theorem Width.getLsbD_merge (width : Width) (kept value : Long) (i : Nat) :
    (width.merge kept value).getLsbD i =
      if i < width.bits then value.getLsbD i else kept.getLsbD i := by
  rw [Width.merge, BitVec.getLsbD_or, BitVec.getLsbD_and, BitVec.getLsbD_and,
    BitVec.getLsbD_not, Width.getLsbD_mask]
  by_cases hi : i < width.bits
  · simp [hi]
  · by_cases hlong : i < 32
    · simp [hi, hlong]
    · simp [hi, BitVec.getLsbD_of_ge kept i (Nat.le_of_not_lt hlong)]

theorem Width.truncate_merge (width : Width) (kept value : Long) :
    width.truncate (width.merge kept value) = width.truncate value := by
  apply BitVec.eq_of_getLsbD_eq
  intro i _
  simp only [Width.getLsbD_truncate, Width.getLsbD_merge]
  by_cases hi : i < width.bits <;> simp [hi]

theorem Width.merge_truncate (width : Width) (kept : Long) :
    width.merge kept (width.truncate kept) = kept := by
  apply BitVec.eq_of_getLsbD_eq
  intro i _
  simp only [Width.getLsbD_truncate, Width.getLsbD_merge]
  by_cases hi : i < width.bits <;> simp [hi]

/-- Only the low part of a value is merged. -/
theorem Width.merge_congr (width : Width) (kept : Long) {value other : Long}
    (hlow : width.truncate value = width.truncate other) :
    width.merge kept value = width.merge kept other := by
  rw [Width.truncate, Width.truncate] at hlow
  rw [Width.merge, Width.merge, hlow]

end MegaDrive
