/-
The words of opcodes: each opcode has one, an opcode and its word determine
each other, and the words of the opcodes that have an immediate byte behind
them are three patterns.
-/
import MegaDrive.Proofs.InstructionFormat

namespace MegaDrive

/-- The opcodes whose source is an immediate of byte width. -/
def ByteImmediate (word : Word) : Prop :=
  word = 0x4A3C ∨ word &&& 0xF03F = 0x103C ∨ word &&& 0xFFC0 = 0x0200

instance (word : Word) : Decidable (ByteImmediate word) :=
  inferInstanceAs (Decidable (_ ∨ _))

namespace Opcode

/-- The word that an opcode is written with, from its fixed bits and its fields.
-/
def word : Opcode → Word
  | .nop => 0x4E71
  | .rts => 0x4E75
  | .stop => 0x4E72
  | .moveToSr => 0x46FC
  | .tst width source =>
      0x4A#8 ++ width.sizeField ++ source.mode ++ source.register
  | .move width source destination =>
      0b00#2 ++ width.moveField ++ destination.register ++ destination.mode ++
        source.mode ++ source.register
  | .branch kind short => kind.pattern.extractLsb' 8 8 ++ short
  | .lea source destination =>
      0b0100#4 ++ destination ++ 0b111#3 ++ source.mode ++ source.register
  | .andi width destination =>
      0x02#8 ++ width.sizeField ++ destination.mode ++ destination.register
  | .dbcc condition counter =>
      0b0101#4 ++ condition.code ++ 0b11001#5 ++ counter
  | .subq data width destination =>
      0b0101#4 ++ data ++ 0b1#1 ++ width.sizeField ++ destination.mode ++
        destination.register

/-- Every opcode has a word that stands for it. -/
theorem matches_word (opcode : Opcode) : opcode.Matches opcode.word := by
  cases opcode with
  | nop | rts | stop | moveToSr => rfl
  | tst | move | lea | andi | dbcc | subq =>
      simp only [Matches, word, BitVec.eq_of_getLsbD_eq_iff, BitVec.getLsbD_and,
        BitVec.getLsbD_extractLsb', BitVec.getLsbD_append,
        Nat.forall_lt_succ_right]
      simp
  | branch kind short =>
      simp only [Matches, word, BitVec.eq_of_getLsbD_eq_iff, BitVec.getLsbD_and,
        BitVec.getLsbD_extractLsb', BitVec.getLsbD_append,
        Nat.forall_lt_succ_right]
      cases kind <;> simp [BranchKind.pattern]

example : (Opcode.dbcc .never 0).word = 0x51C8 := rfl

variable {word other : Word}

/-- Words that agree in a field agree in the number that it spells. -/
theorem field_toNat {start length : Nat} {value : BitVec length}
    (hword : word.extractLsb' start length = value)
    (hother : other.extractLsb' start length = value) :
    word.toNat / 2 ^ start % 2 ^ length =
      other.toNat / 2 ^ start % 2 ^ length := by
  have hfields := congrArg BitVec.toNat (hword.trans hother.symm)
  rw [BitVec.extractLsb'_toNat, BitVec.extractLsb'_toNat,
    Nat.shiftRight_eq_div_pow, Nat.shiftRight_eq_div_pow] at hfields
  exact hfields

/-- The same for the operand field in the six lowest bits. -/
theorem lowField_toNat {field : OperandField}
    (hmode : word.extractLsb' 3 3 = field.mode)
    (hregister : word.extractLsb' 0 3 = field.register)
    (hmode' : other.extractLsb' 3 3 = field.mode)
    (hregister' : other.extractLsb' 0 3 = field.register) :
    word.toNat % 2 ^ 6 = other.toNat % 2 ^ 6 := by
  have hmodes := field_toNat hmode hmode'
  have hregisters := field_toNat hregister hregister'
  omega

theorem bit_eq_true_iff (word : Word) (i : Nat) :
    word.getLsbD i = true ↔ word.toNat / 2 ^ i % 2 = 1 := by
  rw [← BitVec.testBit_toNat, Nat.testBit_eq_decide_div_mod_eq,
    decide_eq_true_iff]

/-- An opcode has one word only. -/
theorem word_unique {opcode : Opcode} (hword : opcode.Matches word)
    (hother : opcode.Matches other) : word = other := by
  apply BitVec.eq_of_toNat_eq
  have hbound := word.isLt
  have hbound' := other.isLt
  cases opcode with
  | nop => exact congrArg BitVec.toNat (hword.trans hother.symm)
  | rts => exact congrArg BitVec.toNat (hword.trans hother.symm)
  | stop => exact congrArg BitVec.toNat (hword.trans hother.symm)
  | moveToSr => exact congrArg BitVec.toNat (hword.trans hother.symm)
  | tst width source =>
      obtain ⟨hpattern, hwidth, hmode, hregister⟩ := hword
      obtain ⟨hpattern', hwidth', hmode', hregister'⟩ := hother
      have hupper := field_toNat ((tstPattern_iff _).mp hpattern)
        ((tstPattern_iff _).mp hpattern')
      have hsize := field_toNat hwidth hwidth'
      have hlow := lowField_toNat hmode hregister hmode' hregister'
      omega
  | move width source destination =>
      obtain ⟨hpattern, hwidth, hmode, hregister, hmode₂, hregister₂⟩ := hword
      obtain ⟨hpattern', hwidth', hmode', hregister', hmode₂', hregister₂'⟩ :=
        hother
      have htop := field_toNat ((movePattern_iff _).mp hpattern)
        ((movePattern_iff _).mp hpattern')
      have hsize := field_toNat hwidth hwidth'
      have hlow := lowField_toNat hmode hregister hmode' hregister'
      have hmodes₂ := field_toNat hmode₂ hmode₂'
      have hregisters₂ := field_toNat hregister₂ hregister₂'
      omega
  | branch kind short =>
      obtain ⟨hpattern, hshort⟩ := hword
      obtain ⟨hpattern', hshort'⟩ := hother
      have hlow : kind.pattern.extractLsb' 0 8 = 0#8 := by
        cases kind <;> decide
      have hupper := field_toNat ((upperByte_eq_iff _ hlow).mp hpattern)
        ((upperByte_eq_iff _ hlow).mp hpattern')
      have hshorts := field_toNat hshort hshort'
      omega
  | lea source number =>
      obtain ⟨hpattern, hmode, hregister, hnumber⟩ := hword
      obtain ⟨hpattern', hmode', hregister', hnumber'⟩ := hother
      obtain ⟨hgroup, hmiddle⟩ := (leaPattern_iff _).mp hpattern
      obtain ⟨hgroup', hmiddle'⟩ := (leaPattern_iff _).mp hpattern'
      have hgroups := field_toNat hgroup hgroup'
      have hmiddles := field_toNat hmiddle hmiddle'
      have hlow := lowField_toNat hmode hregister hmode' hregister'
      have hnumbers := field_toNat hnumber hnumber'
      omega
  | andi width destination =>
      obtain ⟨hpattern, hwidth, hmode, hregister⟩ := hword
      obtain ⟨hpattern', hwidth', hmode', hregister'⟩ := hother
      have hupper := field_toNat ((andiPattern_iff _).mp hpattern)
        ((andiPattern_iff _).mp hpattern')
      have hsize := field_toNat hwidth hwidth'
      have hlow := lowField_toNat hmode hregister hmode' hregister'
      omega
  | dbcc condition number =>
      obtain ⟨hpattern, hcondition, hnumber⟩ := hword
      obtain ⟨hpattern', hcondition', hnumber'⟩ := hother
      obtain ⟨hgroup, hmiddle⟩ := (dbccPattern_iff _).mp hpattern
      obtain ⟨hgroup', hmiddle'⟩ := (dbccPattern_iff _).mp hpattern'
      have hgroups := field_toNat hgroup hgroup'
      have hmiddles := field_toNat hmiddle hmiddle'
      have hconditions := field_toNat hcondition hcondition'
      have hnumbers := field_toNat hnumber hnumber'
      omega
  | subq data width destination =>
      obtain ⟨hpattern, hwidth, hmode, hregister, hdata⟩ := hword
      obtain ⟨hpattern', hwidth', hmode', hregister', hdata'⟩ := hother
      obtain ⟨hgroup, hbit⟩ := (subqPattern_iff _).mp hpattern
      obtain ⟨hgroup', hbit'⟩ := (subqPattern_iff _).mp hpattern'
      rw [bit_eq_true_iff] at hbit hbit'
      have hgroups := field_toNat hgroup hgroup'
      have hsize := field_toNat hwidth hwidth'
      have hlow := lowField_toNat hmode hregister hmode' hregister'
      have hdatas := field_toNat hdata hdata'
      omega

/-- A word stands for one opcode only. -/
theorem opcode_unique {opcode found : Opcode} (hopcode : opcode.Matches word)
    (hfound : found.Matches word) : opcode = found := by
  have hword := ofWord_of_matches hopcode
  rw [ofWord_of_matches hfound] at hword
  cases hword
  rfl

/-- The opcodes whose source is an immediate of byte width. -/
def HasByteImmediate : Opcode → Prop
  | .tst width source | .move width source _ =>
      width = .byte ∧ source = .immediate
  | .andi width _ => width = .byte
  | _ => False

theorem tstByte_iff (word : Word) :
    word = 0x4A3C ↔ (Opcode.tst .byte .immediate).Matches word := by
  simp only [Matches, OperandField.immediate, Width.sizeField,
    BitVec.eq_of_getLsbD_eq_iff, BitVec.getLsbD_and,
    BitVec.getLsbD_extractLsb', Nat.forall_lt_succ_right]
  grind

theorem moveByte_iff (word : Word) :
    word &&& 0xF03F = 0x103C ↔
      (Opcode.move .byte .immediate (highField word)).Matches word := by
  simp only [Matches, OperandField.immediate, Width.moveField, highField,
    and_true, BitVec.eq_of_getLsbD_eq_iff, BitVec.getLsbD_and,
    BitVec.getLsbD_extractLsb', Nat.forall_lt_succ_right]
  grind

theorem andiByte_iff (word : Word) :
    word &&& 0xFFC0 = 0x0200 ↔
      (Opcode.andi .byte (lowField word)).Matches word := by
  simp only [Matches, Width.sizeField, lowField, and_true,
    BitVec.eq_of_getLsbD_eq_iff, BitVec.getLsbD_and,
    BitVec.getLsbD_extractLsb', Nat.forall_lt_succ_right]
  grind

theorem byteImmediate_iff {opcode : Opcode} (hmatches : opcode.Matches word) :
    ByteImmediate word ↔ opcode.HasByteImmediate := by
  constructor
  · rintro (htst | hmove | handi)
    · rw [opcode_unique hmatches ((tstByte_iff word).mp htst)]
      exact ⟨rfl, rfl⟩
    · rw [opcode_unique hmatches ((moveByte_iff word).mp hmove)]
      exact ⟨rfl, rfl⟩
    · rw [opcode_unique hmatches ((andiByte_iff word).mp handi)]
      rfl
  · intro hbyte
    cases opcode with
    | tst width source =>
        obtain ⟨rfl, rfl⟩ := hbyte
        exact .inl ((tstByte_iff word).mpr hmatches)
    | move width source destination =>
        obtain ⟨rfl, rfl⟩ := hbyte
        obtain ⟨hpattern, hwidth, hmode, hregister, -⟩ := hmatches
        exact .inr (.inl ((moveByte_iff word).mpr
          ⟨hpattern, hwidth, hmode, hregister, rfl, rfl⟩))
    | andi width destination =>
        cases hbyte
        obtain ⟨hpattern, hwidth, -⟩ := hmatches
        exact .inr (.inr ((andiByte_iff word).mpr
          ⟨hpattern, hwidth, rfl, rfl⟩))
    | _ => exact absurd hbyte id

end Opcode

end MegaDrive
