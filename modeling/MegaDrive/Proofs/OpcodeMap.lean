/-
The documented opcode map: a pattern of fixed bits for every opcode and the
places of its fields.  Main statements: a word is recognised as an opcode
exactly when it has that opcode's pattern and fields, and every other word is
refused, for its width bits in the two classes that reserve them and as an
unsupported instruction elsewhere.
-/
import Mathlib.Data.BitVec
import MegaDrive.Opcode

namespace MegaDrive

/-- The two bits that stand for a width in most opcodes. -/
def Width.sizeField : Width → BitVec 2
  | .byte => 0b00
  | .word => 0b01
  | .long => 0b10

/-- The two bits that stand for a width in a move. -/
def Width.moveField : Width → BitVec 2
  | .byte => 0b01
  | .word => 0b11
  | .long => 0b10

/-- The upper byte of a branch. -/
def BranchKind.pattern : BranchKind → Word
  | .notEqual => 0x6600
  | .equal => 0x6700
  | .subroutine => 0x6100

namespace Opcode

/-- The pattern and the fields with which a word stands for an opcode. -/
def Matches (word : Word) : Opcode → Prop
  | .nop => word = 0x4E71
  | .rts => word = 0x4E75
  | .stop => word = 0x4E72
  | .moveToSr => word = 0x46FC
  | .tst width source =>
      word &&& 0xFF00 = 0x4A00 ∧ word.extractLsb' 6 2 = width.sizeField ∧
        word.extractLsb' 3 3 = source.mode ∧
        word.extractLsb' 0 3 = source.register
  | .move width source destination =>
      word &&& 0xC000 = 0 ∧ word.extractLsb' 12 2 = width.moveField ∧
        word.extractLsb' 3 3 = source.mode ∧
        word.extractLsb' 0 3 = source.register ∧
        word.extractLsb' 6 3 = destination.mode ∧
        word.extractLsb' 9 3 = destination.register
  | .branch kind short =>
      word &&& 0xFF00 = kind.pattern ∧ word.extractLsb' 0 8 = short
  | .lea source destination =>
      word &&& 0xF1C0 = 0x41C0 ∧ word.extractLsb' 3 3 = source.mode ∧
        word.extractLsb' 0 3 = source.register ∧
        word.extractLsb' 9 3 = destination
  | .andi width destination =>
      word &&& 0xFF00 = 0x0200 ∧ word.extractLsb' 6 2 = width.sizeField ∧
        word.extractLsb' 3 3 = destination.mode ∧
        word.extractLsb' 0 3 = destination.register
  | .dbcc condition counter =>
      word &&& 0xF0F8 = 0x50C8 ∧ word.extractLsb' 8 4 = condition.code ∧
        word.extractLsb' 0 3 = counter
  | .subq data width destination =>
      word &&& 0xF100 = 0x5100 ∧ word.extractLsb' 6 2 = width.sizeField ∧
        word.extractLsb' 3 3 = destination.mode ∧
        word.extractLsb' 0 3 = destination.register ∧
        word.extractLsb' 9 3 = data

/-- The two classes in which the fourth value of the width bits is refused for
itself. -/
def ReservedSize (word : Word) : Prop :=
  (word &&& 0xFF00 = 0x4A00 ∨ word &&& 0xFF00 = 0x0200) ∧
    word.extractLsb' 6 2 = 0b11

/-- The fault of a word that stands for no opcode. -/
inductive Unmatched (word : Word) : Fault → Prop
  | size (hreserved : ReservedSize word) : Unmatched word (.invalidSize 0b11)
  | unknown (hfree : ¬ ReservedSize word)
      (hunmatched : ∀ opcode, ¬ Matches word opcode) :
      Unmatched word (.unsupportedInstruction word)

section Fields

variable (word : Word)

/-- A field of a word, compared with a number as a number. -/
theorem field_eq_iff (start length value : Nat) :
    word.extractLsb' start length = BitVec.ofNat length value ↔
      word.toNat / 2 ^ start % 2 ^ length = value % 2 ^ length := by
  rw [← BitVec.toNat_inj, BitVec.extractLsb'_toNat, BitVec.toNat_ofNat,
    Nat.shiftRight_eq_div_pow]

/-- A field that none of the four literal words has keeps a word apart from
all of them. -/
theorem not_literal {word : Word} {start length : Nat} {value : BitVec length}
    (hfield : word.extractLsb' start length = value)
    (hnop : BitVec.extractLsb' start length 0x4E71#16 ≠ value)
    (hstop : BitVec.extractLsb' start length 0x4E72#16 ≠ value)
    (hmoveToSr : BitVec.extractLsb' start length 0x46FC#16 ≠ value)
    (hrts : BitVec.extractLsb' start length 0x4E75#16 ≠ value) :
    word ≠ 0x4E71 ∧ word ≠ 0x4E72 ∧ word ≠ 0x46FC ∧ word ≠ 0x4E75 := by
  refine ⟨?_, ?_, ?_, ?_⟩
  · rintro rfl
    exact hnop hfield
  · rintro rfl
    exact hstop hfield
  · rintro rfl
    exact hmoveToSr hfield
  · rintro rfl
    exact hrts hfield

theorem upperByte_eq_iff {pattern : Word}
    (hlow : pattern.extractLsb' 0 8 = 0#8) :
    word &&& 0xFF00 = pattern ↔
      word.extractLsb' 8 8 = pattern.extractLsb' 8 8 := by
  simp only [BitVec.eq_of_getLsbD_eq_iff, BitVec.getLsbD_and,
    BitVec.getLsbD_extractLsb', Nat.forall_lt_succ_right] at hlow ⊢
  grind

theorem tstPattern_iff :
    word &&& 0xFF00 = 0x4A00 ↔ word.extractLsb' 8 8 = 0x4A#8 :=
  upperByte_eq_iff word (by decide)

theorem andiPattern_iff :
    word &&& 0xFF00 = 0x0200 ↔ word.extractLsb' 8 8 = 2#8 :=
  upperByte_eq_iff word (by decide)

theorem movePattern_iff :
    word &&& 0xC000 = 0 ↔ word.extractLsb' 14 2 = 0#2 := by
  simp only [BitVec.eq_of_getLsbD_eq_iff, BitVec.getLsbD_and,
    BitVec.getLsbD_extractLsb', Nat.forall_lt_succ_right]
  grind

theorem leaPattern_iff :
    word &&& 0xF1C0 = 0x41C0 ↔
      word.extractLsb' 12 4 = 4#4 ∧ word.extractLsb' 6 3 = 7#3 := by
  simp only [BitVec.eq_of_getLsbD_eq_iff, BitVec.getLsbD_and,
    BitVec.getLsbD_extractLsb', Nat.forall_lt_succ_right]
  grind

theorem dbccPattern_iff :
    word &&& 0xF0F8 = 0x50C8 ↔
      word.extractLsb' 12 4 = 5#4 ∧ word.extractLsb' 3 5 = 25#5 := by
  simp only [BitVec.eq_of_getLsbD_eq_iff, BitVec.getLsbD_and,
    BitVec.getLsbD_extractLsb', Nat.forall_lt_succ_right]
  grind

theorem subqPattern_iff :
    word &&& 0xF100 = 0x5100 ↔
      word.extractLsb' 12 4 = 5#4 ∧ word.getLsbD 8 = true := by
  simp only [BitVec.eq_of_getLsbD_eq_iff, BitVec.getLsbD_and,
    BitVec.getLsbD_extractLsb', Nat.forall_lt_succ_right]
  grind

theorem branchPattern_iff (kind : BranchKind) :
    word &&& 0xFF00 = kind.pattern ↔
      word.extractLsb' 12 4 = 6#4 ∧
        BranchKind.ofCode? (word.extractLsb' 8 4) = some kind := by
  have hcode : ∀ bits, BranchKind.ofCode? bits = some kind ↔
      bits = kind.pattern.extractLsb' 8 4 := by
    cases kind <;> decide
  rw [hcode]
  simp only [BitVec.eq_of_getLsbD_eq_iff, BitVec.getLsbD_and,
    BitVec.getLsbD_extractLsb', Nat.forall_lt_succ_right]
  cases kind <;> grind [BranchKind.pattern]

end Fields

theorem ofSizeField_sizeField (width : Width) :
    Width.ofSizeField width.sizeField = .ok width := by
  cases width <;> rfl

theorem ofMoveField_moveField (width : Width) :
    Width.ofMoveField width.moveField = .ok width := by
  cases width <;> rfl

/-- Two bits are the field of a width or the value that is left over. -/
theorem eq_sizeField_or_reserved (bits : BitVec 2) :
    (∃ width : Width, bits = width.sizeField) ∨ bits = 0b11 := by
  have hbits : bits = 0 ∨ bits = 1 ∨ bits = 2 ∨ bits = 3 := by
    revert bits
    decide
  rcases hbits with rfl | rfl | rfl | rfl
  · exact .inl ⟨.byte, rfl⟩
  · exact .inl ⟨.word, rfl⟩
  · exact .inl ⟨.long, rfl⟩
  · exact .inr rfl

theorem eq_moveField_or_zero (bits : BitVec 2) :
    (∃ width : Width, bits = width.moveField) ∨ bits = 0 := by
  have hbits : bits = 0 ∨ bits = 1 ∨ bits = 2 ∨ bits = 3 := by
    revert bits
    decide
  rcases hbits with rfl | rfl | rfl | rfl
  · exact .inr rfl
  · exact .inl ⟨.byte, rfl⟩
  · exact .inl ⟨.long, rfl⟩
  · exact .inl ⟨.word, rfl⟩

section Classes

variable {word : Word}

theorem ofWord_tst (hupper : word.extractLsb' 8 8 = 0x4A#8) :
    ofWord word =
      (Width.ofSizeField (word.extractLsb' 6 2)).map fun width =>
        .tst width (lowField word) := by
  obtain ⟨hnop, hstop, hmoveToSr, hrts⟩ :=
    not_literal hupper (by decide) (by decide) (by decide) (by decide)
  rw [ofWord, if_neg hnop, if_neg hstop, if_neg hmoveToSr, if_neg hrts,
    if_pos hupper]
  rfl

theorem ofWord_move (htop : word.extractLsb' 14 2 = 0#2)
    (hwidth : word.extractLsb' 12 2 ≠ 0#2) :
    ofWord word =
      (Width.ofMoveField (word.extractLsb' 12 2)).map fun width =>
        .move width (lowField word) (highField word) := by
  have hvalue := (field_eq_iff word 14 2 0).mp htop
  obtain ⟨hnop, hstop, hmoveToSr, hrts⟩ :=
    not_literal htop (by decide) (by decide) (by decide) (by decide)
  rw [ofWord, if_neg hnop, if_neg hstop, if_neg hmoveToSr, if_neg hrts,
    if_neg (by rw [field_eq_iff]; omega), if_pos ⟨htop, hwidth⟩]
  rfl

theorem ofWord_branch_of_some {kind : BranchKind}
    (hgroup : word.extractLsb' 12 4 = 6#4)
    (hkind : BranchKind.ofCode? (word.extractLsb' 8 4) = some kind) :
    ofWord word = .ok (.branch kind (word.extractLsb' 0 8)) := by
  have hvalue := (field_eq_iff word 12 4 6).mp hgroup
  obtain ⟨hnop, hstop, hmoveToSr, hrts⟩ :=
    not_literal hgroup (by decide) (by decide) (by decide) (by decide)
  rw [ofWord, if_neg hnop, if_neg hstop, if_neg hmoveToSr, if_neg hrts,
    if_neg (by rw [field_eq_iff]; omega),
    if_neg (by rw [field_eq_iff]; omega), if_pos hgroup, hkind]

theorem ofWord_branch_of_none (hgroup : word.extractLsb' 12 4 = 6#4)
    (hkind : BranchKind.ofCode? (word.extractLsb' 8 4) = none) :
    ofWord word = .error (.unsupportedInstruction word) := by
  have hvalue := (field_eq_iff word 12 4 6).mp hgroup
  obtain ⟨hnop, hstop, hmoveToSr, hrts⟩ :=
    not_literal hgroup (by decide) (by decide) (by decide) (by decide)
  rw [ofWord, if_neg hnop, if_neg hstop, if_neg hmoveToSr, if_neg hrts,
    if_neg (by rw [field_eq_iff]; omega),
    if_neg (by rw [field_eq_iff]; omega), if_pos hgroup, hkind]

theorem ofWord_lea (hgroup : word.extractLsb' 12 4 = 4#4)
    (hmiddle : word.extractLsb' 6 3 = 7#3) :
    ofWord word = .ok (.lea (lowField word) (word.extractLsb' 9 3)) := by
  have hvalue := (field_eq_iff word 12 4 4).mp hgroup
  have hbits := (field_eq_iff word 6 3 7).mp hmiddle
  obtain ⟨hnop, hstop, hmoveToSr, hrts⟩ :=
    not_literal hmiddle (by decide) (by decide) (by decide) (by decide)
  rw [ofWord, if_neg hnop, if_neg hstop, if_neg hmoveToSr, if_neg hrts,
    if_neg (by rw [field_eq_iff]; omega),
    if_neg (by rw [field_eq_iff]; omega),
    if_neg (by rw [field_eq_iff]; omega), if_pos ⟨hgroup, hmiddle⟩]

theorem ofWord_andi (hupper : word.extractLsb' 8 8 = 2#8) :
    ofWord word =
      (Width.ofSizeField (word.extractLsb' 6 2)).map fun width =>
        .andi width (lowField word) := by
  have hvalue := (field_eq_iff word 8 8 2).mp hupper
  obtain ⟨hnop, hstop, hmoveToSr, hrts⟩ :=
    not_literal hupper (by decide) (by decide) (by decide) (by decide)
  rw [ofWord, if_neg hnop, if_neg hstop, if_neg hmoveToSr, if_neg hrts,
    if_neg (by rw [field_eq_iff]; omega),
    if_neg (by rw [ne_eq, field_eq_iff, field_eq_iff]; omega),
    if_neg (by rw [field_eq_iff]; omega),
    if_neg (by rw [field_eq_iff]; omega), if_pos hupper]
  rfl

theorem ofWord_dbcc (hgroup : word.extractLsb' 12 4 = 5#4)
    (hmiddle : word.extractLsb' 3 5 = 25#5) :
    ofWord word =
      .ok (.dbcc (Condition.ofCode (word.extractLsb' 8 4))
        (word.extractLsb' 0 3)) := by
  have hvalue := (field_eq_iff word 12 4 5).mp hgroup
  obtain ⟨hnop, hstop, hmoveToSr, hrts⟩ :=
    not_literal hgroup (by decide) (by decide) (by decide) (by decide)
  rw [ofWord, if_neg hnop, if_neg hstop, if_neg hmoveToSr, if_neg hrts,
    if_neg (by rw [field_eq_iff]; omega),
    if_neg (by rw [field_eq_iff]; omega),
    if_neg (by rw [field_eq_iff]; omega),
    if_neg (by rw [field_eq_iff]; omega),
    if_neg (by rw [field_eq_iff]; omega), if_pos ⟨hgroup, hmiddle⟩]

theorem ofWord_subq (hgroup : word.extractLsb' 12 4 = 5#4)
    (hbit : word.getLsbD 8 = true)
    (hwidth : word.extractLsb' 6 2 ≠ 3#2) :
    ofWord word =
      (Width.ofSizeField (word.extractLsb' 6 2)).map fun width =>
        .subq (word.extractLsb' 9 3) width (lowField word) := by
  have hvalue := (field_eq_iff word 12 4 5).mp hgroup
  have hfree : word.toNat / 2 ^ 6 % 2 ^ 2 ≠ 3 := by
    rw [ne_eq, field_eq_iff] at hwidth
    omega
  obtain ⟨hnop, hstop, hmoveToSr, hrts⟩ :=
    not_literal hgroup (by decide) (by decide) (by decide) (by decide)
  rw [ofWord, if_neg hnop, if_neg hstop, if_neg hmoveToSr, if_neg hrts,
    if_neg (by rw [field_eq_iff]; omega),
    if_neg (by rw [field_eq_iff]; omega),
    if_neg (by rw [field_eq_iff]; omega),
    if_neg (by rw [field_eq_iff]; omega),
    if_neg (by rw [field_eq_iff]; omega),
    if_neg (by rw [field_eq_iff, field_eq_iff]; omega),
    if_pos ⟨hgroup, hbit, hwidth⟩]
  rfl

theorem ofWord_of_reserved (hreserved : ReservedSize word) :
    ofWord word = .error (.invalidSize 0b11) := by
  obtain ⟨htst | handi, hbits⟩ := hreserved
  · have hupper := (tstPattern_iff word).mp htst
    rw [ofWord_tst hupper, hbits]
    rfl
  · have hupper := (andiPattern_iff word).mp handi
    rw [ofWord_andi hupper, hbits]
    rfl

/-- The pattern and the fields of an opcode are enough to be recognised. -/
theorem ofWord_of_matches {opcode : Opcode} (hmatches : Matches word opcode) :
    ofWord word = .ok opcode := by
  cases opcode with
  | nop =>
      obtain rfl : word = 0x4E71 := hmatches
      rfl
  | rts =>
      obtain rfl : word = 0x4E75 := hmatches
      rfl
  | stop =>
      obtain rfl : word = 0x4E72 := hmatches
      rfl
  | moveToSr =>
      obtain rfl : word = 0x46FC := hmatches
      rfl
  | tst width source =>
      obtain ⟨hpattern, hwidth, hmode, hregister⟩ := hmatches
      have hupper := (tstPattern_iff word).mp hpattern
      rw [ofWord_tst hupper, hwidth, ofSizeField_sizeField, lowField, hmode,
        hregister]
      rfl
  | move width source destination =>
      obtain ⟨hpattern, hwidth, hmode, hregister, hmode', hregister'⟩ :=
        hmatches
      have htop := (movePattern_iff word).mp hpattern
      have hnonzero : word.extractLsb' 12 2 ≠ 0#2 := by
        rw [hwidth]
        cases width <;> decide
      rw [ofWord_move htop hnonzero, hwidth, ofMoveField_moveField, lowField,
        highField, hmode, hregister, hmode', hregister']
      rfl
  | branch kind short =>
      obtain ⟨hpattern, hshort⟩ := hmatches
      obtain ⟨hgroup, hkind⟩ := (branchPattern_iff word kind).mp hpattern
      rw [ofWord_branch_of_some hgroup hkind, hshort]
  | lea source destination =>
      obtain ⟨hpattern, hmode, hregister, hdestination⟩ := hmatches
      obtain ⟨hgroup, hmiddle⟩ := (leaPattern_iff word).mp hpattern
      rw [ofWord_lea hgroup hmiddle, lowField, hmode, hregister, hdestination]
  | andi width destination =>
      obtain ⟨hpattern, hwidth, hmode, hregister⟩ := hmatches
      have hupper := (andiPattern_iff word).mp hpattern
      rw [ofWord_andi hupper, hwidth, ofSizeField_sizeField, lowField, hmode,
        hregister]
      rfl
  | dbcc condition counter =>
      obtain ⟨hpattern, hcondition, hcounter⟩ := hmatches
      obtain ⟨hgroup, hmiddle⟩ := (dbccPattern_iff word).mp hpattern
      rw [ofWord_dbcc hgroup hmiddle, hcondition, Condition.ofCode_code,
        hcounter]
  | subq data width destination =>
      obtain ⟨hpattern, hwidth, hmode, hregister, hdata⟩ := hmatches
      obtain ⟨hgroup, hbit⟩ := (subqPattern_iff word).mp hpattern
      have hfree : word.extractLsb' 6 2 ≠ 3#2 := by
        rw [hwidth]
        cases width <;> decide
      rw [ofWord_subq hgroup hbit hfree, hwidth, ofSizeField_sizeField,
        lowField, hmode, hregister, hdata]
      rfl

/-- The three ways in which a word is dealt with. -/
inductive Resolved (word : Word) : Prop
  | recognised (opcode : Opcode) (hword : ofWord word = .ok opcode)
      (hmatches : Matches word opcode)
  | reserved (hword : ofWord word = .error (.invalidSize 0b11))
      (hreserved : ReservedSize word)
  | unsupported (hword : ofWord word = .error (.unsupportedInstruction word))

theorem resolved_tst (hupper : word.extractLsb' 8 8 = 0x4A#8) :
    Resolved word := by
  have hpattern := (tstPattern_iff word).mpr hupper
  rcases eq_sizeField_or_reserved (word.extractLsb' 6 2) with
    ⟨width, hwidth⟩ | hwidth
  · refine .recognised (.tst width (lowField word)) ?_
      ⟨hpattern, hwidth, rfl, rfl⟩
    rw [ofWord_tst hupper, hwidth, ofSizeField_sizeField]
    rfl
  · have hreserved : ReservedSize word := ⟨.inl hpattern, hwidth⟩
    exact .reserved (ofWord_of_reserved hreserved) hreserved

theorem resolved_move (htop : word.extractLsb' 14 2 = 0#2)
    (hnonzero : word.extractLsb' 12 2 ≠ 0#2) : Resolved word := by
  have hpattern := (movePattern_iff word).mpr htop
  rcases eq_moveField_or_zero (word.extractLsb' 12 2) with
    ⟨width, hwidth⟩ | hwidth
  · refine .recognised (.move width (lowField word) (highField word)) ?_
      ⟨hpattern, hwidth, rfl, rfl, rfl, rfl⟩
    rw [ofWord_move htop hnonzero, hwidth, ofMoveField_moveField]
    rfl
  · exact absurd hwidth hnonzero

theorem resolved_branch (hgroup : word.extractLsb' 12 4 = 6#4) :
    Resolved word := by
  cases hkind : BranchKind.ofCode? (word.extractLsb' 8 4) with
  | none => exact .unsupported (ofWord_branch_of_none hgroup hkind)
  | some kind =>
      have hpattern := (branchPattern_iff word kind).mpr ⟨hgroup, hkind⟩
      exact .recognised (.branch kind (word.extractLsb' 0 8))
        (ofWord_branch_of_some hgroup hkind) ⟨hpattern, rfl⟩

theorem resolved_andi (hupper : word.extractLsb' 8 8 = 2#8) :
    Resolved word := by
  have hpattern := (andiPattern_iff word).mpr hupper
  rcases eq_sizeField_or_reserved (word.extractLsb' 6 2) with
    ⟨width, hwidth⟩ | hwidth
  · refine .recognised (.andi width (lowField word)) ?_
      ⟨hpattern, hwidth, rfl, rfl⟩
    rw [ofWord_andi hupper, hwidth, ofSizeField_sizeField]
    rfl
  · have hreserved : ReservedSize word := ⟨.inr hpattern, hwidth⟩
    exact .reserved (ofWord_of_reserved hreserved) hreserved

theorem resolved_dbcc (hgroup : word.extractLsb' 12 4 = 5#4)
    (hmiddle : word.extractLsb' 3 5 = 25#5) : Resolved word := by
  have hpattern := (dbccPattern_iff word).mpr ⟨hgroup, hmiddle⟩
  have hcode := Condition.code_ofCode (word.extractLsb' 8 4)
  exact .recognised
    (.dbcc (Condition.ofCode (word.extractLsb' 8 4)) (word.extractLsb' 0 3))
    (ofWord_dbcc hgroup hmiddle) ⟨hpattern, hcode.symm, rfl⟩

theorem resolved_subq (hgroup : word.extractLsb' 12 4 = 5#4)
    (hbit : word.getLsbD 8 = true) (hfree : word.extractLsb' 6 2 ≠ 3#2) :
    Resolved word := by
  have hpattern := (subqPattern_iff word).mpr ⟨hgroup, hbit⟩
  rcases eq_sizeField_or_reserved (word.extractLsb' 6 2) with
    ⟨width, hwidth⟩ | hwidth
  · refine .recognised
      (.subq (word.extractLsb' 9 3) width (lowField word)) ?_
      ⟨hpattern, hwidth, rfl, rfl, rfl⟩
    rw [ofWord_subq hgroup hbit hfree, hwidth, ofSizeField_sizeField]
    rfl
  · exact absurd hwidth hfree

/-- The case split follows the order in which the classes are tried, so that
the last case has every guard refuted. -/
theorem resolved (word : Word) : Resolved word := by
  by_cases hnop : word = 0x4E71
  · exact .recognised .nop (by rw [hnop]; rfl) hnop
  by_cases hstop : word = 0x4E72
  · exact .recognised .stop (by rw [hstop]; rfl) hstop
  by_cases hmoveToSr : word = 0x46FC
  · exact .recognised .moveToSr (by rw [hmoveToSr]; rfl) hmoveToSr
  by_cases hrts : word = 0x4E75
  · exact .recognised .rts (by rw [hrts]; rfl) hrts
  by_cases htst : word.extractLsb' 8 8 = 0x4A#8
  · exact resolved_tst htst
  by_cases hmove : word.extractLsb' 14 2 = 0#2 ∧ word.extractLsb' 12 2 ≠ 0#2
  · exact resolved_move hmove.1 hmove.2
  by_cases hbranch : word.extractLsb' 12 4 = 6#4
  · exact resolved_branch hbranch
  by_cases hlea : word.extractLsb' 12 4 = 4#4 ∧ word.extractLsb' 6 3 = 7#3
  · have hpattern := (leaPattern_iff word).mpr hlea
    exact .recognised (.lea (lowField word) (word.extractLsb' 9 3))
      (ofWord_lea hlea.1 hlea.2) ⟨hpattern, rfl, rfl, rfl⟩
  by_cases handi : word.extractLsb' 8 8 = 2#8
  · exact resolved_andi handi
  by_cases hdbcc : word.extractLsb' 12 4 = 5#4 ∧ word.extractLsb' 3 5 = 25#5
  · exact resolved_dbcc hdbcc.1 hdbcc.2
  by_cases hsubq : word.extractLsb' 12 4 = 5#4 ∧ word.getLsbD 8 = true ∧
      word.extractLsb' 6 2 ≠ 3#2
  · exact resolved_subq hsubq.1 hsubq.2.1 hsubq.2.2
  refine .unsupported ?_
  rw [ofWord, if_neg hnop, if_neg hstop, if_neg hmoveToSr, if_neg hrts,
    if_neg htst, if_neg hmove, if_neg hbranch, if_neg hlea, if_neg handi,
    if_neg hdbcc, if_neg hsubq]

theorem ofWord_eq_ok_iff (word : Word) (opcode : Opcode) :
    ofWord word = .ok opcode ↔ Matches word opcode := by
  constructor
  · intro hword
    cases resolved word with
    | recognised found hfound hmatches =>
        rw [hfound] at hword
        cases hword
        exact hmatches
    | reserved hfault =>
        rw [hfault] at hword
        cases hword
    | unsupported hfault =>
        rw [hfault] at hword
        cases hword
  · exact ofWord_of_matches

theorem ofWord_eq_error_iff (word : Word) (fault : Fault) :
    ofWord word = .error fault ↔ Unmatched word fault := by
  constructor
  · intro hword
    cases resolved word with
    | recognised found hfound =>
        rw [hfound] at hword
        cases hword
    | reserved hfault hreserved =>
        rw [hfault] at hword
        cases hword
        exact .size hreserved
    | unsupported hfault =>
        rw [hfault] at hword
        cases hword
        refine .unknown ?_ ?_
        · intro hreserved
          rw [ofWord_of_reserved hreserved] at hfault
          cases hfault
        · intro opcode hmatches
          rw [ofWord_of_matches hmatches] at hfault
          cases hfault
  · intro hunmatched
    cases hunmatched with
    | size hreserved => exact ofWord_of_reserved hreserved
    | unknown hfree hnone =>
        cases resolved word with
        | recognised found _ hmatches => exact absurd hmatches (hnone found)
        | reserved _ hreserved => exact absurd hreserved hfree
        | unsupported hfault => exact hfault

end Classes

end Opcode

end MegaDrive
