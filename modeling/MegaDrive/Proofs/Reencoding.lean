/-
From an instruction back to the opcode it was decoded from.  Main statements:
every instruction shows the opcode that began it, and wherever code is decoded
the operands show the fields of its first word.
-/
import MegaDrive.Proofs.Encoding

namespace MegaDrive

/-- The field that an operand was selected by. -/
def Operand.selector? (operand : Operand) : Option OperandField :=
  operand.field?.map fun bits => ⟨bits.extractLsb' 3 3, bits.extractLsb' 0 3⟩

/-- The byte that a branch has in its opcode. -/
def Operand.shortForm (width : Width) : Operand → Byte
  | .branch displacement => if width = .byte then displacement.setWidth 8 else 0
  | _ => 0

/-- The opcode that an instruction was begun by. -/
def Instruction.opcode? : Instruction → Option Opcode
  | .nop => some .nop
  | .rts => some .rts
  | .stop _ => some .stop
  | .moveToSr _ => some .moveToSr
  | .tst target width => target.selector?.map (.tst width)
  | .bne target width => some (.branch .notEqual (target.shortForm width))
  | .beq target width => some (.branch .equal (target.shortForm width))
  | .bsr target width => some (.branch .subroutine (target.shortForm width))
  | .lea target (.address number) =>
      target.selector?.map fun source => .lea source (number.setWidth 3)
  | .lea _ (.data _) => none
  | .move source destination width => do
      let from? ← source.selector?
      let to? ← destination.selector?
      return .move width from? to?
  | .andi _ destination width => destination.selector?.map (.andi width)
  | .dbcc condition (.data number) _ =>
      some (.dbcc condition (number.setWidth 3))
  | .dbcc _ (.address _) _ => none
  | .subq (.immediate amount) destination width =>
      destination.selector?.map (.subq (amount.setWidth 3) width)
  | .subq .. => none

theorem setWidth_setWidth_three (number : BitVec 3) :
    (number.setWidth 8).setWidth 3 = number := by
  rw [BitVec.setWidth_setWidth_of_le _ (by decide), BitVec.setWidth_eq]

section Selectors

variable {width : Width} {field : OperandField} {target : Operand}

/-- An operand shows the field that selected it. -/
theorem field?_of_encodes (hencodes : Encodes width field target) :
    target.field? = some (field.mode ++ field.register) := by
  have hnumber : ∀ number : BitVec 3,
      (number.setWidth 8).extractLsb' 0 3 = number := by
    decide
  cases hencodes with
  | dataRegister number => rw [Operand.field?, hnumber]; rfl
  | addressRegister number => rw [Operand.field?, hnumber]; rfl
  | indirect number => rw [Operand.field?, hnumber]; rfl
  | postIncrement number => rw [Operand.field?, hnumber]; rfl
  | displaced number displacement => rw [Operand.field?, hnumber]; rfl
  | absolute address => rfl
  | pcDisplaced displacement => rfl
  | byteImmediate hwidth hvalue => rfl
  | wordImmediate hwidth value => rfl
  | longImmediate hwidth value => rfl

theorem selector?_of_encodes (hencodes : Encodes width field target) :
    target.selector? = some field := by
  have hmode : (field.mode ++ field.register).extractLsb' 3 3 = field.mode :=
    BitVec.extractLsb'_append_eq_left
  have hregister :
      (field.mode ++ field.register).extractLsb' 0 3 = field.register :=
    BitVec.extractLsb'_append_eq_right
  rw [Operand.selector?, field?_of_encodes hencodes, Option.map_some, hmode,
    hregister]

end Selectors

theorem opcode?_branch (kind : BranchKind) (target : Operand) (width : Width) :
    (kind.instruction target width).opcode? =
      some (.branch kind (target.shortForm width)) := by
  cases kind <;> rfl

theorem setWidth_signExtend_byte (short : Byte) :
    (short.signExtend 16).setWidth 8 = short := by
  apply BitVec.eq_of_getLsbD_eq
  intro i hi
  rw [BitVec.getLsbD_setWidth, BitVec.getLsbD_signExtend]
  simp [hi, show i < 16 by omega]

theorem setWidth_quick (data : BitVec 3) :
    (if data = 0 then 8 else data.setWidth 32 : Long).setWidth 3 = data := by
  revert data
  decide

/-- An instruction shows the opcode that began it. -/
theorem opcode?_of_begins {opcode : Opcode} {instruction : Instruction}
    (hbegins : Begins opcode instruction) :
    instruction.opcode? = some opcode := by
  cases hbegins with
  | nop => rfl
  | rts => rfl
  | stop value => rfl
  | moveToSr value => rfl
  | tst hlegal hsource =>
      rw [Instruction.opcode?, selector?_of_encodes hsource]
      rfl
  | move hlegal hsource hlegal' hdestination =>
      rw [Instruction.opcode?, selector?_of_encodes hsource,
        selector?_of_encodes hdestination]
      rfl
  | shortBranch kind hshort =>
      rw [opcode?_branch, Operand.shortForm, if_pos rfl,
        setWidth_signExtend_byte]
  | longBranch kind displacement =>
      rw [opcode?_branch, Operand.shortForm, if_neg (by decide)]
  | lea number hlegal hsource =>
      rw [Instruction.opcode?, selector?_of_encodes hsource, Option.map_some,
        setWidth_setWidth_three]
  | andi hvalue hlegal hdestination =>
      rw [Instruction.opcode?, selector?_of_encodes hdestination]
      rfl
  | dbcc condition number displacement =>
      rw [Instruction.opcode?, setWidth_setWidth_three]
  | subq data hlegal hdestination =>
      rw [Instruction.opcode?, selector?_of_encodes hdestination,
        Option.map_some, setWidth_quick]

/-- The operands show the fields of this opcode word.  The low field holds the
one operand of most opcodes and the source of a move; the destination of a move
has its register above its mode.  Branches have no field. -/
def Instruction.ShowsFields (word : Word) : Instruction → Prop
  | .tst target _ | .lea target _ =>
      target.field? = some (word.extractLsb' 0 6)
  | .andi _ destination _ | .subq _ destination _ =>
      destination.field? = some (word.extractLsb' 0 6)
  | .move source destination _ =>
      source.field? = some (word.extractLsb' 0 6) ∧
        destination.field? =
          some (word.extractLsb' 6 3 ++ word.extractLsb' 9 3)
  | .bne target _ | .beq target _ | .bsr target _ => target.field? = none
  | .nop | .rts | .stop _ | .moveToSr _ | .dbcc .. => True

section Words

variable {word : Word} {width : Width} {field : OperandField}
  {target : Operand}

/-- The six lowest bits are a mode above a register. -/
theorem field?_of_lowField (hencodes : Encodes width field target)
    (hmode : word.extractLsb' 3 3 = field.mode)
    (hregister : word.extractLsb' 0 3 = field.register) :
    target.field? = some (word.extractLsb' 0 6) := by
  have hfield : word.extractLsb' 3 3 ++ word.extractLsb' 0 3 =
      word.extractLsb' 0 6 :=
    BitVec.extractLsb'_append_extractLsb'_eq_extractLsb' rfl
  rw [field?_of_encodes hencodes, ← hmode, ← hregister, hfield]

theorem showsFields_branch (kind : BranchKind) (displacement : Word)
    (width : Width) :
    (kind.instruction (.branch displacement) width).ShowsFields word := by
  cases kind <;> rfl

/-- An instruction shows the fields of the word that its opcode has. -/
theorem showsFields_of_begins {opcode : Opcode} {instruction : Instruction}
    (hmatches : opcode.Matches word) (hbegins : Begins opcode instruction) :
    instruction.ShowsFields word := by
  cases hbegins with
  | nop | rts | stop | moveToSr | dbcc => exact trivial
  | tst hlegal hsource =>
      obtain ⟨-, -, hmode, hregister⟩ := hmatches
      exact field?_of_lowField hsource hmode hregister
  | move hlegal hsource hlegal' hdestination =>
      obtain ⟨-, -, hmode, hregister, hmode', hregister'⟩ := hmatches
      refine ⟨field?_of_lowField hsource hmode hregister, ?_⟩
      rw [field?_of_encodes hdestination, hmode', hregister']
  | shortBranch kind hshort => exact showsFields_branch kind _ _
  | longBranch kind displacement => exact showsFields_branch kind _ _
  | lea number hlegal hsource =>
      obtain ⟨-, hmode, hregister, -⟩ := hmatches
      exact field?_of_lowField hsource hmode hregister
  | andi hvalue hlegal hdestination =>
      obtain ⟨-, -, hmode, hregister⟩ := hmatches
      exact field?_of_lowField hdestination hmode hregister
  | subq data hlegal hdestination =>
      obtain ⟨-, -, hmode, hregister, -⟩ := hmatches
      exact field?_of_lowField hdestination hmode hregister

end Words

namespace Bus

/-- The operands of decoded code show the fields of its opcode word, in every
region that code can be decoded in. -/
theorem operands_show_fields {bus : Bus} {pc : Address} {decoded : Decoded}
    (hdecode : (bus.decode pc).result = .ok decoded) :
    ∃ word, bus.wordAt pc = .ok word ∧
      decoded.instruction.ShowsFields word := by
  obtain ⟨word, opcode, hword, hmatches, hbegins, -⟩ :=
    exists_begins_of_decode hdecode
  exact ⟨word, hword, showsFields_of_begins hmatches hbegins⟩

namespace ReencodingWitness

/-- A move of an immediate long to the security latch. -/
def unlocking : Bus :=
  powerOn ⟨#[0x23, 0xFC, 0x53, 0x45, 0x47, 0x41, 0x00, 0xA1, 0x40, 0x00],
    by decide⟩ 0

theorem operands_show_fields_move :
    (unlocking.decode 0).result =
        .ok ⟨.move (.immediate 0x53454741) (.absolute 0xA14000) .long, 10⟩ ∧
      ∃ word, unlocking.wordAt 0 = .ok word ∧
        (Operand.immediate 0x53454741).field? =
          some (word.extractLsb' 0 6) ∧
        (Operand.absolute 0xA14000).field? =
          some (word.extractLsb' 6 3 ++ word.extractLsb' 9 3) := by
  have hdecode : (unlocking.decode 0).result =
      .ok ⟨.move (.immediate 0x53454741) (.absolute 0xA14000) .long, 10⟩ := rfl
  exact ⟨hdecode, operands_show_fields hdecode⟩

end ReencodingWitness

end Bus

end MegaDrive
