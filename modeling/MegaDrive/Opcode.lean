/-
The first word of an instruction: which instruction it begins, and the fields
it holds.  The rest of the instruction follows in extension words.
-/
import MegaDrive.Fault
import MegaDrive.Status

namespace MegaDrive

/-- The usual two bits for a width: 0 byte, 1 word, 2 long. -/
def Width.ofSizeField (bits : BitVec 2) : Except Fault Width :=
  match bits.toNat with
  | 0 => .ok .byte
  | 1 => .ok .word
  | 2 => .ok .long
  | _ => .error (.invalidSize (bits.setWidth 8))

/-- The two bits for a width in a move: 1 byte, 3 word, 2 long. -/
def Width.ofMoveField (bits : BitVec 2) : Except Fault Width :=
  match bits.toNat with
  | 1 => .ok .byte
  | 3 => .ok .word
  | 2 => .ok .long
  | _ => .error (.invalidSize (bits.setWidth 8))

/-- The bits that select an operand: a mode and a register, where mode 7 takes
the register bits as a mode of its own. -/
structure OperandField where
  mode : BitVec 3
  register : BitVec 3
deriving DecidableEq, Repr

/-- The ways in which a field selects an operand. -/
inductive AddressingMode
  | dataRegister
  | addressRegister
  | indirect
  | postIncrement
  | displaced
  | absoluteLong
  | pcDisplaced
  | immediate
deriving DecidableEq, Repr

/-- The addressing mode of a field, where it is one that is known. -/
def OperandField.addressing? (field : OperandField) : Option AddressingMode :=
  match field.mode.toNat, field.register.toNat with
  | 0, _ => some .dataRegister
  | 1, _ => some .addressRegister
  | 2, _ => some .indirect
  | 3, _ => some .postIncrement
  | 5, _ => some .displaced
  | 7, 1 => some .absoluteLong
  | 7, 2 => some .pcDisplaced
  | 7, 4 => some .immediate
  | _, _ => none

/-- The branches that share one layout. -/
inductive BranchKind
  | notEqual
  | equal
  | subroutine
deriving DecidableEq, Repr

def BranchKind.ofCode? (bits : BitVec 4) : Option BranchKind :=
  match bits.toNat with
  | 6 => some .notEqual
  | 7 => some .equal
  | 1 => some .subroutine
  | _ => none

inductive Opcode
  | nop
  | rts
  | stop
  | moveToSr
  | tst (width : Width) (source : OperandField)
  | move (width : Width) (source destination : OperandField)
  /-- The displacement is `short`, or the next word when that is zero. -/
  | branch (kind : BranchKind) (short : Byte)
  | lea (source : OperandField) (destination : BitVec 3)
  | andi (width : Width) (destination : OperandField)
  | dbcc (condition : Condition) (counter : BitVec 3)
  /-- The subtracted number is `data`, or eight when that is zero. -/
  | subq (data : BitVec 3) (width : Width) (destination : OperandField)
deriving DecidableEq, Repr

namespace Opcode

/-- The operand field in the six lowest bits. -/
def lowField (word : Word) : OperandField :=
  ⟨word.extractLsb' 3 3, word.extractLsb' 0 3⟩

/-- The operand field above it, in which the register comes first. -/
def highField (word : Word) : OperandField :=
  ⟨word.extractLsb' 6 3, word.extractLsb' 9 3⟩

/-- Recognise a word.  Four instructions have a word of their own; the classes
of the others are tried in turn. -/
def ofWord (word : Word) : Except Fault Opcode :=
  if word = 0x4E71 then .ok .nop
  else if word = 0x4E72 then .ok .stop
  else if word = 0x46FC then .ok .moveToSr
  else if word = 0x4E75 then .ok .rts
  else if word.extractLsb' 8 8 = 0x4A#8 then do
    let width ← Width.ofSizeField (word.extractLsb' 6 2)
    return .tst width (lowField word)
  else if word.extractLsb' 14 2 = 0#2 ∧ word.extractLsb' 12 2 ≠ 0#2 then do
    let width ← Width.ofMoveField (word.extractLsb' 12 2)
    return .move width (lowField word) (highField word)
  else if word.extractLsb' 12 4 = 6#4 then
    match BranchKind.ofCode? (word.extractLsb' 8 4) with
    | some kind => .ok (.branch kind (word.extractLsb' 0 8))
    | none => .error (.unsupportedInstruction word)
  else if word.extractLsb' 12 4 = 4#4 ∧ word.extractLsb' 6 3 = 7#3 then
    .ok (.lea (lowField word) (word.extractLsb' 9 3))
  else if word.extractLsb' 8 8 = 2#8 then do
    let width ← Width.ofSizeField (word.extractLsb' 6 2)
    return .andi width (lowField word)
  else if word.extractLsb' 12 4 = 5#4 ∧ word.extractLsb' 3 5 = 25#5 then
    .ok (.dbcc (Condition.ofCode (word.extractLsb' 8 4))
      (word.extractLsb' 0 3))
  else if word.extractLsb' 12 4 = 5#4 ∧ word.getLsbD 8 = true ∧
      word.extractLsb' 6 2 ≠ 3#2 then do
    let width ← Width.ofSizeField (word.extractLsb' 6 2)
    return .subq (word.extractLsb' 9 3) width (lowField word)
  else .error (.unsupportedInstruction word)

end Opcode

namespace OpcodeWitness

open Opcode

example : ofWord 0x4E71 = .ok .nop := rfl

example : ofWord 0x4A50 = .ok (.tst .word ⟨2, 0⟩) := rfl

example : ofWord 0x4AC0 = .error (.invalidSize 3) := rfl

example : ofWord 0x20FC = .ok (.move .long ⟨7, 4⟩ ⟨3, 0⟩) := rfl

example : ofWord 0x6106 = .ok (.branch .subroutine 6) := rfl

example : ofWord 0x6006 = .error (.unsupportedInstruction 0x6006) := rfl

example : ofWord 0x51C8 = .ok (.dbcc .never 0) := rfl

example : ofWord 0x5181 = .ok (.subq 0 .long ⟨0, 1⟩) := rfl

end OpcodeWitness

end MegaDrive
