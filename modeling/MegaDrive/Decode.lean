/-
From the words at an address to the instruction they hold.
-/
import MegaDrive.Fetch
import MegaDrive.Instruction
import MegaDrive.Opcode

namespace MegaDrive

/-- The side of an instruction on which an operand stands.  A destination is
never relative to the program and never immediate. -/
inductive Role
  | source
  | destination
deriving DecidableEq, Repr

def Role.unsupported (role : Role) (field : OperandField) : Fault :=
  let mode := field.mode.setWidth 8
  let register := field.register.setWidth 8
  match role with
  | .source => .unsupportedSource mode register
  | .destination => .unsupportedDestination mode register

namespace Fetch

/-- The operand that a field selects, with the extension words it takes. -/
def operand (role : Role) (width : Width) (field : OperandField) :
    Fetch Operand :=
  let number := field.register.setWidth 8
  match field.addressing?, role with
  | some .dataRegister, _ => pure (.register (.data number))
  | some .addressRegister, _ => pure (.register (.address number))
  | some .indirect, _ => pure (.indirect number false)
  | some .postIncrement, _ => pure (.indirect number true)
  | some .displaced, _ => do
      let displacement ← word
      return .displaced number displacement
  | some .absoluteLong, _ => do
      let address ← long
      return .absolute address
  | some .pcDisplaced, .source => do
      let displacement ← word
      return .pcDisplaced displacement
  | some .immediate, .source => do
      let value ← immediate width
      return .immediate value
  | _, _ => fault (role.unsupported field)

/-- The target of a branch and the width that says where it was written. -/
def branchTarget (short : Byte) : Fetch (Operand × Width) :=
  if short = 0 then do
    let displacement ← word
    return (.branch displacement, .word)
  else pure (.branch (short.signExtend 16), .byte)

/-- The instruction that an opcode begins.  The extension words of a source
come before those of its destination. -/
def instruction : Opcode → Fetch Instruction
  | .nop => pure .nop
  | .rts => pure .rts
  | .stop => do
      let value ← word
      return .stop value
  | .moveToSr => do
      let value ← word
      return .moveToSr value
  | .tst width source => do
      let target ← operand .source width source
      return .tst target width
  | .move width source destination => do
      let origin ← operand .source width source
      let target ← operand .destination width destination
      return .move origin target width
  | .branch kind short => do
      let (target, width) ← branchTarget short
      match kind with
      | .notEqual => return .bne target width
      | .equal => return .beq target width
      | .subroutine => return .bsr target width
  | .lea source destination => do
      let target ← operand .source .long source
      return .lea target (.address (destination.setWidth 8))
  | .andi width destination => do
      let value ← immediate width
      let target ← operand .destination width destination
      return .andi (.immediate value) target width
  | .dbcc condition counter => do
      let displacement ← word
      return .dbcc condition (.data (counter.setWidth 8)) displacement
  | .subq data width destination => do
      let target ← operand .destination width destination
      let amount : Long := if data = 0 then 8 else data.setWidth 32
      return .subq (.immediate amount) target width

end Fetch

/-- An instruction and the number of bytes it takes, extension words included.
-/
structure Decoded where
  instruction : Instruction
  length : Long
deriving DecidableEq, Repr

/-- Decode at an address.  Nothing but the event log tells of it. -/
def Bus.decode (bus : Bus) (pc : Address) : Reply Decoded := do
  let fetched : Fetch Instruction := do
    let word ← Fetch.word
    let opcode ← Fetch.ofExcept (Opcode.ofWord word)
    Fetch.instruction opcode
  let (instruction, next) ← fetched bus pc
  return ⟨instruction, next - pc⟩

end MegaDrive
