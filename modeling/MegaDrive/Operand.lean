/-
Where operands live: their assembly text and the six bits that select them in
an opcode.
-/
import MegaDrive.Register

namespace MegaDrive

inductive Operand
  | absolute (address : Address)
  | immediate (value : Long)
  | register (name : Register)
  /-- The storage that an address register points at. -/
  | indirect (base : Byte) (postIncrement : Bool)
  | displaced (base : Byte) (displacement : Word)
  /-- Storage at a distance from the displacement's own place in the code. -/
  | pcDisplaced (displacement : Word)
  /-- Code at a distance from the word after the opcode. -/
  | branch (displacement : Word)
deriving DecidableEq, Repr

namespace Operand

/-- Branches are shown relative to their opcode, which stands two bytes before
the word that the displacement counts from. -/
def branchText (displacement : Word) : String :=
  "*" ++ Numeral.explicitlySigned (displacement.toInt + 2)

def text : Operand → String
  | .absolute address => "$" ++ Numeral.hex 8 address.toNat
  | .immediate value => "#$" ++ Numeral.hex 1 value.toNat
  | .register name => name.text
  | .indirect base postIncrement =>
      "(" ++ (Register.address base).text ++ ")" ++
        (if postIncrement then "+" else "")
  | .displaced base displacement =>
      Numeral.signed displacement.toInt ++
        "(" ++ (Register.address base).text ++ ")"
  | .pcDisplaced displacement => Numeral.signed displacement.toInt ++ "(pc)"
  | .branch displacement => branchText displacement

/-- The three mode bits and three register bits of the operand.  A branch has
none: its displacement stands outside that field. -/
def field? : Operand → Option (BitVec 6)
  | .register (.data number) => some (0b000#3 ++ number.extractLsb' 0 3)
  | .register (.address number) => some (0b001#3 ++ number.extractLsb' 0 3)
  | .indirect base false => some (0b010#3 ++ base.extractLsb' 0 3)
  | .indirect base true => some (0b011#3 ++ base.extractLsb' 0 3)
  | .displaced base _ => some (0b101#3 ++ base.extractLsb' 0 3)
  | .absolute _ => some 0b111001#6
  | .pcDisplaced _ => some 0b111010#6
  | .immediate _ => some 0b111100#6
  | .branch _ => none

/-- The number of the address register that the operand steps, if any. -/
def stepped? : Operand → Option Byte
  | .indirect base true => some base
  | _ => none

end Operand

end MegaDrive
