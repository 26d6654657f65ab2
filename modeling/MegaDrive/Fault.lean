/-
Everything that can stop an access, a decoding or an instruction, and the one
place where the wording of each stands.
-/
import MegaDrive.Numeral
import MegaDrive.Width

namespace MegaDrive

inductive Fault
  /-- A word or long at an odd address of the cartridge or the work RAM. -/
  | misaligned (address : Address)
  /-- An access that runs past the end of its storage. -/
  | pastEnd (address : Address)
  /-- A read where nothing can be read. -/
  | unreadable (address : Address)
  /-- A write where nothing of that width can be written. -/
  | unwritable (address : Address) (width : Width)
  | imageTooLarge (length : Nat)
  | unsupportedInstruction (opcode : Word)
  | unsupportedSource (mode register : Byte)
  | unsupportedDestination (mode register : Byte)
  /-- An operand that the instruction cannot work on. -/
  | unsupportedOperand
  | invalidSize (bits : Byte)
deriving DecidableEq, Repr

/-- An address as messages show it: upper case, six digits or more. -/
def Address.text (address : Address) : String :=
  "0x" ++ Numeral.upperHex 6 address.toNat

def Fault.message : Fault → String
  | .misaligned address =>
      "address error: misaligned access at " ++ address.text
  | .pastEnd address =>
      "bus error: access past end of storage at " ++ address.text
  | .unreadable address => "unsupported address " ++ address.text
  | .unwritable address width =>
      "invalid " ++ width.name ++ " write to " ++ address.text
  | .imageTooLarge length =>
      "ROM image too large: " ++ Numeral.decimal length ++ " bytes"
  | .unsupportedInstruction opcode =>
      "unsupported instruction 0x" ++ Numeral.upperHex 4 opcode.toNat
  | .unsupportedSource mode register =>
      "unsupported source addressing mode " ++
        Numeral.binary 3 mode.toNat ++ "/" ++ Numeral.binary 3 register.toNat
  | .unsupportedDestination mode register =>
      "unsupported destination addressing mode " ++
        Numeral.binary 3 mode.toNat ++ "/" ++ Numeral.binary 3 register.toNat
  | .unsupportedOperand => "unsupported operand for this instruction"
  | .invalidSize bits =>
      "invalid size encoding " ++ Numeral.binary 2 bits.toNat

end MegaDrive
