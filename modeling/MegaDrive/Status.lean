/-
The status register, and the sixteen conditions that branches and loops read
off its four lowest bits.
-/
import MegaDrive.Width

namespace MegaDrive

/-- Carry, overflow, zero and negative are bits 0 to 3; the upper byte belongs
to the system. -/
abbrev Status := BitVec 16

namespace Status

def carry (status : Status) : Bool := status.getLsbD 0

def overflow (status : Status) : Bool := status.getLsbD 1

def zero (status : Status) : Bool := status.getLsbD 2

def negative (status : Status) : Bool := status.getLsbD 3

/-- The status after a comparison of the low part of `value` with zero: carry
and overflow are cleared, and all above the four flags is kept. -/
def compared (status : Status) (width : Width) (value : Long) : Status :=
  let isZero := width.truncate value == 0
  let flags : BitVec 4 :=
    BitVec.ofBool (width.isNegative value) ++ BitVec.ofBool isZero ++ 0#2
  status.extractLsb' 4 12 ++ flags

/-- The status with its lower byte taken from `value`. -/
def withLowByte (status : Status) (value : Word) : Status :=
  status.extractLsb' 8 8 ++ value.extractLsb' 0 8

end Status

inductive Condition
  | always
  | never
  | higher
  | lowerOrSame
  | carryClear
  | carrySet
  | notEqual
  | equal
  | overflowClear
  | overflowSet
  | plus
  | minus
  | greaterOrEqual
  | lessThan
  | greaterThan
  | lessOrEqual
deriving DecidableEq, Repr

namespace Condition

/-- The number that stands for a condition in an opcode. -/
def code : Condition → BitVec 4
  | .always => 0
  | .never => 1
  | .higher => 2
  | .lowerOrSame => 3
  | .carryClear => 4
  | .carrySet => 5
  | .notEqual => 6
  | .equal => 7
  | .overflowClear => 8
  | .overflowSet => 9
  | .plus => 10
  | .minus => 11
  | .greaterOrEqual => 12
  | .lessThan => 13
  | .greaterThan => 14
  | .lessOrEqual => 15

def ofCode (bits : BitVec 4) : Condition :=
  match bits.toNat with
  | 0 => .always
  | 1 => .never
  | 2 => .higher
  | 3 => .lowerOrSame
  | 4 => .carryClear
  | 5 => .carrySet
  | 6 => .notEqual
  | 7 => .equal
  | 8 => .overflowClear
  | 9 => .overflowSet
  | 10 => .plus
  | 11 => .minus
  | 12 => .greaterOrEqual
  | 13 => .lessThan
  | 14 => .greaterThan
  | _ => .lessOrEqual

def holds (condition : Condition) (status : Status) : Bool :=
  match condition with
  | .always => true
  | .never => false
  | .higher => !status.carry && !status.zero
  | .lowerOrSame => status.carry || status.zero
  | .carryClear => !status.carry
  | .carrySet => status.carry
  | .notEqual => !status.zero
  | .equal => status.zero
  | .overflowClear => !status.overflow
  | .overflowSet => status.overflow
  | .plus => !status.negative
  | .minus => status.negative
  | .greaterOrEqual => status.negative == status.overflow
  | .lessThan => status.negative != status.overflow
  | .greaterThan => !status.zero && status.negative == status.overflow
  | .lessOrEqual => status.zero || status.negative != status.overflow

def mnemonic : Condition → String
  | .always => "t"
  | .never => "f"
  | .higher => "hi"
  | .lowerOrSame => "ls"
  | .carryClear => "cc"
  | .carrySet => "cs"
  | .notEqual => "ne"
  | .equal => "eq"
  | .overflowClear => "vc"
  | .overflowSet => "vs"
  | .plus => "pl"
  | .minus => "mi"
  | .greaterOrEqual => "ge"
  | .lessThan => "lt"
  | .greaterThan => "gt"
  | .lessOrEqual => "le"

theorem ofCode_code (condition : Condition) :
    ofCode condition.code = condition := by
  cases condition <;> rfl

theorem code_ofCode (bits : BitVec 4) : (ofCode bits).code = bits := by
  revert bits
  decide

end Condition

end MegaDrive
