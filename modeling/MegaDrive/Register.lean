/-
The two banks of eight registers, and access to them at each width.
-/
import MegaDrive.Numeral
import MegaDrive.Width

namespace MegaDrive

/-- A register by bank and number.  Any byte may stand as the number; its low
three bits select the register. -/
inductive Register
  | data (number : Byte)
  | address (number : Byte)
deriving DecidableEq, Repr

namespace Register

/-- The address register with number 7 is the stack pointer. -/
def stackPointer : Register := .address 7

def text : Register → String
  | .data number => "d" ++ Numeral.decimal number.toNat
  | .address number =>
      if number = 7 then "sp" else "a" ++ Numeral.decimal number.toNat

/-- The place in its bank that a number selects. -/
def slot (number : Byte) : Fin 8 :=
  ⟨number.toNat % 8, Nat.mod_lt _ (by decide)⟩

/-- Two names of one register. -/
def Same : Register → Register → Prop
  | .data number, .data other => slot number = slot other
  | .address number, .address other => slot number = slot other
  | .data _, .address _ | .address _, .data _ => False

instance : DecidableRel Same
  | .data number, .data other =>
      inferInstanceAs (Decidable (slot number = slot other))
  | .address number, .address other =>
      inferInstanceAs (Decidable (slot number = slot other))
  | .data _, .address _ => inferInstanceAs (Decidable False)
  | .address _, .data _ => inferInstanceAs (Decidable False)

end Register

structure RegisterFile where
  data : Vector Long 8
  address : Vector Long 8
deriving DecidableEq, Repr

namespace RegisterFile

def cleared : RegisterFile :=
  ⟨Vector.replicate 8 0, Vector.replicate 8 0⟩

/-- All 32 bits of a register. -/
def get (file : RegisterFile) : Register → Long
  | .data number => file.data[Register.slot number]
  | .address number => file.address[Register.slot number]

def set (file : RegisterFile) (register : Register) (value : Long) :
    RegisterFile :=
  match register with
  | .data number =>
      { file with data := file.data.set (Register.slot number) value }
  | .address number =>
      { file with address := file.address.set (Register.slot number) value }

/-- The low part of a register. -/
def read (file : RegisterFile) (register : Register) (width : Width) : Long :=
  width.truncate (file.get register)

/-- Replace the low part of a register and keep what stands above it. -/
def write (file : RegisterFile) (register : Register) (width : Width)
    (value : Long) : RegisterFile :=
  file.set register (width.merge (file.get register) value)

/-- The address that the address register of this number holds. -/
def base (file : RegisterFile) (number : Byte) : Address :=
  file.get (.address number)

/-- Step an address register past an operand. -/
def advance (file : RegisterFile) (number : Byte) (width : Width) :
    RegisterFile :=
  file.set (.address number)
    (file.base number + BitVec.ofNat 32 width.bytes)

def stackPointer (file : RegisterFile) : Address :=
  file.get Register.stackPointer

def withStackPointer (file : RegisterFile) (address : Address) :
    RegisterFile :=
  file.set Register.stackPointer address

theorem get_set_self (file : RegisterFile) (register : Register)
    (value : Long) : (file.set register value).get register = value := by
  cases register <;> simp [get, set]

/-- A register that is set keeps its value under every name, and the others
keep theirs. -/
theorem get_set (file : RegisterFile) (register other : Register)
    (value : Long) :
    (file.set register value).get other =
      if register.Same other then value else file.get other := by
  cases register with
  | data number =>
      cases other with
      | data other =>
          simp only [get, set, Register.Same, Fin.ext_iff]
          exact Vector.getElem_set _ _
      | address other => simp [get, set, Register.Same]
  | address number =>
      cases other with
      | data other => simp [get, set, Register.Same]
      | address other =>
          simp only [get, set, Register.Same, Fin.ext_iff]
          exact Vector.getElem_set _ _

theorem get_of_same (file : RegisterFile) {register other : Register}
    (hsame : register.Same other) : file.get register = file.get other := by
  cases register <;> cases other <;> simp only [Register.Same] at hsame
  all_goals simp only [get, hsame]

theorem get_write (file : RegisterFile) (register other : Register)
    (width : Width) (value : Long) :
    (file.write register width value).get other =
      if register.Same other then width.merge (file.get other) value
      else file.get other := by
  rw [write, get_set]
  by_cases hsame : register.Same other
  · rw [if_pos hsame, if_pos hsame, file.get_of_same hsame]
  · rw [if_neg hsame, if_neg hsame]

theorem get_advance (file : RegisterFile) (number : Byte) (width : Width)
    (register : Register) :
    (file.advance number width).get register =
      file.get register +
        if (Register.address number).Same register then
          BitVec.ofNat 32 width.bytes
        else 0 := by
  rw [advance, get_set]
  by_cases hsame : (Register.address number).Same register
  · rw [if_pos hsame, if_pos hsame, base, file.get_of_same hsame]
  · rw [if_neg hsame, if_neg hsame]
    exact (BitVec.add_zero _).symm

theorem set_get_self (file : RegisterFile) (register : Register) :
    file.set register (file.get register) = file := by
  cases register <;> simp [get, set]

end RegisterFile

end MegaDrive
