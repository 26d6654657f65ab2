/-
The arguments of the command.  A library takes the words of a line apart: it is
told which arguments there are, and says which of them it has found.
-/
import MegaDrive.Numeral.Reader
import MegaDrive.Width

namespace MegaDrive

/-- Steps are counted in 64 bits. -/
abbrev StepCount := BitVec 64

/-- Drop every leading `0` that `mark` follows, together with that mark. -/
def dropMarks (mark : Char) : List Char → List Char
  | '0' :: c :: rest =>
      if c = mark then dropMarks mark rest else '0' :: c :: rest
  | text => text

/-- A 32-bit hexadecimal number.  Any number of marks `0x` may come first, and
then any number of marks `0X`. -/
def readHex (text : List Char) : Except Numeral.ReadError Nat :=
  Numeral.read 16 UInt32.size (dropMarks 'X' (dropMarks 'x' text))

/-- A text that is no such number, and why not. -/
structure InvalidHex where
  text : String
  cause : Numeral.ReadError
deriving DecidableEq, Repr

def InvalidHex.message (invalid : InvalidHex) : String :=
  "invalid hex value " ++ invalid.text ++ ": " ++ invalid.cause.message

/-- The value of the controller block, as given on the command line. -/
def readController (text : String) : Except InvalidHex Long :=
  match readHex text.toList with
  | .ok value => .ok (BitVec.ofNat 32 value)
  | .error cause => .error ⟨text, cause⟩

def readSteps (text : String) : Except Numeral.ReadError StepCount :=
  (Numeral.read 10 UInt64.size text.toList).map (BitVec.ofNat 64)

/-- An argument, as the library is told of it. -/
structure Argument where
  name : String
  help : String
  required : Bool := false
  /-- The place of an argument that stands on the line without its name. -/
  index : Option Nat := none
  short : Option Char := none
  long : Option String := none
  takesValue : Bool := false
  /-- What texts about the argument call its value. -/
  valueName : Option String := none
  /-- The value that the argument has where the line gives none. -/
  fallback : Option String := none
  /-- A value that is not as it should be is refused with a text. -/
  check : String → Except String Unit := fun _ => .ok ()

/-- A command, as the library is told of it. -/
structure Description where
  name : String
  version : String
  about : String
  arguments : List Argument

/-- What the library finds on a line, by the names of the arguments. -/
structure Found where
  present : String → Bool
  value? : String → Option String

/-- The end of a command whose line asks for a text or is not accepted. -/
structure Dismissal where
  status : Nat
  printed : String
  complaint : String
deriving DecidableEq, Repr

namespace Command

def checkController (text : String) : Except String Unit :=
  match readController text with
  | .ok _ => .ok ()
  | .error cause => .error cause.message

def checkSteps (text : String) : Except String Unit :=
  match readSteps text with
  | .ok _ => .ok ()
  | .error cause => .error ("invalid step count: " ++ cause.message)

def standardController : String := "FFFFFFFF"

def description : Description where
  name := "Rust Mega Drive (RMEGA)"
  version := "0.1"
  about := "Sega Genesis 68000 interpreter in Rust"
  arguments := [
    { name := "ROM"
      help := "Cartridge image to boot"
      required := true
      index := some 1 },
    { name := "trace"
      help := "Log every executed instruction"
      short := some 't'
      long := some "trace" },
    { name := "max-steps"
      help := "Stop after N instructions"
      long := some "max-steps"
      takesValue := true
      valueName := some "N"
      check := checkSteps },
    { name := "controller"
      help := "Value returned by controller port reads"
      long := some "controller"
      takesValue := true
      valueName := some "HEX"
      fallback := some standardController
      check := checkController }]

/-- What the description assumes where a line gives no value passes the check
of that value. -/
theorem check_fallback :
    ∀ argument ∈ description.arguments, ∀ text ∈ argument.fallback,
      argument.check text = .ok () := by
  simp only [description, List.forall_mem_cons, Option.mem_def,
    reduceCtorEq, false_implies, implies_true, true_and, Option.some.injEq,
    forall_eq', List.not_mem_nil, and_true]
  rfl

end Command

namespace ArgumentsWitness

example : readHex "0x0x0XfF".toList = .ok 255 := rfl

example : readHex "0X0x1".toList = .error .invalidDigit := rfl

example : readHex "100000000".toList = .error .tooLarge := rfl

example : readHex "0x".toList = .error .empty := rfl

end ArgumentsWitness

end MegaDrive
