/-
What a session reports, as data, with the level and the wording of each report.
-/
import MegaDrive.Command.Arguments
import MegaDrive.Machine.Run

namespace MegaDrive

inductive Report
  | noPath
  | invalidController (cause : InvalidHex)
  /-- The image cannot be read, in the words of the system. -/
  | unreadable (path cause : String)
  | loaded (path : String) (size : Nat)
  | startFailed (cause : Fault)
  | started (pc stackPointer : Address)
  /-- What the machine noted while it worked. -/
  | noted (event : Event)
  | executed (pc : Address) (instruction : Instruction)
  | halted
  | limitReached
  | faulted (cause : Fault) (pc : Address) (opcode : Word)
  /-- An instruction that ran before a fault. -/
  | ranBefore (pc : Address)
  | summary (pc : Address) (status : Status) (steps : StepCount)
  | registers (number : Nat) (data address : Long)
deriving DecidableEq, Repr

namespace Report

def level : Report → Level
  | .noPath | .invalidController _ | .unreadable .. | .startFailed _
  | .faulted .. | .ranBefore _ => .error
  | .noted event => event.level
  | .executed .. => .trace
  | .loaded .. | .started .. | .halted | .limitReached | .summary ..
  | .registers .. => .info

def message : Report → String
  | .noPath => "No ROM specified"
  | .invalidController cause => cause.message
  | .unreadable path cause => "Unable to read " ++ path ++ ": " ++ cause
  | .loaded path size =>
      "Loaded " ++ path ++ " (" ++ Numeral.decimal size ++ " bytes)"
  | .startFailed cause => "Unable to start: " ++ cause.message
  | .started pc stackPointer =>
      "Reset: pc=" ++ Numeral.upperHex 8 pc.toNat ++
        " sp=" ++ Numeral.upperHex 8 stackPointer.toNat
  | .noted event => event.message
  | .executed pc instruction =>
      Numeral.upperHex 6 pc.toNat ++ "  " ++ instruction.text
  | .halted => "CPU stopped"
  | .limitReached => "Step limit reached"
  | .faulted cause pc opcode =>
      cause.message ++ " at pc " ++ Numeral.upperHex 6 pc.toNat ++
        " (opcode " ++ Numeral.upperHex 4 opcode.toNat ++ ")"
  | .ranBefore pc => "  after " ++ Numeral.upperHex 6 pc.toNat
  | .summary pc status steps =>
      "pc=" ++ Numeral.upperHex 8 pc.toNat ++
        " sr=" ++ Numeral.upperHex 4 status.toNat ++
        " steps=" ++ Numeral.decimal steps.toNat
  | .registers number data address =>
      "d" ++ Numeral.decimal number ++ "=" ++ Numeral.upperHex 8 data.toNat ++
        " a" ++ Numeral.decimal number ++ "=" ++
        Numeral.upperHex 8 address.toNat

end Report

/-- A line of the log. -/
structure Record where
  level : Level
  message : String
deriving DecidableEq, Repr

def Report.record (report : Report) : Record :=
  ⟨report.level, report.message⟩

end MegaDrive
