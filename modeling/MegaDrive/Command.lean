/-
The command as a whole: from its words, its environment and the files it may
read to all that it writes.
-/
import MegaDrive.Command.Session

namespace MegaDrive

/-- What the command leaves to others. -/
structure Library where
  /-- Take a line apart, the name of the program left out. -/
  parse : Description → List String → Except Dismissal Found
  /-- Does the log show a report?  It goes by its setting in the environment,
  by what is assumed without one, and by a level that the program asks for.  It
  may look at all of the report, also at where it comes from. -/
  shows : Option String → String → Option Level → Report → Bool

namespace Command

/-- What the log goes by when its setting is missing. -/
def standardSetting : String := "info"

structure Output where
  status : Nat
  printed : String
  complaint : String
  log : List Record
deriving DecidableEq, Repr

/-- The exit status and all reports of a command whose line is accepted. -/
def session? (bound : StepCount) (found : Found)
    (readFile : String → Except String (Array Byte)) :
    Option (Nat × List Report) :=
  match Arguments.ofFound found with
  | .error report => some (1, [report])
  | .ok arguments =>
      Session.complete? bound arguments (readFile arguments.path)

/-- A command that traces asks the log for every level. -/
def askedLevel (found : Found) : Option Level :=
  if found.present "trace" then some .trace else none

/-- All output of the command, when its session ends within `bound` steps. -/
def output? (library : Library) (bound : StepCount) (line : List String)
    (setting : Option String)
    (readFile : String → Except String (Array Byte)) : Option Output :=
  match library.parse description line with
  | .error dismissal =>
      some ⟨dismissal.status, dismissal.printed, dismissal.complaint, []⟩
  | .ok found =>
      let shown := library.shows setting standardSetting (askedLevel found)
      (session? bound found readFile).map fun (status, reports) =>
        ⟨status, "", "", (reports.filter shown).map Report.record⟩

end Command

end MegaDrive
