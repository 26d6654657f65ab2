/-
A session of the command: an image is loaded and booted, runs to its end, and
the state it ends in is reported.
-/
import MegaDrive.Command.Report

namespace MegaDrive

/-- What a session is started with. -/
structure Arguments where
  path : String
  trace : Bool
  maxSteps : Option StepCount
  controller : Long
deriving DecidableEq, Repr

/-- The arguments among what a line has been found to give, or the report that
ends the command.  A number of steps that cannot be read limits nothing. -/
def Arguments.ofFound (found : Found) : Except Report Arguments :=
  match found.value? "ROM" with
  | none => .error .noPath
  | some path =>
      let text := (found.value? "controller").getD Command.standardController
      match readController text with
      | .error cause => .error (.invalidController cause)
      | .ok controller =>
          .ok {
            path := path
            trace := found.present "trace"
            maxSteps := (found.value? "max-steps").bind fun text =>
              (readSteps text).toOption
            controller := controller
          }

namespace Session

/-- The reports before the first step, and the machine that takes it.  There is
none when the image cannot be read or does not boot. -/
structure Opening where
  reports : List Report
  machine : Option Machine

def boot (image : Array Byte) (controller : Long) : Reply Machine :=
  match Bus.ofImage image controller with
  | .ok bus => Machine.ofBus bus
  | .error cause => .quiet (.error cause)

def opening (arguments : Arguments)
    (file : Except String (Array Byte)) : Opening :=
  match file with
  | .error cause => ⟨[.unreadable arguments.path cause], none⟩
  | .ok image =>
      let reply := boot image arguments.controller
      let before := .loaded arguments.path image.size :: reply.events.map .noted
      match reply.result with
      | .error cause => ⟨before ++ [.startFailed cause], none⟩
      | .ok machine =>
          ⟨before ++ [.started machine.pc machine.registers.stackPointer],
            some machine⟩

/-- Every step reports what it noted, and itself when the session is traced. -/
def stepReports (trace : Bool) (step : Executed) : List Report :=
  step.events.map .noted ++
    if trace then [.executed step.pc step.instruction] else []

def runReports (trace : Bool) (run : Run) : List Report :=
  run.executed.flatMap (stepReports trace) ++ run.lastEvents.map .noted

/-- The pairs of a data and an address register with one number. -/
def registerReports (registers : RegisterFile) : List Report :=
  (List.finRange 8).map fun i =>
    .registers i.val registers.data[i] registers.address[i]

/-- What is said at the end, after `steps` successful steps. -/
def closing (ending : Ending) (machine : Machine) (steps : StepCount) :
    List Report :=
  let why : List Report :=
    match ending with
    | .halted => [.halted]
    | .limit => [.limitReached]
    | .fault cause =>
        .faulted cause machine.pc machine.ir ::
          machine.history.recent.map .ranBefore
  why ++ .summary machine.pc machine.sr steps ::
    registerReports machine.registers

/-- Faults are failures; to halt or to reach the limit is a success. -/
def exitStatus : Ending → Nat
  | .halted | .limit => 0
  | .fault _ => 1

/-- The exit status and all reports of a session.  Without a limit of its own
it has to end within `bound` steps, as many as can be counted. -/
def complete? (bound : StepCount) (arguments : Arguments)
    (file : Except String (Array Byte)) : Option (Nat × List Report) :=
  let opened := opening arguments file
  match opened.machine with
  | none => some (1, opened.reports)
  | some machine =>
      let run := machine.run (arguments.maxSteps.getD bound).toNat
      if run.ending = .limit ∧ arguments.maxSteps = none then none
      else
        some (exitStatus run.ending,
          opened.reports ++ runReports arguments.trace run ++
            closing run.ending run.machine
              (BitVec.ofNat 64 run.executed.length))

end Session

end MegaDrive
