/-
Steps in a row, until the machine halts, faults or has done as many as it was
allowed.
-/
import MegaDrive.Machine.Step

namespace MegaDrive

inductive Ending
  | halted
  | limit
  | fault (cause : Fault)
deriving DecidableEq, Repr

/-- A step that succeeded: where it began, what ran, and what it noted. -/
structure Executed where
  pc : Address
  instruction : Instruction
  events : List Event

structure Run where
  machine : Machine
  /-- The steps that succeeded, in order. -/
  executed : List Executed
  ending : Ending
  /-- What the step that faulted noted before it did. -/
  lastEvents : List Event

namespace Machine

/-- At most `limit` steps, after those in `done`, the latest of which comes
first.  A halted machine takes none, not even when none is allowed. -/
def runAfter (done : List Executed) : Nat → Machine → Run
  | limit, machine =>
      if machine.state = .halted then ⟨machine, done.reverse, .halted, []⟩
      else
        match limit with
        | 0 => ⟨machine, done.reverse, .limit, []⟩
        | limit + 1 =>
            let outcome := step machine
            match outcome.result with
            | .ok instruction =>
                runAfter (⟨machine.pc, instruction, outcome.events⟩ :: done)
                  limit outcome.machine
            | .error cause =>
                ⟨outcome.machine, done.reverse, .fault cause, outcome.events⟩

def run (limit : Nat) (machine : Machine) : Run :=
  runAfter [] limit machine

end Machine

end MegaDrive
