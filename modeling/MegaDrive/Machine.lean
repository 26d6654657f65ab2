/-
The state of the console while it runs.
-/
import MegaDrive.Bus
import MegaDrive.Machine.History
import MegaDrive.Register
import MegaDrive.Status

namespace MegaDrive

/-- The stop instruction halts the processor, and only a reset wakes it. -/
inductive RunState
  | running
  | halted
deriving DecidableEq, Repr

structure Machine where
  bus : Bus
  registers : RegisterFile
  pc : Address
  sr : Status
  /-- The first word of the instruction that was begun last. -/
  ir : Word
  state : RunState
  history : History

namespace Machine

/-- A processor on a bus before its first reset. -/
def blank (bus : Bus) : Machine where
  bus := bus
  registers := .cleared
  pc := 0
  sr := 0
  ir := 0
  state := .running
  history := .empty

/-- The processor out of reset, with its stack pointer and program counter
given; what is on the bus stays. -/
def restarted (machine : Machine) (stackPointer pc : Address) : Machine :=
  { blank machine.bus with
    registers := RegisterFile.cleared.withStackPointer stackPointer
    pc := pc }

end Machine

end MegaDrive
