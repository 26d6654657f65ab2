/-
Reset, and the cycle that fetches, decodes and executes one instruction.
-/
import MegaDrive.Decode
import MegaDrive.Machine.Execute

namespace MegaDrive

namespace Machine

/-- Start over from the two addresses at the beginning of the cartridge.  The
machine stays as it is when one of them cannot be read. -/
def reset : Exec Unit := do
  let stackPointer ← Exec.ask Bus.initialStackPointer
  let pc ← Exec.ask Bus.initialPc
  Exec.update fun machine => machine.restarted stackPointer pc

/-- A processor that has just come out of reset on this bus. -/
def ofBus (bus : Bus) : Reply Machine :=
  let outcome := reset (blank bus)
  ⟨outcome.result.map fun _ => outcome.machine, outcome.events⟩

/-- The instruction at the program counter, without any change. -/
def decode : Exec Decoded := do
  let machine ← Exec.current
  Exec.ask fun bus => bus.decode machine.pc

/-- Run the instruction at the program counter.  A fault leaves the counter on
that instruction, and only a success enters the history.  Whether the machine
is halted makes no difference. -/
def step : Exec Instruction := do
  let start := (← Exec.current).pc
  let word ← Exec.readMemory start .word
  Exec.update fun machine => { machine with ir := word.setWidth 16 }
  let decoded ← decode
  Exec.jump (start + decoded.length)
  Exec.repairing decoded.instruction.execute fun machine =>
    { machine with pc := start }
  Exec.update fun machine =>
    { machine with history := machine.history.push start }
  return decoded.instruction

end Machine

end MegaDrive
