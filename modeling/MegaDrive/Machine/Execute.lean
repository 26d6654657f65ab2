/-
What each instruction does.  The program counter already stands behind the
instruction when it runs.  Accesses that may fault come before every change of
a register, so that a fault finds nothing to undo.
-/
import MegaDrive.Instruction
import MegaDrive.Machine.Exec

namespace MegaDrive

namespace Operand

/-- The low part of an operand in a register or in memory.  Stepping its
address register is left to the instruction. -/
def load (operand : Operand) (width : Width) : Exec Long := do
  let registers := (← Exec.current).registers
  match operand with
  | .register name => Exec.readRegister name width
  | .absolute address => Exec.readMemory address width
  | .indirect base _ => Exec.readMemory (registers.base base) width
  | .displaced base displacement =>
      Exec.readMemory (displace (registers.base base) displacement) width
  | .immediate _ | .pcDisplaced _ | .branch _ =>
      Exec.fault .unsupportedOperand

/-- Step the address register of an operand that asks for it. -/
def advance (operand : Operand) (width : Width) : Exec Unit :=
  match operand.stepped? with
  | some base => Exec.updateRegisters fun registers =>
      registers.advance base width
  | none => pure ()

/-- The address in an address register as a destination sees it: a source that
steps the register of the same number has stepped it already. -/
def baseAfter (source : Operand) (width : Width) (registers : RegisterFile)
    (base : Byte) : Address :=
  if source.stepped? = some base then
    registers.base base + BitVec.ofNat 32 width.bytes
  else registers.base base

/-- Where a branch leads.  A displacement in the opcode counts from behind it,
and one in a word of its own from that word. -/
def branchAddress (operand : Operand) (width : Width) : Exec Address := do
  let pc := (← Exec.current).pc
  match operand with
  | .branch displacement =>
      return displace (if width = .byte then pc else pc - 2) displacement
  | _ => Exec.fault .unsupportedOperand

end Operand

namespace Instruction

/-- The value that a move takes from its source. -/
def moveValue (source : Operand) (width : Width) : Exec Long :=
  match source with
  | .immediate value => pure (width.truncate value)
  | .pcDisplaced _ | .branch _ => Exec.unsupported
  | _ => source.load width

/-- The memory access of a move's destination.  A register has none. -/
def moveStore (source destination : Operand) (width : Width)
    (value : Long) : Exec Unit := do
  let registers := (← Exec.current).registers
  let seen := source.baseAfter width registers
  match destination with
  | .register _ => pure ()
  | .absolute address => Exec.writeMemory address width value
  | .indirect base _ => Exec.writeMemory (seen base) width value
  | .displaced base displacement =>
      Exec.writeMemory (displace (seen base) displacement) width value
  | .immediate _ | .pcDisplaced _ | .branch _ => Exec.unsupported

/-- The register write of a move's destination, which comes after all steps of
address registers. -/
def moveSettle (destination : Operand) (width : Width) (value : Long) :
    Exec Unit :=
  match destination with
  | .register name => Exec.writeRegister name width value
  | _ => pure ()

def executeMove (source destination : Operand) (width : Width) : Exec Unit := do
  let value ← moveValue source width
  moveStore source destination width value
  source.advance width
  destination.advance width
  moveSettle destination width value

/-- Load an address without reading what stands there. -/
def executeLea (target : Operand) (destination : Register) : Exec Unit := do
  let machine ← Exec.current
  let load := Exec.writeRegister destination .long
  match target with
  | .pcDisplaced displacement => load (displace (machine.pc - 2) displacement)
  | .absolute address => load address
  | .indirect base false => load (machine.registers.base base)
  | .displaced base displacement =>
      load (displace (machine.registers.base base) displacement)
  | _ => Exec.fault .unsupportedOperand

def executeTst (target : Operand) (width : Width) : Exec Unit := do
  let value ← target.load width
  target.advance width
  Exec.setStatus fun status => status.compared width value

/-- The byte form on a register is the one there is. -/
def executeAndi (source destination : Operand) (width : Width) :
    Exec Unit :=
  match source, destination, width with
  | .immediate mask, .register name, .byte => do
      let value ← Exec.readRegister name .byte
      let result := value &&& mask &&& 0xFF
      Exec.writeRegister name .byte result
      Exec.setStatus fun status => status.compared .byte result
  | _, _, _ => Exec.unsupported

/-- The long form on a register is the one there is; flags are kept. -/
def executeSubq (data destination : Operand) (width : Width) : Exec Unit :=
  match data, destination, width with
  | .immediate amount, .register name, .long => do
      let value ← Exec.readRegister name .long
      Exec.writeRegister name .long (value - amount)
  | _, _, _ => Exec.unsupported

/-- The target has to be a branch whether or not the branch is taken. -/
def executeBranch (condition : Condition) (target : Operand)
    (width : Width) : Exec Unit := do
  let destination ← target.branchAddress width
  let machine ← Exec.current
  if condition.holds machine.sr then Exec.jump destination

/-- Push the program counter and branch.  The stack pointer moves once the push
has succeeded. -/
def executeBsr (target : Operand) (width : Width) : Exec Unit := do
  let destination ← target.branchAddress width
  let machine ← Exec.current
  let top := machine.registers.stackPointer - 4
  Exec.writeMemory top .long machine.pc
  Exec.updateRegisters fun registers => registers.withStackPointer top
  Exec.note (.call machine.pc destination)
  Exec.jump destination

/-- Pop the program counter. -/
def executeRts : Exec Unit := do
  let top := (← Exec.current).registers.stackPointer
  let destination ← Exec.readMemory top .long
  Exec.updateRegisters fun registers => registers.withStackPointer (top + 4)
  Exec.jump destination

/-- Count the low word of a register down and branch until it has passed zero.
A loop whose condition holds cannot run. -/
def executeDbcc (condition : Condition) (counter : Register)
    (displacement : Word) : Exec Unit := do
  let machine ← Exec.current
  if condition.holds machine.sr then Exec.unsupported
  else
    let count := machine.registers.read counter .word - 1
    Exec.writeRegister counter .word count
    if Width.word.truncate count = 0xFFFF then pure ()
    else Exec.jump (displace (machine.pc - 2) displacement)

def executeStop (value : Word) : Exec Unit :=
  Exec.update fun machine => { machine with sr := value, state := .halted }

/-- Run one instruction. -/
def execute : Instruction → Exec Unit
  | .nop => pure ()
  | .moveToSr value => Exec.setStatus fun status => status.withLowByte value
  | .tst target width => executeTst target width
  | .bne target width => executeBranch .notEqual target width
  | .beq target width => executeBranch .equal target width
  | .bsr target width => executeBsr target width
  | .lea target destination => executeLea target destination
  | .move source destination width => executeMove source destination width
  | .andi source destination width => executeAndi source destination width
  | .dbcc condition counter displacement =>
      executeDbcc condition counter displacement
  | .rts => executeRts
  | .subq data destination width => executeSubq data destination width
  | .stop value => executeStop value

end Instruction

end MegaDrive
