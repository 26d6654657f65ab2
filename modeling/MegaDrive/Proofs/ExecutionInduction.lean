/-
Activities of the machine are put together from accesses to memory, changes that
leave the bus alone, calls, and faults.  Main statement: what holds of these and
is kept when one activity follows another holds of every instruction, of a step
and of a reset.
-/
import MegaDrive.Machine.Step

namespace MegaDrive

namespace Exec

/-- A property that holds of the parts of activities, and of two activities in a
row when it holds of each. -/
structure Composes (P : ∀ {α : Type}, Exec α → Prop) : Prop where
  pure : ∀ {α : Type} (value : α), P (Pure.pure value : Exec α)
  fault : ∀ {α : Type} (cause : Fault), P (fault cause : Exec α)
  current : P current
  readMemory : ∀ address width, P (readMemory address width)
  writeMemory : ∀ address width value, P (writeMemory address width value)
  /-- Whatever is changed, it is not the bus. -/
  update : ∀ change : Machine → Machine,
    (∀ machine, (change machine).bus = machine.bus) → P (update change)
  call : ∀ origin destination, P (note (.call origin destination))
  decode : P Machine.decode
  repairing : ∀ {α : Type} {body : Exec α} {repair : Machine → Machine},
    P body → (∀ machine, (repair machine).bus = machine.bus) →
      P (repairing body repair)
  bind : ∀ {α β : Type} {first : Exec α} {next : α → Exec β},
    P first → (∀ value, P (next value)) → P (first >>= next)

namespace Composes

variable {P : ∀ {α : Type}, Exec α → Prop} (composes : Composes P)

include composes

theorem unsupported {α : Type} : P (unsupported : Exec α) :=
  composes.bind composes.current fun machine =>
    composes.fault (.unsupportedInstruction machine.ir)

theorem readRegister (register : Register) (width : Width) :
    P (readRegister register width) :=
  composes.bind composes.current fun machine =>
    composes.pure (machine.registers.read register width)

theorem updateRegisters (change : RegisterFile → RegisterFile) :
    P (updateRegisters change) :=
  composes.update _ fun _ => rfl

theorem writeRegister (register : Register) (width : Width) (value : Long) :
    P (writeRegister register width value) :=
  composes.updateRegisters _

theorem jump (destination : Address) : P (jump destination) :=
  composes.update _ fun _ => rfl

theorem setStatus (change : Status → Status) : P (setStatus change) :=
  composes.update _ fun _ => rfl

theorem load (operand : Operand) (width : Width) : P (operand.load width) := by
  refine composes.bind composes.current fun machine => ?_
  cases operand with
  | register name => exact composes.readRegister name width
  | absolute address => exact composes.readMemory address width
  | indirect base postIncrement => exact composes.readMemory _ width
  | displaced base displacement => exact composes.readMemory _ width
  | immediate | pcDisplaced | branch => exact composes.fault _

theorem advance (operand : Operand) (width : Width) :
    P (operand.advance width) := by
  unfold Operand.advance
  split
  · exact composes.updateRegisters _
  · exact composes.pure ()

theorem branchAddress (operand : Operand) (width : Width) :
    P (operand.branchAddress width) := by
  refine composes.bind composes.current fun machine => ?_
  cases operand with
  | branch displacement => exact composes.pure _
  | absolute | immediate | register | indirect | displaced | pcDisplaced =>
      exact composes.fault _

theorem moveValue (source : Operand) (width : Width) :
    P (Instruction.moveValue source width) := by
  unfold Instruction.moveValue
  split
  case h_1 => exact composes.pure _
  case h_2 | h_3 => exact composes.unsupported
  case h_4 => exact composes.load source width

theorem moveStore (source destination : Operand) (width : Width)
    (value : Long) :
    P (Instruction.moveStore source destination width value) := by
  refine composes.bind composes.current fun machine => ?_
  cases destination with
  | register name => exact composes.pure ()
  | absolute address => exact composes.writeMemory address width value
  | indirect base postIncrement => exact composes.writeMemory _ width value
  | displaced base displacement => exact composes.writeMemory _ width value
  | immediate | pcDisplaced | branch => exact composes.unsupported

theorem moveSettle (destination : Operand) (width : Width) (value : Long) :
    P (Instruction.moveSettle destination width value) := by
  unfold Instruction.moveSettle
  split
  · exact composes.writeRegister _ width value
  · exact composes.pure ()

theorem executeMove (source destination : Operand) (width : Width) :
    P (Instruction.executeMove source destination width) := by
  refine composes.bind (composes.moveValue source width) fun value => ?_
  refine composes.bind (composes.moveStore source destination width value)
    fun _ => ?_
  refine composes.bind (composes.advance source width) fun _ => ?_
  refine composes.bind (composes.advance destination width) fun _ => ?_
  exact composes.moveSettle destination width value

theorem executeLea (target : Operand) (destination : Register) :
    P (Instruction.executeLea target destination) := by
  refine composes.bind composes.current fun machine => ?_
  dsimp only
  split
  case h_5 => exact composes.fault _
  all_goals exact composes.writeRegister destination .long _

theorem executeTst (target : Operand) (width : Width) :
    P (Instruction.executeTst target width) := by
  refine composes.bind (composes.load target width) fun value => ?_
  refine composes.bind (composes.advance target width) fun _ => ?_
  exact composes.setStatus _

theorem executeAndi (source destination : Operand) (width : Width) :
    P (Instruction.executeAndi source destination width) := by
  unfold Instruction.executeAndi
  split
  case h_1 mask name =>
    refine composes.bind (composes.readRegister name .byte) fun value => ?_
    refine composes.bind (composes.writeRegister name .byte _) fun _ => ?_
    exact composes.setStatus _
  case h_2 => exact composes.unsupported

theorem executeSubq (data destination : Operand) (width : Width) :
    P (Instruction.executeSubq data destination width) := by
  unfold Instruction.executeSubq
  split
  case h_1 amount name =>
    refine composes.bind (composes.readRegister name .long) fun value => ?_
    exact composes.writeRegister name .long _
  case h_2 => exact composes.unsupported

theorem executeBranch (condition : Condition) (target : Operand)
    (width : Width) :
    P (Instruction.executeBranch condition target width) := by
  refine composes.bind (composes.branchAddress target width)
    fun destination => ?_
  refine composes.bind composes.current fun machine => ?_
  split
  · exact composes.jump destination
  · exact composes.pure ()

theorem executeBsr (target : Operand) (width : Width) :
    P (Instruction.executeBsr target width) := by
  refine composes.bind (composes.branchAddress target width)
    fun destination => ?_
  refine composes.bind composes.current fun machine => ?_
  refine composes.bind (composes.writeMemory _ .long machine.pc) fun _ => ?_
  refine composes.bind (composes.updateRegisters _) fun _ => ?_
  refine composes.bind (composes.call machine.pc destination) fun _ => ?_
  exact composes.jump destination

theorem executeRts : P Instruction.executeRts := by
  refine composes.bind composes.current fun machine => ?_
  refine composes.bind (composes.readMemory _ .long) fun destination => ?_
  refine composes.bind (composes.updateRegisters _) fun _ => ?_
  exact composes.jump destination

theorem executeDbcc (condition : Condition) (counter : Register)
    (displacement : Word) :
    P (Instruction.executeDbcc condition counter displacement) := by
  refine composes.bind composes.current fun machine => ?_
  split
  · exact composes.unsupported
  · refine composes.bind (composes.writeRegister counter .word _) fun _ => ?_
    split
    · exact composes.pure ()
    · exact composes.jump _

theorem execute (instruction : Instruction) : P instruction.execute := by
  cases instruction with
  | nop => exact composes.pure ()
  | moveToSr value => exact composes.update _ fun _ => rfl
  | tst target width => exact composes.executeTst target width
  | bne target width => exact composes.executeBranch .notEqual target width
  | beq target width => exact composes.executeBranch .equal target width
  | bsr target width => exact composes.executeBsr target width
  | lea target destination => exact composes.executeLea target destination
  | move source destination width =>
      exact composes.executeMove source destination width
  | andi source destination width =>
      exact composes.executeAndi source destination width
  | dbcc condition counter displacement =>
      exact composes.executeDbcc condition counter displacement
  | rts => exact composes.executeRts
  | subq data destination width =>
      exact composes.executeSubq data destination width
  | stop value => exact composes.update _ fun _ => rfl

theorem step : P Machine.step := by
  refine composes.bind composes.current fun machine => ?_
  refine composes.bind (composes.readMemory machine.pc .word) fun word => ?_
  refine composes.bind (composes.update _ fun _ => rfl) fun _ => ?_
  refine composes.bind composes.decode fun decoded => ?_
  refine composes.bind (composes.jump _) fun _ => ?_
  have hexecute := composes.execute decoded.instruction
  refine composes.bind (composes.repairing hexecute fun _ => rfl) fun _ => ?_
  refine composes.bind (composes.update _ fun _ => rfl) fun _ => ?_
  exact composes.pure _

/-- The two addresses that a reset asks for are read as longs. -/
theorem reset : P Machine.reset := by
  refine composes.bind (composes.readMemory 0 .long) fun stackPointer => ?_
  refine composes.bind (composes.readMemory 4 .long) fun pc => ?_
  exact composes.update _ fun _ => rfl

end Composes

end Exec

end MegaDrive
