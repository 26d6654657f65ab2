/-
Execution over the guarded bus and registers.  Main statement: no access to
the bus, no decoding, no instruction and no step is ever aborted, and each
comes to what the unguarded machine comes to.
-/
import MegaDrive.Machine.Step
import MegaDrive.Proofs.GuardedDecode

namespace MegaDrive

namespace Guarded

/-- An activity of the machine that may be aborted. -/
def Exec (α : Type) : Type := Machine → Guarded (Outcome α)

namespace Exec

variable {α β : Type}

instance : Monad Exec where
  pure value := fun machine => .ok ⟨.ok value, machine, []⟩
  bind first next := fun machine => do
    let outcome ← first machine
    match outcome.result with
    | .ok value =>
        let rest ← next value outcome.machine
        return rest.after outcome.events
    | .error fault => return ⟨.error fault, outcome.machine, outcome.events⟩

/-- An activity that cannot abort. -/
def lift (activity : MegaDrive.Exec α) : Exec α :=
  fun machine => .ok (activity machine)

theorem lift_pure (value : α) :
    (pure value : Exec α) = lift (pure value) := rfl

theorem lift_bind (first : MegaDrive.Exec α) (next : α → MegaDrive.Exec β) :
    (lift first >>= fun value => lift (next value)) = lift (first >>= next) := by
  funext machine
  change (match (first machine).result with
    | .ok value => _ | .error fault => _) =
    Except.ok ((first machine).andThen next)
  unfold Outcome.andThen
  cases (first machine).result <;> rfl

/-- Work on a value that may be aborted. -/
def ofGuarded (value : Guarded α) : Exec α := fun machine => do
  let value ← value
  return ⟨.ok value, machine, []⟩

theorem ofGuarded_ok_bind (value : α) (next : α → Exec β) :
    ofGuarded (.ok value) >>= next = next value := by
  funext machine
  change (next value machine >>= fun rest => .ok (rest.after [])) = _
  cases next value machine <;> rfl

def current : Exec Machine := lift MegaDrive.Exec.current

/-- Ask the bus something that does not change it. -/
def ask (question : Bus → Guarded (Reply α)) : Exec α := fun machine => do
  let reply ← question machine.bus
  return ⟨reply.result, machine, reply.events⟩

def readMemory (address : Address) (width : Width) : Exec Long :=
  ask fun bus => Guarded.read bus address width

def writeMemory (address : Address) (width : Width) (value : Long) :
    Exec Unit := fun machine => do
  let done ← Guarded.written machine.bus address width value
  return ⟨done.result, { machine with bus := done.bus }, done.events⟩

def readRegister (register : Register) (width : Width) : Exec Long :=
  fun machine => do
    let value ← Guarded.readRegister machine.registers register width
    return ⟨.ok value, machine, []⟩

def updateRegisters (change : RegisterFile → Guarded RegisterFile) :
    Exec Unit := fun machine => do
  let registers ← change machine.registers
  return ⟨.ok (), { machine with registers := registers }, []⟩

def writeRegister (register : Register) (width : Width) (value : Long) :
    Exec Unit :=
  updateRegisters fun file => Guarded.writeRegister file register width value

def repairing (body : Exec α) (repair : Machine → Machine) : Exec α :=
  fun machine => do
    let reached ← body machine
    match reached.result with
    | .ok _ => return reached
    | .error _ => return { reached with machine := repair reached.machine }

theorem ask_eq {guarded : Bus → Guarded (Reply α)} {question : Bus → Reply α}
    (hguarded : ∀ bus, guarded bus = .ok (question bus)) :
    ask guarded = lift (MegaDrive.Exec.ask question) := by
  funext machine
  rw [ask, hguarded]
  rfl

theorem readMemory_eq (address : Address) (width : Width) :
    readMemory address width = lift (MegaDrive.Exec.readMemory address width) :=
  ask_eq fun bus => read_eq bus address width

theorem writeMemory_eq (address : Address) (width : Width) (value : Long) :
    writeMemory address width value =
      lift (MegaDrive.Exec.writeMemory address width value) := by
  funext machine
  rw [writeMemory, written_eq]
  rfl

theorem readRegister_eq (register : Register) (width : Width) :
    readRegister register width =
      lift (MegaDrive.Exec.readRegister register width) := by
  funext machine
  rw [readRegister, Guarded.readRegister_eq]
  rfl

theorem updateRegisters_eq {guarded : RegisterFile → Guarded RegisterFile}
    {change : RegisterFile → RegisterFile}
    (hguarded : ∀ file, guarded file = .ok (change file)) :
    updateRegisters guarded = lift (MegaDrive.Exec.updateRegisters change) := by
  funext machine
  rw [updateRegisters, hguarded]
  rfl

theorem writeRegister_eq (register : Register) (width : Width) (value : Long) :
    writeRegister register width value =
      lift (MegaDrive.Exec.writeRegister register width value) :=
  updateRegisters_eq fun file =>
    Guarded.writeRegister_eq file register width value

theorem repairing_eq (body : MegaDrive.Exec α) (repair : Machine → Machine) :
    repairing (lift body) repair =
      lift (MegaDrive.Exec.repairing body repair) := by
  funext machine
  rw [repairing, lift, ok_bind, lift, MegaDrive.Exec.repairing]
  cases (body machine).result <;> rfl

section Operands

variable (source destination operand : Operand) (width : Width) (value : Long)

def load : Exec Long := do
  let machine ← current
  match operand with
  | .register name => readRegister name width
  | .absolute address => readMemory address width
  | .indirect number _ => do
      let address ← ofGuarded (base machine.registers number)
      readMemory address width
  | .displaced number displacement => do
      let address ← ofGuarded (base machine.registers number)
      readMemory (displace address displacement) width
  | .immediate _ | .pcDisplaced _ | .branch _ =>
      lift (MegaDrive.Exec.fault .unsupportedOperand)

def advance : Exec Unit :=
  match operand.stepped? with
  | some number => updateRegisters fun file => Guarded.advance file number width
  | none => return ()

def baseAfter (file : RegisterFile) (number : Byte) : Guarded Address := do
  let address ← base file number
  return if source.stepped? = some number then
    address + BitVec.ofNat 32 width.bytes
  else address

def moveValue : Exec Long :=
  match source with
  | .immediate value => return width.truncate value
  | .pcDisplaced _ | .branch _ => lift MegaDrive.Exec.unsupported
  | _ => load source width

def moveStore : Exec Unit := do
  let machine ← current
  match destination with
  | .register _ => return ()
  | .absolute address => writeMemory address width value
  | .indirect number _ => do
      let address ← ofGuarded (baseAfter source width machine.registers number)
      writeMemory address width value
  | .displaced number displacement => do
      let address ← ofGuarded (baseAfter source width machine.registers number)
      writeMemory (displace address displacement) width value
  | .immediate _ | .pcDisplaced _ | .branch _ =>
      lift MegaDrive.Exec.unsupported

def moveSettle : Exec Unit :=
  match destination with
  | .register name => writeRegister name width value
  | _ => return ()

theorem load_eq : load operand width = lift (operand.load width) := by
  unfold load Operand.load
  cases operand with
  | register name =>
      simp only [current, readRegister_eq, lift_bind]
  | absolute address =>
      simp only [current, readMemory_eq, lift_bind]
  | indirect number postIncrement | displaced number displacement =>
      simp only [current, base_eq, ofGuarded_ok_bind, readMemory_eq, lift_bind]
  | immediate | pcDisplaced | branch => simp only [current, lift_bind]

theorem advance_eq : advance operand width = lift (operand.advance width) := by
  unfold advance Operand.advance
  cases operand.stepped? with
  | none => rfl
  | some number =>
      apply updateRegisters_eq
      intro file
      exact Guarded.advance_eq file number width

theorem baseAfter_eq (file : RegisterFile) (number : Byte) :
    baseAfter source width file number =
      .ok (source.baseAfter width file number) := by
  rw [baseAfter, base_eq, ok_bind]
  rfl

theorem moveValue_eq :
    moveValue source width = lift (Instruction.moveValue source width) := by
  cases source with
  | immediate value => rfl
  | pcDisplaced | branch => rfl
  | register | absolute | indirect | displaced =>
      simp only [moveValue, Instruction.moveValue, load_eq]

theorem moveStore_eq :
    moveStore source destination width value =
      lift (Instruction.moveStore source destination width value) := by
  unfold moveStore Instruction.moveStore
  cases destination with
  | register name => simp only [current, lift_pure, lift_bind]
  | absolute address => simp only [current, writeMemory_eq, lift_bind]
  | indirect number postIncrement | displaced number displacement =>
      simp only [current, baseAfter_eq, ofGuarded_ok_bind, writeMemory_eq,
        lift_bind]
  | immediate | pcDisplaced | branch => simp only [current, lift_bind]

theorem moveSettle_eq :
    moveSettle destination width value =
      lift (Instruction.moveSettle destination width value) := by
  cases destination with
  | register name => exact writeRegister_eq name width value
  | absolute | immediate | indirect | displaced | pcDisplaced | branch => rfl

end Operands

section Instructions

variable (source destination target : Operand) (width : Width)

def executeMove : Exec Unit := do
  let value ← moveValue source width
  moveStore source destination width value
  advance source width
  advance destination width
  moveSettle destination width value

def executeLea (destination : Register) : Exec Unit := do
  let machine ← current
  let load := writeRegister destination .long
  match target with
  | .pcDisplaced displacement => load (displace (machine.pc - 2) displacement)
  | .absolute address => load address
  | .indirect number false => do
      let address ← ofGuarded (base machine.registers number)
      load address
  | .displaced number displacement => do
      let address ← ofGuarded (base machine.registers number)
      load (displace address displacement)
  | _ => lift (MegaDrive.Exec.fault .unsupportedOperand)

def executeTst : Exec Unit := do
  let value ← load target width
  advance target width
  lift (MegaDrive.Exec.setStatus fun status => status.compared width value)

def executeAndi : Exec Unit :=
  match source, destination, width with
  | .immediate mask, .register name, .byte => do
      let value ← readRegister name .byte
      let result := value &&& mask &&& 0xFF
      writeRegister name .byte result
      lift (MegaDrive.Exec.setStatus fun status =>
        status.compared .byte result)
  | _, _, _ => lift MegaDrive.Exec.unsupported

def executeSubq : Exec Unit :=
  match source, destination, width with
  | .immediate amount, .register name, .long => do
      let value ← readRegister name .long
      writeRegister name .long (value - amount)
  | _, _, _ => lift MegaDrive.Exec.unsupported

def executeBsr : Exec Unit := do
  let destination ← lift (target.branchAddress width)
  let machine ← current
  let pointer ← ofGuarded (stackPointer machine.registers)
  let top := pointer - 4
  writeMemory top .long machine.pc
  updateRegisters fun file => withStackPointer file top
  lift (MegaDrive.Exec.note (.call machine.pc destination))
  lift (MegaDrive.Exec.jump destination)

def executeRts : Exec Unit := do
  let machine ← current
  let top ← ofGuarded (stackPointer machine.registers)
  let destination ← readMemory top .long
  updateRegisters fun file => withStackPointer file (top + 4)
  lift (MegaDrive.Exec.jump destination)

def executeDbcc (condition : Condition) (counter : Register)
    (displacement : Word) : Exec Unit := do
  let machine ← current
  if condition.holds machine.sr then lift MegaDrive.Exec.unsupported
  else
    let value ← ofGuarded
      (Guarded.readRegister machine.registers counter .word)
    let count := value - 1
    writeRegister counter .word count
    if Width.word.truncate count = 0xFFFF then return ()
    else lift (MegaDrive.Exec.jump (displace (machine.pc - 2) displacement))

/-- Branches on a condition and stops reach for nothing that could be refused.
-/
def execute : Instruction → Exec Unit
  | .nop => return ()
  | .moveToSr value =>
      lift (MegaDrive.Exec.setStatus fun status => status.withLowByte value)
  | .tst target width => executeTst target width
  | .bne target width => lift (Instruction.executeBranch .notEqual target width)
  | .beq target width => lift (Instruction.executeBranch .equal target width)
  | .bsr target width => executeBsr target width
  | .lea target destination => executeLea target destination
  | .move source destination width => executeMove source destination width
  | .andi source destination width => executeAndi source destination width
  | .dbcc condition counter displacement =>
      executeDbcc condition counter displacement
  | .rts => executeRts
  | .subq data destination width => executeSubq data destination width
  | .stop value => lift (Instruction.executeStop value)

theorem executeMove_eq :
    executeMove source destination width =
      lift (Instruction.executeMove source destination width) := by
  simp only [executeMove, Instruction.executeMove, moveValue_eq, moveStore_eq,
    advance_eq, moveSettle_eq, lift_bind]

theorem executeLea_eq (destination : Register) :
    executeLea target destination =
      lift (Instruction.executeLea target destination) := by
  unfold executeLea Instruction.executeLea
  cases target with
  | pcDisplaced displacement | absolute address =>
      simp only [current, writeRegister_eq, lift_bind]
  | displaced number displacement =>
      simp only [current, base_eq, ofGuarded_ok_bind, writeRegister_eq,
        lift_bind]
  | indirect number postIncrement =>
      cases postIncrement with
      | false =>
          simp only [current, base_eq, ofGuarded_ok_bind, writeRegister_eq,
            lift_bind]
      | true => simp only [current, lift_bind]
  | register | immediate | branch => simp only [current, lift_bind]

theorem executeTst_eq :
    executeTst target width = lift (Instruction.executeTst target width) := by
  simp only [executeTst, Instruction.executeTst, load_eq, advance_eq, lift_bind]

theorem executeAndi_eq :
    executeAndi source destination width =
      lift (Instruction.executeAndi source destination width) := by
  unfold executeAndi Instruction.executeAndi
  split
  · simp only [readRegister_eq, writeRegister_eq, lift_bind]
  · simp only [*]

theorem executeSubq_eq :
    executeSubq source destination width =
      lift (Instruction.executeSubq source destination width) := by
  unfold executeSubq Instruction.executeSubq
  split
  · simp only [readRegister_eq, writeRegister_eq, lift_bind]
  · simp only [*]

theorem executeBsr_eq :
    executeBsr target width = lift (Instruction.executeBsr target width) := by
  have hpush := fun top => updateRegisters_eq fun file =>
    withStackPointer_eq file top
  simp only [executeBsr, Instruction.executeBsr, current, stackPointer_eq,
    ofGuarded_ok_bind, writeMemory_eq, hpush, lift_bind]

theorem executeRts_eq : executeRts = lift Instruction.executeRts := by
  have hpop := fun top => updateRegisters_eq fun file =>
    withStackPointer_eq file top
  simp only [executeRts, Instruction.executeRts, current, stackPointer_eq,
    ofGuarded_ok_bind, readMemory_eq, hpop, lift_bind]

theorem executeDbcc_eq (condition : Condition) (counter : Register)
    (displacement : Word) :
    executeDbcc condition counter displacement =
      lift (Instruction.executeDbcc condition counter displacement) := by
  simp only [executeDbcc, Instruction.executeDbcc, current,
    Guarded.readRegister_eq, ofGuarded_ok_bind, writeRegister_eq, lift_pure,
    ← apply_ite lift, lift_bind]

theorem execute_eq (instruction : Instruction) :
    execute instruction = lift instruction.execute := by
  cases instruction with
  | nop | moveToSr | bne | beq | stop => rfl
  | tst target width => exact executeTst_eq target width
  | bsr target width => exact executeBsr_eq target width
  | lea target destination => exact executeLea_eq target destination
  | move source destination width =>
      exact executeMove_eq source destination width
  | andi source destination width =>
      exact executeAndi_eq source destination width
  | dbcc condition counter displacement =>
      exact executeDbcc_eq condition counter displacement
  | rts => exact executeRts_eq
  | subq data destination width =>
      exact executeSubq_eq data destination width

end Instructions

def decode : Exec Decoded := do
  let machine ← current
  ask fun bus => Guarded.decode bus machine.pc

def step : Exec Instruction := do
  let start := (← current).pc
  let word ← readMemory start .word
  lift (MegaDrive.Exec.update fun machine =>
    { machine with ir := word.setWidth 16 })
  let decoded ← decode
  lift (MegaDrive.Exec.jump (start + decoded.length))
  repairing (execute decoded.instruction) fun machine =>
    { machine with pc := start }
  lift (MegaDrive.Exec.update fun machine =>
    { machine with history := machine.history.push start })
  return decoded.instruction

theorem decode_eq : decode = lift Machine.decode := by
  have hdecode := fun pc : Address => ask_eq fun bus =>
    Guarded.decode_eq bus pc
  simp only [decode, Machine.decode, current, hdecode, lift_bind]

theorem step_eq : step = lift Machine.step := by
  simp only [step, Machine.step, current, readMemory_eq, decode_eq,
    execute_eq, repairing_eq, lift_pure, lift_bind]

end Exec

/-- Nothing is ever aborted.  At every address, at every width and in every
state, for every value and for every instruction, the guarded operations come
to what the operations of the machine come to. -/
theorem never_aborts :
    (∀ (bus : Bus) (address : Address) (width : Width),
      read bus address width = .ok (bus.read address width)) ∧
    (∀ (bus : Bus) (address : Address) (width : Width) (value : Long),
      write bus address width value =
        .ok (bus.write address width value)) ∧
    (∀ (bus : Bus) (pc : Address), decode bus pc = .ok (bus.decode pc)) ∧
    (∀ (instruction : Instruction) (machine : Machine),
      Exec.execute instruction machine = .ok (instruction.execute machine)) ∧
    ∀ machine : Machine, Exec.step machine = .ok machine.step := by
  refine ⟨read_eq, write_eq, decode_eq, ?_, ?_⟩
  · intro instruction machine
    rw [Exec.execute_eq]
    rfl
  · intro machine
    rw [Exec.step_eq]
    rfl

end Guarded

end MegaDrive
