/-
What an instruction has done when it succeeded.  There is one lemma for each
kind of instruction: it gives what the instruction asked of its operands and of
memory, and the machine it leaves in terms of the machine it found.  Proofs
about instructions start from these and open no definition of an instruction.
-/
import MegaDrive.Proofs.Atomicity

namespace MegaDrive

namespace Exec

variable {α β : Type}

/-- Both parts of what succeeded have succeeded. -/
theorem exists_of_bind_ok {first : Exec α} {next : α → Exec β}
    {machine : Machine} {value : β}
    (hresult : ((first >>= next) machine).result = .ok value) :
    ∃ middle, (first machine).result = .ok middle ∧
      (next middle (first machine).machine).result = .ok value ∧
      ((first >>= next) machine).machine =
        (next middle (first machine).machine).machine := by
  cases hfirst : (first machine).result with
  | ok middle =>
      rw [bind_apply, Outcome.andThen_of_ok hfirst] at hresult ⊢
      exact ⟨middle, rfl, hresult, rfl⟩
  | error fault =>
      rw [bind_apply, Outcome.andThen_of_error hfirst] at hresult
      cases hresult

/-- The same when the first part only looks. -/
theorem Steady.exists_of_bind_ok {first : Exec α} {next : α → Exec β}
    (hfirst : Steady first) {machine : Machine} {value : β}
    (hresult : ((first >>= next) machine).result = .ok value) :
    ∃ middle, (first machine).result = .ok middle ∧
      (next middle machine).result = .ok value ∧
      ((first >>= next) machine).machine = (next middle machine).machine := by
  have hparts := Exec.exists_of_bind_ok hresult
  rwa [hfirst machine] at hparts

/-- What cannot fault does not show in the result. -/
theorem result_bind_settles {first : Exec α} {next : α → Exec Unit}
    (hnext : ∀ value, Settles (next value)) (machine : Machine) :
    ((first >>= next) machine).result =
      (first machine).result.map fun _ => () := by
  cases hfirst : (first machine).result with
  | ok value =>
      obtain ⟨done, hdone⟩ := hnext value (first machine).machine
      rw [bind_apply, Outcome.andThen_of_ok hfirst]
      exact hdone
  | error fault =>
      rw [bind_apply, Outcome.andThen_of_error hfirst]
      rfl

theorem result_writeMemory (address : Address) (width : Width) (value : Long)
    (machine : Machine) :
    (writeMemory address width value machine).result =
      (machine.bus.write address width value).result.map fun _ => () := by
  cases hwrite : (machine.bus.write address width value).result with
  | ok bus =>
      rw [writeMemory_of_ok hwrite]
      rfl
  | error fault =>
      rw [writeMemory_of_error hwrite]
      rfl

theorem exists_of_writeMemory_ok {machine : Machine} {address : Address}
    {width : Width} {value : Long}
    (hresult : (writeMemory address width value machine).result = .ok ()) :
    ∃ bus, (machine.bus.write address width value).result = .ok bus ∧
      (writeMemory address width value machine).machine =
        { machine with bus := bus } := by
  cases hwrite : (machine.bus.write address width value).result with
  | ok bus =>
      rw [writeMemory_of_ok hwrite]
      exact ⟨bus, rfl, rfl⟩
  | error fault =>
      rw [writeMemory_of_error hwrite] at hresult
      cases hresult

end Exec

namespace Operand

/-- The registers once an operand has been stepped past. -/
def stepping (operand : Operand) (width : Width) (registers : RegisterFile) :
    RegisterFile :=
  match operand.stepped? with
  | some base => registers.advance base width
  | none => registers

/-- The address of an operand in memory. -/
def place? (operand : Operand) (registers : RegisterFile) : Option Address :=
  match operand with
  | .absolute address => some address
  | .indirect base _ => some (registers.base base)
  | .displaced base displacement =>
      some (displace (registers.base base) displacement)
  | .register _ | .immediate _ | .pcDisplaced _ | .branch _ => none

/-- The address that an operand stands for without being read. -/
def reference? (operand : Operand) (machine : Machine) : Option Address :=
  match operand with
  | .pcDisplaced displacement =>
      some (displace (machine.pc - 2) displacement)
  | .indirect _ true => none
  | _ => operand.place? machine.registers

/-- The address of an operand as a move that has `source` on its other side
comes to it. -/
def placeAfter? (operand source : Operand) (width : Width)
    (registers : RegisterFile) : Option Address :=
  match operand with
  | .absolute address => some address
  | .indirect base _ => some (source.baseAfter width registers base)
  | .displaced base displacement =>
      some (displace (source.baseAfter width registers base) displacement)
  | .register _ | .immediate _ | .pcDisplaced _ | .branch _ => none

theorem advance_apply (operand : Operand) (width : Width)
    (machine : Machine) :
    operand.advance width machine =
      ⟨.ok (), { machine with
        registers := operand.stepping width machine.registers }, []⟩ := by
  unfold advance stepping
  cases operand.stepped? <;> rfl

/-- Only branches lead anywhere. -/
theorem exists_of_branchAddress_ok {operand : Operand} {width : Width}
    {machine : Machine} {destination : Address}
    (hresult : (operand.branchAddress width machine).result =
      .ok destination) :
    ∃ displacement, operand = .branch displacement ∧
      destination = displace
        (if width = .byte then machine.pc else machine.pc - 2) displacement := by
  cases operand with
  | branch displacement =>
      cases hresult
      exact ⟨displacement, rfl, rfl⟩
  | absolute | immediate | register | indirect | displaced | pcDisplaced =>
      cases hresult

end Operand

namespace Instruction

open Exec Operand

section Moves

variable {source destination : Operand} {width : Width} {value : Long}
  {machine : Machine}

/-- The registers once a value has been put into a destination. -/
def settling (destination : Operand) (width : Width) (value : Long)
    (registers : RegisterFile) : RegisterFile :=
  match destination with
  | .register name => registers.write name width value
  | _ => registers

theorem moveSettle_apply (destination : Operand) (width : Width)
    (value : Long) (machine : Machine) :
    moveSettle destination width value machine =
      ⟨.ok (), { machine with
        registers := settling destination width value machine.registers },
        []⟩ := by
  cases destination <;> rfl

/-- A destination takes a value in memory or is a register. -/
theorem of_moveStore_ok
    (hresult : (moveStore source destination width value machine).result =
      .ok ()) :
    (∃ address bus,
      destination.placeAfter? source width machine.registers = some address ∧
      (machine.bus.write address width value).result = .ok bus ∧
      (moveStore source destination width value machine).machine =
        { machine with bus := bus }) ∨
    (∃ name, destination = .register name ∧
      (moveStore source destination width value machine).machine =
        machine) := by
  have hparts := steady_current.exists_of_bind_ok hresult
  obtain ⟨_, hcurrent, hstore, hmachine⟩ := hparts
  cases hcurrent
  cases destination with
  | register name => exact .inr ⟨name, rfl, hmachine⟩
  | absolute address =>
      obtain ⟨bus, hwrite, hbus⟩ := exists_of_writeMemory_ok hstore
      exact .inl ⟨_, bus, rfl, hwrite, hmachine.trans hbus⟩
  | indirect base postIncrement =>
      obtain ⟨bus, hwrite, hbus⟩ := exists_of_writeMemory_ok hstore
      exact .inl ⟨_, bus, rfl, hwrite, hmachine.trans hbus⟩
  | displaced base displacement =>
      obtain ⟨bus, hwrite, hbus⟩ := exists_of_writeMemory_ok hstore
      exact .inl ⟨_, bus, rfl, hwrite, hmachine.trans hbus⟩
  | immediate | pcDisplaced | branch => cases hstore

/-- The registers at the end of a move: both operands are stepped past before
a register takes the value. -/
def movedRegisters (source destination : Operand) (width : Width)
    (value : Long) (registers : RegisterFile) : RegisterFile :=
  settling destination width value
    (destination.stepping width (source.stepping width registers))

theorem of_executeMove_ok
    (hresult : (executeMove source destination width machine).result =
      .ok ()) :
    ∃ value, (moveValue source width machine).result = .ok value ∧
      ((∃ address bus,
        destination.placeAfter? source width machine.registers =
          some address ∧
        (machine.bus.write address width value).result = .ok bus ∧
        (executeMove source destination width machine).machine =
          { machine with
            bus := bus
            registers := movedRegisters source destination width value
              machine.registers }) ∨
      (∃ name, destination = .register name ∧
        (executeMove source destination width machine).machine =
          { machine with
            registers := movedRegisters source destination width value
              machine.registers })) := by
  obtain ⟨value, hvalue, hrest, hmachine⟩ :=
    (steady_moveValue source width).exists_of_bind_ok hresult
  obtain ⟨_, hstore, -, hstored⟩ := exists_of_bind_ok hrest
  refine ⟨value, hvalue, ?_⟩
  -- What follows the store cannot fault and works on registers alone.
  simp only [bind_apply, advance_apply, Outcome.andThen_ok, Outcome.after_nil,
    moveSettle_apply] at hstored
  have hend : (executeMove source destination width machine).machine = _ :=
    hmachine.trans hstored
  rcases of_moveStore_ok hstore with
    ⟨address, bus, hplace, hwrite, hbus⟩ | ⟨name, hname, hsame⟩
  · rw [hbus] at hend
    exact .inl ⟨address, bus, hplace, hwrite, hend⟩
  · rw [hsame] at hend
    exact .inr ⟨name, hname, hend⟩

end Moves

section Others

variable {machine : Machine}

theorem of_executeLea_ok {target : Operand} {destination : Register}
    (hresult : (executeLea target destination machine).result = .ok ()) :
    ∃ address, target.reference? machine = some address ∧
      (executeLea target destination machine).machine =
        { machine with
          registers := machine.registers.write destination .long
            address } := by
  obtain ⟨_, hcurrent, hload, hmachine⟩ :=
    steady_current.exists_of_bind_ok hresult
  cases hcurrent
  cases target with
  | pcDisplaced | absolute | displaced => exact ⟨_, rfl, hmachine⟩
  | indirect base postIncrement =>
      cases postIncrement with
      | false => exact ⟨_, rfl, hmachine⟩
      | true => cases hload
  | register | immediate | branch => cases hload

theorem of_executeTst_ok {target : Operand} {width : Width}
    (hresult : (executeTst target width machine).result = .ok ()) :
    ∃ value, (target.load width machine).result = .ok value ∧
      (executeTst target width machine).machine =
        { machine with
          registers := target.stepping width machine.registers
          sr := machine.sr.compared width value } := by
  obtain ⟨value, hvalue, -, hmachine⟩ :=
    (steady_load target width).exists_of_bind_ok hresult
  simp only [bind_apply, advance_apply, Outcome.andThen_ok, Outcome.after_nil,
    setStatus_apply] at hmachine
  exact ⟨value, hvalue, hmachine⟩

theorem of_executeAndi_ok {source destination : Operand} {width : Width}
    (hresult : (executeAndi source destination width machine).result =
      .ok ()) :
    ∃ mask name result, source = .immediate mask ∧
      destination = .register name ∧ width = .byte ∧
      result = machine.registers.read name .byte &&& mask &&& 0xFF ∧
      (executeAndi source destination width machine).machine =
        { machine with
          registers := machine.registers.write name .byte result
          sr := machine.sr.compared .byte result } := by
  unfold executeAndi at hresult ⊢
  split at hresult
  · exact ⟨_, _, _, rfl, rfl, rfl, rfl, rfl⟩
  · cases hresult

theorem of_executeSubq_ok {data destination : Operand} {width : Width}
    (hresult : (executeSubq data destination width machine).result =
      .ok ()) :
    ∃ amount name, data = .immediate amount ∧ destination = .register name ∧
      width = .long ∧
      (executeSubq data destination width machine).machine =
        { machine with
          registers := machine.registers.write name .long
            (machine.registers.read name .long - amount) } := by
  unfold executeSubq at hresult ⊢
  split at hresult
  · exact ⟨_, _, rfl, rfl, rfl, rfl⟩
  · cases hresult

theorem of_executeBranch_ok {condition : Condition} {target : Operand}
    {width : Width}
    (hresult : (executeBranch condition target width machine).result =
      .ok ()) :
    ∃ displacement, target = .branch displacement ∧
      (executeBranch condition target width machine).machine =
        { machine with
          pc := if condition.holds machine.sr then
            displace (if width = .byte then machine.pc else machine.pc - 2)
              displacement
          else machine.pc } := by
  obtain ⟨address, haddress, -, hmachine⟩ :=
    (steady_branchAddress target width).exists_of_bind_ok hresult
  obtain ⟨displacement, htarget, rfl⟩ := exists_of_branchAddress_ok haddress
  refine ⟨displacement, htarget, hmachine.trans ?_⟩
  simp only [bind_apply, current_apply, Outcome.andThen_ok, Outcome.after_nil]
  split <;> rfl

/-- A subroutine call succeeds when its push does. -/
theorem result_executeBsr (displacement : Word) (width : Width)
    (machine : Machine) :
    (executeBsr (.branch displacement) width machine).result =
      (machine.bus.write (machine.registers.stackPointer - 4) .long
        machine.pc).result.map fun _ => () := by
  simp only [executeBsr, branchAddress, bind_apply, current_apply,
    Outcome.andThen_ok, Outcome.after_nil, pure_apply]
  cases hwrite : (machine.bus.write (machine.registers.stackPointer - 4) .long
      machine.pc).result with
  | ok bus =>
      rw [writeMemory_of_ok hwrite]
      rfl
  | error fault =>
      rw [writeMemory_of_error hwrite]
      rfl

/-- A subroutine call has pushed the address behind it. -/
theorem of_executeBsr_ok {target : Operand} {width : Width}
    (hresult : (executeBsr target width machine).result = .ok ()) :
    ∃ displacement bus, target = .branch displacement ∧
      (machine.bus.write (machine.registers.stackPointer - 4) .long
        machine.pc).result = .ok bus ∧
      (executeBsr target width machine).machine =
        { machine with
          bus := bus
          registers := machine.registers.withStackPointer
            (machine.registers.stackPointer - 4)
          pc := displace (if width = .byte then machine.pc else machine.pc - 2)
            displacement } := by
  obtain ⟨address, haddress, hrest, hmachine⟩ :=
    (steady_branchAddress target width).exists_of_bind_ok hresult
  obtain ⟨displacement, htarget, rfl⟩ := exists_of_branchAddress_ok haddress
  obtain ⟨_, hcurrent, hpush, hpushing⟩ :=
    steady_current.exists_of_bind_ok hrest
  cases hcurrent
  obtain ⟨_, hwrite, -, hjump⟩ := exists_of_bind_ok hpush
  obtain ⟨bus, hbus, hstored⟩ := exists_of_writeMemory_ok hwrite
  have hend := hmachine.trans (hpushing.trans hjump)
  rw [hstored] at hend
  exact ⟨displacement, bus, htarget, hbus, hend⟩

/-- A return succeeds when the top of the stack can be read. -/
theorem result_executeRts (machine : Machine) :
    (executeRts machine).result =
      (machine.bus.read machine.registers.stackPointer .long).result.map
        fun _ => () := by
  simp only [executeRts, bind_apply, current_apply, Outcome.andThen_ok,
    Outcome.after_nil, readMemory_apply]
  cases (machine.bus.read machine.registers.stackPointer .long).result <;> rfl

/-- A return has taken the long on top of the stack. -/
theorem of_executeRts_ok (hresult : (executeRts machine).result = .ok ()) :
    ∃ destination,
      (machine.bus.read machine.registers.stackPointer .long).result =
        .ok destination ∧
      (executeRts machine).machine =
        { machine with
          registers := machine.registers.withStackPointer
            (machine.registers.stackPointer + 4)
          pc := destination } := by
  obtain ⟨_, hcurrent, hread, hmachine⟩ :=
    steady_current.exists_of_bind_ok hresult
  cases hcurrent
  obtain ⟨destination, hdestination, -, hrest⟩ :=
    (steady_readMemory _ .long).exists_of_bind_ok hread
  exact ⟨destination, hdestination, hmachine.trans hrest⟩

theorem of_executeDbcc_ok {condition : Condition} {counter : Register}
    {displacement : Word}
    (hresult : (executeDbcc condition counter displacement machine).result =
      .ok ()) :
    ∃ count, condition.holds machine.sr = false ∧
      count = machine.registers.read counter .word - 1 ∧
      (executeDbcc condition counter displacement machine).machine =
        { machine with
          registers := machine.registers.write counter .word count
          pc := if Width.word.truncate count = 0xFFFF then machine.pc
            else displace (machine.pc - 2) displacement } := by
  obtain ⟨_, hcurrent, hrest, hmachine⟩ :=
    steady_current.exists_of_bind_ok hresult
  cases hcurrent
  cases hholds : condition.holds machine.sr with
  | true =>
      rw [hholds, if_pos rfl] at hrest
      cases hrest
  | false =>
      refine ⟨_, rfl, rfl, hmachine.trans ?_⟩
      rw [hholds, if_neg (by decide)]
      simp only [bind_apply, writeRegister_apply, Outcome.andThen_ok,
        Outcome.after_nil]
      split <;> rfl

end Others

end Instruction

namespace Machine

/-- A reset has read two addresses and started over from them. -/
theorem of_reset_ok {machine : Machine}
    (hresult : (reset machine).result = .ok ()) :
    ∃ stackPointer pc,
      machine.bus.initialStackPointer.result = .ok stackPointer ∧
      machine.bus.initialPc.result = .ok pc ∧
      (reset machine).machine = machine.restarted stackPointer pc := by
  have hsteady : Exec.Steady (Exec.ask Bus.initialStackPointer) := fun _ => rfl
  have hsteady' : Exec.Steady (Exec.ask Bus.initialPc) := fun _ => rfl
  obtain ⟨stackPointer, hpointer, hrest, hmachine⟩ :=
    hsteady.exists_of_bind_ok hresult
  obtain ⟨pc, hpc, -, hrestarted⟩ := hsteady'.exists_of_bind_ok hrest
  exact ⟨stackPointer, pc, hpointer, hpc, hmachine.trans hrestarted⟩

end Machine

end MegaDrive
