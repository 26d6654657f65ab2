/-
Faults leave nothing behind.  Activities are sorted into those that only look
at the machine, those that cannot fault, and those that leave the machine as
it was whenever they do.  Main statement: every instruction is of the last
kind, and a step that faults changes at most the instruction register.
-/
import MegaDrive.Proofs.Stepping

namespace MegaDrive

namespace Exec

variable {α β : Type}

/-- An activity that only looks at the machine. -/
def Steady (activity : Exec α) : Prop :=
  ∀ machine, (activity machine).machine = machine

/-- An activity that cannot fault. -/
def Settles (activity : Exec α) : Prop :=
  ∀ machine, ∃ value, (activity machine).result = .ok value

/-- An activity that leaves the machine as it was whenever it faults. -/
def Atomic (activity : Exec α) : Prop :=
  ∀ machine fault, (activity machine).result = .error fault →
    (activity machine).machine = machine

theorem Steady.atomic {activity : Exec α} (hsteady : Steady activity) :
    Atomic activity :=
  fun machine _ _ => hsteady machine

theorem Settles.atomic {activity : Exec α} (hsettles : Settles activity) :
    Atomic activity := by
  intro machine fault hfault
  obtain ⟨value, hvalue⟩ := hsettles machine
  rw [hvalue] at hfault
  cases hfault

theorem Steady.bind {first : Exec α} {next : α → Exec β}
    (hfirst : Steady first) (hnext : ∀ value, Steady (next value)) :
    Steady (first >>= next) := by
  intro machine
  cases hresult : (first machine).result with
  | ok value =>
      rw [bind_apply, Outcome.andThen_of_ok hresult, hfirst machine]
      exact hnext value machine
  | error fault =>
      rw [bind_apply, Outcome.andThen_of_error hresult]
      exact hfirst machine

theorem Settles.bind {first : Exec α} {next : α → Exec β}
    (hfirst : Settles first) (hnext : ∀ value, Settles (next value)) :
    Settles (first >>= next) := by
  intro machine
  obtain ⟨value, hvalue⟩ := hfirst machine
  rw [bind_apply, Outcome.andThen_of_ok hvalue]
  exact hnext value (first machine).machine

/-- To look first does not endanger what comes after. -/
theorem Steady.bind_atomic {first : Exec α} {next : α → Exec β}
    (hfirst : Steady first) (hnext : ∀ value, Atomic (next value)) :
    Atomic (first >>= next) := by
  intro machine fault
  cases hresult : (first machine).result with
  | ok value =>
      rw [bind_apply, Outcome.andThen_of_ok hresult, hfirst machine]
      exact hnext value machine fault
  | error cause =>
      rw [bind_apply, Outcome.andThen_of_error hresult]
      exact fun _ => hfirst machine

/-- Once nothing can fault any more, changes are safe. -/
theorem Atomic.bind_settles {first : Exec α} {next : α → Exec β}
    (hfirst : Atomic first) (hnext : ∀ value, Settles (next value)) :
    Atomic (first >>= next) := by
  intro machine fault
  cases hresult : (first machine).result with
  | ok value =>
      rw [bind_apply, Outcome.andThen_of_ok hresult]
      obtain ⟨final, hfinal⟩ := hnext value (first machine).machine
      intro hfault
      rw [Outcome.result_after, hfinal] at hfault
      cases hfault
  | error cause =>
      rw [bind_apply, Outcome.andThen_of_error hresult]
      exact fun _ => hfirst machine cause hresult

theorem steady_pure (value : α) : Steady (pure value) := fun _ => rfl

theorem steady_current : Steady current := fun _ => rfl

theorem steady_fault (cause : Fault) : Steady (fault cause : Exec α) :=
  fun _ => rfl

theorem steady_unsupported : Steady (unsupported : Exec α) := fun _ => rfl

theorem steady_readMemory (address : Address) (width : Width) :
    Steady (readMemory address width) := fun _ => rfl

theorem steady_readRegister (register : Register) (width : Width) :
    Steady (readRegister register width) := fun _ => rfl

theorem settles_pure (value : α) : Settles (pure value) :=
  fun _ => ⟨value, rfl⟩

theorem settles_update (change : Machine → Machine) :
    Settles (update change) := fun _ => ⟨(), rfl⟩

theorem settles_note (event : Event) : Settles (note event) :=
  fun _ => ⟨(), rfl⟩

theorem settles_writeRegister (register : Register) (width : Width)
    (value : Long) : Settles (writeRegister register width value) :=
  settles_update _

/-- The bus refuses a write as a whole, so that a refused one leaves no part
of it behind. -/
theorem atomic_writeMemory (address : Address) (width : Width)
    (value : Long) : Atomic (writeMemory address width value) := by
  intro machine fault hfault
  cases hwrite : (machine.bus.write address width value).result with
  | ok bus =>
      rw [writeMemory_of_ok hwrite] at hfault
      cases hfault
  | error cause => rw [writeMemory_of_error hwrite]

end Exec

namespace Operand

open Exec

theorem steady_load (operand : Operand) (width : Width) :
    Steady (operand.load width) := by
  refine steady_current.bind fun machine => ?_
  cases operand with
  | register name => exact steady_readRegister name width
  | absolute address => exact steady_readMemory address width
  | indirect base postIncrement => exact steady_readMemory _ width
  | displaced base displacement => exact steady_readMemory _ width
  | immediate | pcDisplaced | branch => exact steady_fault _

theorem steady_branchAddress (operand : Operand) (width : Width) :
    Steady (operand.branchAddress width) := by
  refine steady_current.bind fun machine => ?_
  cases operand with
  | branch displacement => exact steady_pure _
  | absolute | immediate | register | indirect | displaced | pcDisplaced =>
      exact steady_fault _

theorem settles_advance (operand : Operand) (width : Width) :
    Settles (operand.advance width) := by
  unfold advance
  split
  · exact settles_update _
  · exact settles_pure ()

end Operand

namespace Instruction

open Exec

theorem steady_moveValue (source : Operand) (width : Width) :
    Steady (moveValue source width) := by
  cases source with
  | immediate value => exact steady_pure _
  | pcDisplaced | branch => exact steady_unsupported
  | absolute | register | indirect | displaced =>
      exact Operand.steady_load _ width

theorem atomic_moveStore (source destination : Operand) (width : Width)
    (value : Long) : Atomic (moveStore source destination width value) := by
  refine steady_current.bind_atomic fun machine => ?_
  cases destination with
  | register name => exact (steady_pure ()).atomic
  | absolute address => exact atomic_writeMemory address width value
  | indirect base postIncrement => exact atomic_writeMemory _ width value
  | displaced base displacement => exact atomic_writeMemory _ width value
  | immediate | pcDisplaced | branch => exact steady_unsupported.atomic

theorem settles_moveSettle (destination : Operand) (width : Width)
    (value : Long) : Settles (moveSettle destination width value) := by
  unfold moveSettle
  split
  · exact settles_writeRegister _ width value
  · exact settles_pure ()

/-- Both accesses of a move come before its first change of a register. -/
theorem atomic_executeMove (source destination : Operand) (width : Width) :
    Atomic (executeMove source destination width) := by
  refine (steady_moveValue source width).bind_atomic fun value => ?_
  refine (atomic_moveStore source destination width value).bind_settles
    fun _ => ?_
  refine (Operand.settles_advance source width).bind fun _ => ?_
  refine (Operand.settles_advance destination width).bind fun _ => ?_
  exact settles_moveSettle destination width value

theorem atomic_executeLea (target : Operand) (destination : Register) :
    Atomic (executeLea target destination) := by
  refine steady_current.bind_atomic fun machine => ?_
  dsimp only
  split
  case h_5 => exact (steady_fault _).atomic
  all_goals exact (settles_writeRegister destination .long _).atomic

theorem atomic_executeTst (target : Operand) (width : Width) :
    Atomic (executeTst target width) := by
  refine (Operand.steady_load target width).bind_atomic fun value => ?_
  refine ((Operand.settles_advance target width).bind fun _ => ?_).atomic
  exact settles_update _

theorem atomic_executeAndi (source destination : Operand) (width : Width) :
    Atomic (executeAndi source destination width) := by
  unfold executeAndi
  split
  · refine (steady_readRegister _ .byte).bind_atomic fun value => ?_
    refine ((settles_writeRegister _ .byte _).bind fun _ => ?_).atomic
    exact settles_update _
  · exact steady_unsupported.atomic

theorem atomic_executeSubq (data destination : Operand) (width : Width) :
    Atomic (executeSubq data destination width) := by
  unfold executeSubq
  split
  · refine (steady_readRegister _ .long).bind_atomic fun value => ?_
    exact (settles_writeRegister _ .long _).atomic
  · exact steady_unsupported.atomic

theorem atomic_executeBranch (condition : Condition) (target : Operand)
    (width : Width) : Atomic (executeBranch condition target width) := by
  refine (Operand.steady_branchAddress target width).bind_atomic
    fun destination => ?_
  refine steady_current.bind_atomic fun machine => ?_
  split
  · exact (settles_update _).atomic
  · exact (settles_pure ()).atomic

/-- The push is the last thing in a subroutine call that can fault, and the
stack pointer moves after it. -/
theorem atomic_executeBsr (target : Operand) (width : Width) :
    Atomic (executeBsr target width) := by
  refine (Operand.steady_branchAddress target width).bind_atomic
    fun destination => ?_
  refine steady_current.bind_atomic fun machine => ?_
  refine (atomic_writeMemory _ .long machine.pc).bind_settles fun _ => ?_
  refine (settles_update _).bind fun _ => ?_
  refine (settles_note _).bind fun _ => ?_
  exact settles_update _

theorem atomic_executeRts : Atomic executeRts := by
  refine steady_current.bind_atomic fun machine => ?_
  refine (steady_readMemory _ .long).bind_atomic fun destination => ?_
  refine ((settles_update _).bind fun _ => ?_).atomic
  exact settles_update _

theorem atomic_executeDbcc (condition : Condition) (counter : Register)
    (displacement : Word) :
    Atomic (executeDbcc condition counter displacement) := by
  refine steady_current.bind_atomic fun machine => ?_
  split
  · exact steady_unsupported.atomic
  · refine ((settles_writeRegister counter .word _).bind fun _ => ?_).atomic
    split
    · exact settles_pure ()
    · exact settles_update _

theorem atomic_execute (instruction : Instruction) :
    Atomic instruction.execute := by
  cases instruction with
  | nop => exact (settles_pure ()).atomic
  | moveToSr value => exact (settles_update _).atomic
  | tst target width => exact atomic_executeTst target width
  | bne target width => exact atomic_executeBranch .notEqual target width
  | beq target width => exact atomic_executeBranch .equal target width
  | bsr target width => exact atomic_executeBsr target width
  | lea target destination => exact atomic_executeLea target destination
  | move source destination width =>
      exact atomic_executeMove source destination width
  | andi source destination width =>
      exact atomic_executeAndi source destination width
  | dbcc condition counter displacement =>
      exact atomic_executeDbcc condition counter displacement
  | rts => exact atomic_executeRts
  | subq data destination width =>
      exact atomic_executeSubq data destination width
  | stop value => exact (settles_update _).atomic

end Instruction

namespace Machine

theorem step_machine_of_unreadable {machine : Machine} {cause : Fault}
    (hread : (machine.bus.read machine.pc .word).result = .error cause) :
    (step machine).machine = machine := by
  rw [step_of_unreadable hread]

/-- When the instruction faults, the program counter is all that has to be put
back. -/
theorem step_machine_of_fault {machine : Machine} {word : Long}
    {fault : Fault}
    (hread : (machine.bus.read machine.pc .word).result = .ok word)
    (hfault : (step machine).result = .error fault) :
    (step machine).machine = machine.fetched (word.setWidth 16) := by
  cases hdecode : (machine.bus.decode machine.pc).result with
  | error cause => rw [step_of_undecodable hread hdecode]
  | ok decoded =>
      cases hexecute : (decoded.instruction.execute
          (machine.begun (word.setWidth 16) decoded)).result with
      | error cause =>
          rw [step_of_executeFault hread hdecode hexecute,
            Instruction.atomic_execute decoded.instruction _ cause hexecute]
          rfl
      | ok done =>
          rw [step_of_ok hread hdecode hexecute] at hfault
          cases hfault

/-- A fault leaves nothing behind but an opcode. -/
theorem exists_fetched_of_error {machine : Machine} {fault : Fault}
    (hfault : (step machine).result = .error fault) :
    ∃ opcode, (step machine).machine = machine.fetched opcode := by
  cases hread : (machine.bus.read machine.pc .word).result with
  | error cause =>
      exact ⟨machine.ir, step_machine_of_unreadable hread⟩
  | ok word => exact ⟨_, step_machine_of_fault hread hfault⟩

/-- An instruction that faults leaves the machine as it was.  A step that
faults leaves it so too, except that the instruction register holds the opcode
if that could be read. -/
theorem unchanged_of_fault (machine : Machine) :
    (∀ (instruction : Instruction) (fault : Fault),
      (instruction.execute machine).result = .error fault →
        (instruction.execute machine).machine = machine) ∧
    (∀ fault : Fault, (step machine).result = .error fault →
      (∀ word : Long,
        (machine.bus.read machine.pc .word).result = .ok word →
          (step machine).machine =
            { machine with ir := word.setWidth 16 }) ∧
      (∀ cause : Fault,
        (machine.bus.read machine.pc .word).result = .error cause →
          (step machine).machine = machine)) := by
  constructor
  · intro instruction fault hfault
    exact Instruction.atomic_execute instruction machine fault hfault
  · intro fault hfault
    constructor
    · intro word hread
      exact step_machine_of_fault hread hfault
    · intro cause hread
      exact step_machine_of_unreadable hread

end Machine

namespace AtomicityWitness

open Machine

/-- A copy with both addresses stepped, whose load from the cartridge succeeds
and whose store into it does not. -/
def copying : Instruction :=
  .move (.indirect 0 true) (.indirect 1 true) .long

/-- The program counter stands on the opcode of that copy. -/
def blocked : Machine :=
  blank (Bus.powerOn ⟨#[0x22, 0xD8, 0x00, 0x00], by decide⟩ 0)

/-- The program counter stands where nothing can be read. -/
def astray : Machine :=
  { blocked with pc := 0x800000 }

theorem unchanged_of_fault_blocked :
    ((copying.execute blocked).result = .error (.unwritable 0 .long) ∧
      (copying.execute blocked).machine = blocked) ∧
    ((step blocked).result = .error (.unwritable 0 .long) ∧
      (step blocked).machine = { blocked with ir := 0x22D8 }) ∧
    ((step astray).result = .error (.unreadable 0x800000) ∧
      (step astray).machine = astray) := by
  have hexecute :
      (copying.execute blocked).result = .error (.unwritable 0 .long) := rfl
  have hstep : (step blocked).result = .error (.unwritable 0 .long) := rfl
  have hastray : (step astray).result = .error (.unreadable 0x800000) := rfl
  refine ⟨⟨hexecute, ?_⟩, ⟨hstep, ?_⟩, ⟨hastray, ?_⟩⟩
  · exact (unchanged_of_fault blocked).1 copying _ hexecute
  · exact ((unchanged_of_fault blocked).2 _ hstep).1 0x22D8 rfl
  · exact ((unchanged_of_fault astray).2 _ hastray).2 _ rfl

end AtomicityWitness

end MegaDrive
