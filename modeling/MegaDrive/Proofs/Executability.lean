/-
Which decoded instructions can run.  Decoding accepts more than the processor
carries out: some operands an instruction cannot work on, and some forms of
instructions are not there.  Every other fault is that of an access to memory.
Main statement: for each decoded instruction and each machine, which of these
faults comes, and which instructions never fault.
-/
import MegaDrive.Proofs.MoveFactoring

namespace MegaDrive

/-- The faults with which the bus refuses an access. -/
inductive Fault.OfAccess (address : Address) (width : Width) : Fault → Prop
  | misaligned : OfAccess address width (.misaligned address)
  | pastEnd : OfAccess address width (.pastEnd address)
  | unreadable : OfAccess address width (.unreadable address)
  | unwritable : OfAccess address width (.unwritable address width)

theorem Storage.ofAccess_of_load {n : Nat} {bytes : Vector Byte n}
    {start : Nat} {address : Address} {width : Width} {fault : Fault}
    (hload : load bytes start address width = .error fault) :
    fault.OfAccess address width := by
  unfold load at hload
  split at hload
  · cases hload
    exact .misaligned
  · split at hload
    · cases hload
    · cases hload
      exact .pastEnd

namespace Bus

variable {bus : Bus} {address : Address} {width : Width} {value : Long}
  {fault : Fault}

theorem ofAccess_of_read
    (hread : (bus.read address width).result = .error fault) :
    fault.OfAccess address width := by
  unfold read at hread
  split at hread
  · exact Storage.ofAccess_of_load hread
  · exact Storage.ofAccess_of_load hread
  · cases hread
  all_goals
    cases hread
    exact .unreadable

theorem ofAccess_of_writtenRam
    (hrefused : (bus.writtenRam address width value).result = .error fault) :
    fault.OfAccess address width := by
  unfold writtenRam at hrefused
  split at hrefused
  next => cases hrefused
  next cause hstore =>
    cases hrefused
    exact Storage.ofAccess_of_load
      ((Storage.store_eq_error_iff _ _ _ _ _ _).mp hstore)

theorem ofAccess_of_writtenLatch
    (hrefused : (bus.writtenLatch address width value).result =
      .error fault) :
    fault.OfAccess address width := by
  unfold writtenLatch at hrefused
  split at hrefused <;> cases hrefused
  exact .unwritable

theorem ofAccess_of_writtenVideo
    (hrefused : (bus.writtenVideo address width value).result =
      .error fault) :
    fault.OfAccess address width := by
  unfold writtenVideo at hrefused
  split at hrefused
  · cases hrefused
    exact .unwritable
  · split at hrefused <;> cases hrefused
    exact .pastEnd

theorem ofAccess_of_write
    (hwrite : (bus.write address width value).result = .error fault) :
    fault.OfAccess address width := by
  obtain ⟨hrefused, -⟩ := of_write_error hwrite
  unfold written at hrefused
  split at hrefused
  · cases hrefused
    exact .unwritable
  · exact ofAccess_of_writtenRam hrefused
  · cases hrefused
  · exact ofAccess_of_writtenLatch hrefused
  · exact ofAccess_of_writtenVideo hrefused
  · cases hrefused
    exact .unwritable

end Bus

namespace Instruction

open Exec Operand

/-- The instructions that cannot work on an operand they are decoded with. -/
inductive Inoperable : Instruction → Prop
  | tstImmediate (value : Long) (width : Width) :
      Inoperable (.tst (.immediate value) width)
  | tstPcDisplaced (displacement : Word) (width : Width) :
      Inoperable (.tst (.pcDisplaced displacement) width)
  | leaRegister (name destination : Register) :
      Inoperable (.lea (.register name) destination)
  | leaPostIncrement (base : Byte) (destination : Register) :
      Inoperable (.lea (.indirect base true) destination)
  | leaImmediate (value : Long) (destination : Register) :
      Inoperable (.lea (.immediate value) destination)

/-- The instructions that are decoded in a form that is not carried out, a
loop when its condition holds. -/
inductive Unmodelled (status : Status) : Instruction → Prop
  | movePcDisplaced (displacement : Word) (destination : Operand)
      (width : Width) :
      Unmodelled status (.move (.pcDisplaced displacement) destination width)
  | andi {destination : Operand} {width : Width} (source : Operand)
      (hform : width ≠ .byte ∨ ∀ name, destination ≠ .register name) :
      Unmodelled status (.andi source destination width)
  | subq {destination : Operand} {width : Width} (data : Operand)
      (hform : width ≠ .long ∨ ∀ name, destination ≠ .register name) :
      Unmodelled status (.subq data destination width)
  | loop {condition : Condition} (counter : Register) (displacement : Word)
      (hholds : condition.holds status = true) :
      Unmodelled status (.dbcc condition counter displacement)

/-- The accesses of an instruction that the bus refuses: the operands of tests
and moves, the destination of a move once its source has been read and stepped
past, the push of a subroutine call and the pop of a return. -/
inductive AccessFault (machine : Machine) :
    Instruction → Address → Width → Fault → Prop
  | tested {target : Operand} {width : Width} {address : Address}
      {fault : Fault} (hplace : target.place? machine.registers = some address)
      (hread : (machine.bus.read address width).result = .error fault) :
      AccessFault machine (.tst target width) address width fault
  | source {source destination : Operand} {width : Width} {address : Address}
      {fault : Fault} (hplace : source.place? machine.registers = some address)
      (hread : (machine.bus.read address width).result = .error fault) :
      AccessFault machine (.move source destination width) address width fault
  | destination {source destination : Operand} {width : Width} {value : Long}
      {address : Address} {fault : Fault}
      (hvalue : (moveValue source width machine).result = .ok value)
      (hplace : destination.place? (source.stepping width machine.registers) =
        some address)
      (hwrite : (machine.bus.write address width value).result =
        .error fault) :
      AccessFault machine (.move source destination width) address width fault
  | push {displacement : Word} {width : Width} {fault : Fault}
      (hwrite : (machine.bus.write (machine.registers.stackPointer - 4) .long
        machine.pc).result = .error fault) :
      AccessFault machine (.bsr (.branch displacement) width)
        (machine.registers.stackPointer - 4) .long fault
  | pop {fault : Fault}
      (hread : (machine.bus.read machine.registers.stackPointer .long).result =
        .error fault) :
      AccessFault machine .rts machine.registers.stackPointer .long fault

/-- The fault of an instruction on a machine, if it has any. -/
inductive Faults (machine : Machine) (instruction : Instruction) :
    Fault → Prop
  | inoperable (hinoperable : instruction.Inoperable) :
      Faults machine instruction .unsupportedOperand
  | unmodelled (hunmodelled : instruction.Unmodelled machine.sr) :
      Faults machine instruction (.unsupportedInstruction machine.ir)
  | access {address : Address} {width : Width} {fault : Fault}
      (haccess : AccessFault machine instruction address width fault) :
      Faults machine instruction fault

/-- The instructions that succeed on every machine with this status. -/
inductive Unfailing (status : Status) : Instruction → Prop
  | nop : Unfailing status .nop
  | moveToSr (value : Word) : Unfailing status (.moveToSr value)
  | stop (value : Word) : Unfailing status (.stop value)
  | bne (target : Operand) (width : Width) :
      Unfailing status (.bne target width)
  | beq (target : Operand) (width : Width) :
      Unfailing status (.beq target width)
  | lea {target : Operand} {destination : Register}
      (hoperable : ¬ Inoperable (.lea target destination)) :
      Unfailing status (.lea target destination)
  | andi (source : Operand) (name : Register) :
      Unfailing status (.andi source (.register name) .byte)
  | subq (data : Operand) (name : Register) :
      Unfailing status (.subq data (.register name) .long)
  | dbcc {condition : Condition} (counter : Register) (displacement : Word)
      (hends : condition.holds status = false) :
      Unfailing status (.dbcc condition counter displacement)

/-- A result keeps its fault when its value is dropped. -/
theorem error_of_map {α : Type} {result : Except Fault α} {fault : Fault}
    (hresult : result.map (fun _ => ()) = .error fault) :
    result = .error fault := by
  cases result with
  | ok value => cases hresult
  | error cause =>
      cases hresult
      rfl

section Results

variable {machine : Machine} {width : Width} {source destination : Operand}
  {fault : Fault}

/-- Only the operand of a test can fault. -/
theorem result_executeTst (target : Operand) (width : Width)
    (machine : Machine) :
    (executeTst target width machine).result =
      (target.load width machine).result.map fun _ => () :=
  result_bind_settles (fun _ =>
    (settles_advance target width).bind fun _ => settles_update _) machine

theorem result_load {operand : Operand} {address : Address}
    (hplace : operand.place? machine.registers = some address) :
    (operand.load width machine).result =
      (machine.bus.read address width).result := by
  cases operand with
  | absolute | indirect | displaced =>
      cases hplace
      rfl
  | immediate | register | pcDisplaced | branch => cases hplace

theorem result_moveValue {address : Address}
    (hplace : source.place? machine.registers = some address) :
    (moveValue source width machine).result =
      (machine.bus.read address width).result := by
  cases source with
  | absolute | indirect | displaced => exact result_load hplace
  | immediate | register | pcDisplaced | branch => cases hplace

/-- Once its source has been read, only the access of a move can fault. -/
theorem result_executeMove {value : Long}
    (hvalue : (moveValue source width machine).result = .ok value) :
    (executeMove source destination width machine).result =
      (storeAt destination
        (destination.placeAfter? source width machine.registers) width value
        machine).result.map fun _ => () := by
  rw [executeMove_of_value hvalue, Outcome.result_after]
  exact result_bind_settles (fun _ => settles_update _) machine

theorem result_storeAt {address : Address} {value : Long}
    (hplace : destination.placeAfter? source width machine.registers =
      some address) :
    (storeAt destination (some address) width value machine).result =
      (machine.bus.write address width value).result.map fun _ => () := by
  have hwritten := result_writeMemory address width value machine
  cases destination with
  | absolute | indirect | displaced => exact hwritten
  | immediate | register | pcDisplaced | branch => cases hplace

theorem result_of_inoperable {instruction : Instruction}
    (hinoperable : instruction.Inoperable) (machine : Machine) :
    (instruction.execute machine).result = .error .unsupportedOperand := by
  cases hinoperable <;> rfl

theorem result_executeAndi_unsupported {source destination : Operand}
    (hform : width ≠ .byte ∨ ∀ name, destination ≠ .register name) :
    (executeAndi source destination width machine).result =
      .error (.unsupportedInstruction machine.ir) := by
  unfold executeAndi
  split
  · rcases hform with hwidth | hdestination
    · exact absurd rfl hwidth
    · exact absurd rfl (hdestination _)
  · rfl

theorem result_executeSubq_unsupported {data destination : Operand}
    (hform : width ≠ .long ∨ ∀ name, destination ≠ .register name) :
    (executeSubq data destination width machine).result =
      .error (.unsupportedInstruction machine.ir) := by
  unfold executeSubq
  split
  · rcases hform with hwidth | hdestination
    · exact absurd rfl hwidth
    · exact absurd rfl (hdestination _)
  · rfl

theorem result_executeDbcc (condition : Condition) (counter : Register)
    (displacement : Word) (machine : Machine) :
    (executeDbcc condition counter displacement machine).result =
      if condition.holds machine.sr then
        .error (.unsupportedInstruction machine.ir)
      else .ok () := by
  rw [executeDbcc, bind_apply, current_apply, Outcome.andThen_ok]
  cases condition.holds machine.sr with
  | true => rfl
  | false =>
      rw [if_neg Bool.false_ne_true, if_neg Bool.false_ne_true, bind_apply,
        writeRegister_apply, Outcome.andThen_ok]
      split <;> rfl

theorem result_of_unmodelled {instruction : Instruction}
    (hunmodelled : instruction.Unmodelled machine.sr) :
    (instruction.execute machine).result =
      .error (.unsupportedInstruction machine.ir) := by
  cases hunmodelled with
  | movePcDisplaced => rfl
  | andi source hform => exact result_executeAndi_unsupported hform
  | subq data hform => exact result_executeSubq_unsupported hform
  | loop counter displacement hholds =>
      rw [execute, result_executeDbcc, if_pos hholds]

theorem result_of_accessFault {instruction : Instruction} {address : Address}
    (hnumbered : instruction.Numbered)
    (haccess : AccessFault machine instruction address width fault) :
    (instruction.execute machine).result = .error fault := by
  cases haccess with
  | tested hplace hread =>
      rw [execute, result_executeTst, result_load hplace, hread]
      rfl
  | source hplace hread =>
      rw [execute, executeMove_of_fault ((result_moveValue hplace).trans hread)]
  | @destination source destination width value address fault hvalue hplace
      hwrite =>
      have hsource := hnumbered source (by simp [operands])
      have hdestination := hnumbered destination (by simp [operands])
      have hafter := (placeAfter?_eq_place? hsource hdestination width
        machine.registers).trans hplace
      rw [execute, result_executeMove hvalue, hafter, result_storeAt hafter,
        hwrite]
      rfl
  | push hwrite =>
      rw [execute, result_executeBsr, hwrite]
      rfl
  | pop hread =>
      rw [execute, result_executeRts, hread]
      rfl

/-- Each way of faulting has its fault. -/
theorem result_of_faults {instruction : Instruction}
    (hnumbered : instruction.Numbered)
    (hfaults : Faults machine instruction fault) :
    (instruction.execute machine).result = .error fault := by
  cases hfaults with
  | inoperable hinoperable => exact result_of_inoperable hinoperable machine
  | unmodelled hunmodelled => exact result_of_unmodelled hunmodelled
  | access haccess => exact result_of_accessFault hnumbered haccess

end Results

section Decoded

variable {bus : Bus} {place place' : Address} {words words' : Nat}
  {field field' : OperandField} {machine : Machine} {width : Width}
  {target source destination : Operand} {fault : Fault}

theorem faults_of_executeTst
    (hselects : Selects bus place width field target words)
    (hresult : (executeTst target width machine).result = .error fault) :
    Faults machine (.tst target width) fault := by
  rw [result_executeTst] at hresult
  have hload := error_of_map hresult
  cases hselects with
  | dataRegister | addressRegister => cases hload
  | indirect | postIncrement | displaced | absolute =>
      exact .access (.tested rfl hload)
  | pcDisplaced =>
      cases hload
      exact .inoperable (.tstPcDisplaced _ _)
  | byteImmediate | wordImmediate | longImmediate =>
      cases hload
      exact .inoperable (.tstImmediate _ _)

theorem faults_of_executeLea {name : Register}
    (hselects : Selects bus place width field target words)
    (hresult : (executeLea target name machine).result = .error fault) :
    Faults machine (.lea target name) fault := by
  cases hselects with
  | indirect | displaced | absolute | pcDisplaced => cases hresult
  | dataRegister | addressRegister =>
      cases hresult
      exact .inoperable (.leaRegister _ _)
  | postIncrement =>
      cases hresult
      exact .inoperable (.leaPostIncrement _ _)
  | byteImmediate | wordImmediate | longImmediate =>
      cases hresult
      exact .inoperable (.leaImmediate _ _)

/-- The value of a move is refused by the bus or not modelled. -/
theorem faults_of_moveValue
    (hselects : Selects bus place width field source words)
    (hvalue : (moveValue source width machine).result = .error fault) :
    Faults machine (.move source destination width) fault := by
  cases hselects with
  | dataRegister | addressRegister => cases hvalue
  | byteImmediate | wordImmediate | longImmediate => cases hvalue
  | indirect | postIncrement | displaced | absolute =>
      exact .access (.source rfl hvalue)
  | pcDisplaced =>
      cases hvalue
      exact .unmodelled (.movePcDisplaced _ _ _)

/-- The access of a move is refused by the bus, since the destinations that
are decoded are registers or stand in memory. -/
theorem faults_of_storeAt {value : Long}
    (hsource : Selects bus place width field source words)
    (hlegal : field'.Legal .destination)
    (hdestination : Selects bus place' width field' destination words')
    (hvalue : (moveValue source width machine).result = .ok value)
    (hstore : (storeAt destination
      (destination.placeAfter? source width machine.registers) width value
      machine).result = .error fault) :
    Faults machine (.move source destination width) fault := by
  have hrefused : ∀ address,
      destination.placeAfter? source width machine.registers = some address →
        Faults machine (.move source destination width) fault := by
    intro address hafter
    have hplace := (placeAfter?_eq_place? (numbered_of_selects hsource)
      (numbered_of_selects hdestination) width machine.registers).symm.trans
        hafter
    rw [hafter, result_storeAt hafter] at hstore
    exact .access (.destination hvalue hplace (error_of_map hstore))
  cases hdestination with
  | dataRegister | addressRegister => cases hstore
  | indirect | postIncrement | displaced | absolute => exact hrefused _ rfl
  | pcDisplaced | byteImmediate | wordImmediate | longImmediate =>
      exact absurd hlegal (by decide)

theorem faults_of_executeMove
    (hsource : Selects bus place width field source words)
    (hlegal : field'.Legal .destination)
    (hdestination : Selects bus place' width field' destination words')
    (hresult : (executeMove source destination width machine).result =
      .error fault) :
    Faults machine (.move source destination width) fault := by
  cases hvalue : (moveValue source width machine).result with
  | ok value =>
      rw [result_executeMove hvalue] at hresult
      exact faults_of_storeAt hsource hlegal hdestination hvalue
        (error_of_map hresult)
  | error cause =>
      rw [executeMove_of_fault hvalue] at hresult
      cases hresult
      exact faults_of_moveValue hsource hvalue

theorem faults_of_executeAndi {mask : Long}
    (hresult : (executeAndi (.immediate mask) destination width
      machine).result = .error fault) :
    Faults machine (.andi (.immediate mask) destination width) fault := by
  by_cases hform : width ≠ .byte ∨ ∀ name, destination ≠ .register name
  · rw [result_executeAndi_unsupported hform] at hresult
    cases hresult
    exact .unmodelled (.andi _ hform)
  · push Not at hform
    obtain ⟨rfl, name, rfl⟩ := hform
    cases hresult

theorem faults_of_executeSubq {amount : Long}
    (hresult : (executeSubq (.immediate amount) destination width
      machine).result = .error fault) :
    Faults machine (.subq (.immediate amount) destination width) fault := by
  by_cases hform : width ≠ .long ∨ ∀ name, destination ≠ .register name
  · rw [result_executeSubq_unsupported hform] at hresult
    cases hresult
    exact .unmodelled (.subq _ hform)
  · push Not at hform
    obtain ⟨rfl, name, rfl⟩ := hform
    cases hresult

theorem faults_of_executeDbcc {condition : Condition} {counter : Register}
    {displacement : Word}
    (hresult : (executeDbcc condition counter displacement machine).result =
      .error fault) :
    Faults machine (.dbcc condition counter displacement) fault := by
  rw [result_executeDbcc] at hresult
  split at hresult
  case isTrue hholds =>
    cases hresult
    exact .unmodelled (.loop _ _ hholds)
  case isFalse => cases hresult

theorem result_executeBranch (condition : Condition) (displacement : Word)
    (width : Width) (machine : Machine) :
    (executeBranch condition (.branch displacement) width machine).result =
      .ok () := by
  simp only [executeBranch, branchAddress, bind_apply, current_apply,
    Outcome.andThen_ok, Outcome.after_nil, pure_apply]
  split <;> rfl

theorem faults_of_branch {kind : BranchKind} {displacement : Word}
    (hresult : ((kind.instruction (.branch displacement) width).execute
      machine).result = .error fault) :
    Faults machine (kind.instruction (.branch displacement) width) fault := by
  cases kind with
  | subroutine =>
      rw [BranchKind.instruction, execute, result_executeBsr] at hresult
      exact .access (.push (error_of_map hresult))
  | notEqual | equal =>
      rw [BranchKind.instruction, execute, result_executeBranch] at hresult
      cases hresult

theorem exists_immediate_of_selects {value : Operand}
    (hselects : Selects bus place width .immediate value words) :
    ∃ whole, value = .immediate whole := by
  cases hselects <;> exact ⟨_, rfl⟩

/-- A decoded instruction faults in one of the ways there are. -/
theorem faults_of_completes {opcode : Opcode} {instruction : Instruction}
    (hcompletes : Completes bus place opcode instruction words)
    (hresult : (instruction.execute machine).result = .error fault) :
    Faults machine instruction fault := by
  cases hcompletes with
  | nop | stop hword | moveToSr hword => cases hresult
  | rts =>
      rw [execute, result_executeRts] at hresult
      exact .access (.pop (error_of_map hresult))
  | tst hlegal hsource => exact faults_of_executeTst hsource hresult
  | move hlegal hsource hlegal' hdestination =>
      exact faults_of_executeMove hsource hlegal' hdestination hresult
  | shortBranch kind hshort => exact faults_of_branch hresult
  | longBranch kind hword => exact faults_of_branch hresult
  | lea number hlegal hsource => exact faults_of_executeLea hsource hresult
  | andi hvalue hlegal hdestination =>
      obtain ⟨mask, rfl⟩ := exists_immediate_of_selects hvalue
      exact faults_of_executeAndi hresult
  | dbcc condition number hword => exact faults_of_executeDbcc hresult
  | subq data hlegal hdestination => exact faults_of_executeSubq hresult

theorem execute_eq_error_iff {decoded : Decoded}
    (hdecode : (bus.decode place).result = .ok decoded) :
    (decoded.instruction.execute machine).result = .error fault ↔
      Faults machine decoded.instruction fault := by
  obtain ⟨-, -, hcompletes⟩ := (Bus.decode_eq_ok_iff _ _ _).mp hdecode
  exact ⟨faults_of_completes hcompletes,
    result_of_faults (numbered_of_completes hcompletes)⟩

end Decoded

section Ways

variable {machine : Machine} {instruction : Instruction} {fault : Fault}

theorem AccessFault.ofAccess {address : Address} {width : Width}
    (haccess : AccessFault machine instruction address width fault) :
    fault.OfAccess address width := by
  cases haccess with
  | tested hplace hread => exact Bus.ofAccess_of_read hread
  | source hplace hread => exact Bus.ofAccess_of_read hread
  | destination hvalue hplace hwrite => exact Bus.ofAccess_of_write hwrite
  | push hwrite => exact Bus.ofAccess_of_write hwrite
  | pop hread => exact Bus.ofAccess_of_read hread

theorem faults_unsupportedOperand_iff :
    Faults machine instruction .unsupportedOperand ↔
      instruction.Inoperable := by
  constructor
  · intro hfaults
    cases hfaults with
    | inoperable hinoperable => exact hinoperable
    | access haccess => cases haccess.ofAccess
  · exact .inoperable

theorem faults_unsupportedInstruction_iff (opcode : Word) :
    Faults machine instruction (.unsupportedInstruction opcode) ↔
      opcode = machine.ir ∧ instruction.Unmodelled machine.sr := by
  constructor
  · intro hfaults
    cases hfaults with
    | unmodelled hunmodelled => exact ⟨rfl, hunmodelled⟩
    | access haccess => cases haccess.ofAccess
  · rintro ⟨rfl, hunmodelled⟩
    exact .unmodelled hunmodelled

/-- No way of faulting is open to these instructions. -/
theorem Unfailing.not_faults (hunfailing : instruction.Unfailing machine.sr) :
    ¬ Faults machine instruction fault := by
  intro hfaults
  cases hfaults with
  | inoperable hinoperable =>
      cases hunfailing with
      | lea hoperable => exact hoperable hinoperable
      | _ => cases hinoperable
  | unmodelled hunmodelled =>
      cases hunmodelled with
      | movePcDisplaced => cases hunfailing
      | andi source hform =>
          cases hunfailing
          exact hform.elim (absurd rfl) fun hother => hother _ rfl
      | subq data hform =>
          cases hunfailing
          exact hform.elim (absurd rfl) fun hother => hother _ rfl
      | loop counter displacement hholds =>
          cases hunfailing with
          | dbcc _ _ hends =>
              rw [hends] at hholds
              cases hholds
  | access haccess => cases hunfailing <;> cases haccess

end Ways

end Instruction

/-- The fault with which a decoded instruction ends on any machine, where it
ends with one: of an operand it cannot work on, of a form that is not there, or
of an access that the bus refuses. -/
theorem Bus.execute_of_decode {bus : Bus} {pc : Address} {decoded : Decoded}
    (hdecode : (bus.decode pc).result = .ok decoded) (machine : Machine) :
    let instruction := decoded.instruction
    let result := (instruction.execute machine).result
    (result = .error .unsupportedOperand ↔ instruction.Inoperable) ∧
    (∀ opcode, result = .error (.unsupportedInstruction opcode) ↔
      opcode = machine.ir ∧ instruction.Unmodelled machine.sr) ∧
    (¬ instruction.Inoperable → ¬ instruction.Unmodelled machine.sr →
      result = .ok () ∨
        ∃ address width fault,
          instruction.AccessFault machine address width fault ∧
          fault.OfAccess address width ∧ result = .error fault) ∧
    (∀ address width fault,
      instruction.AccessFault machine address width fault →
        result = .error fault) ∧
    (instruction.Unfailing machine.sr → result = .ok ()) := by
  intro instruction result
  have herror : ∀ fault, result = .error fault ↔
      instruction.Faults machine fault :=
    fun fault => Instruction.execute_eq_error_iff hdecode
  refine ⟨?_, fun opcode => ?_, fun hoperable hmodelled => ?_,
    fun address width fault haccess => ?_, fun hunfailing => ?_⟩
  · rw [herror, Instruction.faults_unsupportedOperand_iff]
  · rw [herror, Instruction.faults_unsupportedInstruction_iff]
  · cases hresult : result with
    | ok done => exact .inl rfl
    | error fault =>
        cases (herror fault).mp hresult with
        | inoperable hinoperable => exact absurd hinoperable hoperable
        | unmodelled hunmodelled => exact absurd hunmodelled hmodelled
        | access haccess =>
            exact .inr ⟨_, _, fault, haccess, haccess.ofAccess, rfl⟩
  · exact (herror fault).mpr (.access haccess)
  · cases hresult : result with
    | ok done => rfl
    | error fault =>
        exact absurd ((herror fault).mp hresult) hunfailing.not_faults

namespace ExecutabilityWitness

/-- A test of the word behind it, and a loop until the zero flag is set. -/
def code : Bus :=
  Bus.powerOn
    ⟨#[0x4A, 0x7A, 0x00, 0x02, 0x57, 0xC8, 0xFF, 0xFE], by decide⟩ 0

def test : Instruction := .tst (.pcDisplaced 2) .word

def loop : Instruction := .dbcc .equal (.data 0) 0xFFFE

/-- The opcode of the loop has been fetched, with this status. -/
def reached (status : Status) : Machine :=
  { Machine.blank code with sr := status, ir := 0x57C8 }

theorem execute_of_decode_loop :
    ((code.decode 0).result = .ok ⟨test, 4⟩ ∧
      (test.execute (reached 0)).result = .error .unsupportedOperand) ∧
    (code.decode 4).result = .ok ⟨loop, 4⟩ ∧
      (loop.execute (reached 4)).result =
        .error (.unsupportedInstruction 0x57C8) ∧
      (loop.execute (reached 0)).result = .ok () := by
  have htest : (code.decode 0).result = .ok ⟨test, 4⟩ := rfl
  have hloop : (code.decode 4).result = .ok ⟨loop, 4⟩ := rfl
  refine ⟨⟨htest, ?_⟩, hloop, ?_, ?_⟩
  · exact (Bus.execute_of_decode htest (reached 0)).1.mpr
      (.tstPcDisplaced 2 .word)
  · exact ((Bus.execute_of_decode hloop (reached 4)).2.1 0x57C8).mpr
      ⟨rfl, .loop _ _ rfl⟩
  · exact (Bus.execute_of_decode hloop (reached 0)).2.2.2.2 (.dbcc _ _ rfl)

end ExecutabilityWitness

end MegaDrive
