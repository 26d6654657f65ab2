/-
Moves in two halves: first into a data register and then out of it.  A move is
said once by the value that it takes, the access that it makes and the
registers that it leaves, and the halves are put together from that.  Main
statement: both halves together end as the whole move does and leave the same
machine, apart from the data register between them.
-/
import MegaDrive.Proofs.StepFrame

namespace MegaDrive

/-- A load gives nothing above its width. -/
theorem BigEndian.truncate_of_load? {n : Nat} {bytes : Vector Byte n}
    {offset : Nat} {width : Width} {value : Long}
    (hload : load? bytes offset width = some value) :
    width.truncate value = value := by
  have hfits := fits_of_load? hload
  cases width with
  | byte =>
      rw [load?_byte bytes hfits] at hload
      cases hload
      exact Width.truncate_setWidth _ _ (Nat.le_refl _)
  | word =>
      rw [load?_word bytes hfits] at hload
      cases hload
      exact Width.truncate_setWidth _ _ (Nat.le_refl _)
  | long =>
      have hwhole := Width.truncate_setWidth .long value (Nat.le_refl _)
      rwa [BitVec.setWidth_eq] at hwhole

theorem Storage.truncate_of_load {n : Nat} {bytes : Vector Byte n}
    {start : Nat} {address : Address} {width : Width} {value : Long}
    (hload : load bytes start address width = .ok value) :
    width.truncate value = value := by
  obtain ⟨-, hvalue⟩ := (load_eq_ok_iff _ _ _ _ _).mp hload
  exact BigEndian.truncate_of_load? hvalue

theorem Bus.truncate_of_read {bus : Bus} {address : Address} {width : Width}
    {value : Long} (hread : (bus.read address width).result = .ok value) :
    width.truncate value = value := by
  unfold read at hread
  split at hread
  · exact Storage.truncate_of_load hread
  · exact Storage.truncate_of_load hread
  · cases hread
    exact width.truncate_truncate _
  all_goals cases hread

namespace RegisterFile

variable {register : Register} {left right : RegisterFile}

/-- Two register files differ in one register at most. -/
def AgreeBut (register : Register) (left right : RegisterFile) : Prop :=
  ∀ other, ¬ register.Same other → left.get other = right.get other

theorem agreeBut_write (file : RegisterFile) (register : Register)
    (width : Width) (value : Long) :
    (file.write register width value).AgreeBut register file := by
  intro other hother
  rw [get_write, if_neg hother]

theorem AgreeBut.stepping (hagree : left.AgreeBut register right)
    (operand : Operand) (width : Width) :
    (operand.stepping width left).AgreeBut register
      (operand.stepping width right) := by
  intro other hother
  rw [Operand.get_stepping, Operand.get_stepping, hagree other hother]

theorem AgreeBut.settling (hagree : left.AgreeBut register right)
    (destination : Operand) (width : Width) (value : Long) :
    (Instruction.settling destination width value left).AgreeBut register
      (Instruction.settling destination width value right) := by
  intro other hother
  cases destination with
  | register name =>
      rw [Instruction.settling, Instruction.settling, get_write, get_write,
        hagree other hother]
  | absolute | immediate | indirect | displaced | pcDisplaced | branch =>
      exact hagree other hother

/-- Operands in memory are found through address registers. -/
theorem AgreeBut.place? {number : Byte}
    (hagree : left.AgreeBut (.data number) right) (operand : Operand) :
    operand.place? left = operand.place? right := by
  have hbase : ∀ base, left.base base = right.base base :=
    fun base => hagree (.address base) id
  cases operand with
  | indirect base postIncrement => rw [Operand.place?, hbase]; rfl
  | displaced base displacement => rw [Operand.place?, hbase]; rfl
  | absolute | immediate | register | pcDisplaced | branch => rfl

end RegisterFile

/-- The same machine with other registers. -/
def Machine.withRegisters (machine : Machine) (file : RegisterFile) : Machine :=
  { machine with registers := file }

/-- A write does not look at registers. -/
theorem Exec.writeMemory_withRegisters (address : Address) (width : Width)
    (value : Long) (machine : Machine) (file : RegisterFile) :
    writeMemory address width value (machine.withRegisters file) =
      ⟨(writeMemory address width value machine).result,
        (writeMemory address width value machine).machine.withRegisters file,
        (writeMemory address width value machine).events⟩ := by
  cases hresult : (machine.bus.write address width value).result with
  | ok bus =>
      have hother : ((machine.withRegisters file).bus.write address width
        value).result = .ok bus := hresult
      rw [writeMemory_of_ok hresult, writeMemory_of_ok hother]
      rfl
  | error fault =>
      have hother : ((machine.withRegisters file).bus.write address width
        value).result = .error fault := hresult
      rw [writeMemory_of_error hresult, writeMemory_of_error hother]
      rfl

/-- The same access with other registers, and a change of registers after it on
both sides: what the changes leave is all that can differ. -/
theorem Outcome.agreeBut_around {register : Register} {stored : Outcome Unit}
    {file : RegisterFile} {first second : RegisterFile → RegisterFile}
    (hagree : (first file).AgreeBut register
      (second stored.machine.registers)) (events : List Event) :
    let left := ((Outcome.mk stored.result (stored.machine.withRegisters file)
      stored.events).andThen fun _ => Exec.updateRegisters first).after events
    let right :=
      (stored.andThen fun _ => Exec.updateRegisters second).after events
    left.result = right.result ∧
      (right.result = .ok () →
        left.machine = right.machine.withRegisters left.machine.registers ∧
          left.machine.registers.AgreeBut register
            right.machine.registers) := by
  obtain ⟨result, reached, noted⟩ := stored
  cases result with
  | error fault => exact ⟨rfl, nofun⟩
  | ok done => exact ⟨rfl, fun _ => ⟨rfl, hagree⟩⟩

namespace Instruction

open Exec Operand

section Moves

variable {source destination : Operand} {width : Width} {value : Long}
  {machine : Machine}

/-- A move takes no more than its width from its source. -/
theorem truncate_of_moveValue
    (hvalue : (moveValue source width machine).result = .ok value) :
    width.truncate value = value := by
  cases source with
  | immediate whole =>
      cases hvalue
      exact width.truncate_truncate whole
  | register name =>
      cases hvalue
      exact width.truncate_truncate _
  | absolute | indirect | displaced => exact Bus.truncate_of_read hvalue
  | pcDisplaced | branch => cases hvalue

/-- The access of a move that has come to this place. -/
def storeAt (destination : Operand) (place : Option Address) (width : Width)
    (value : Long) : Exec Unit :=
  match destination, place with
  | .register _, _ => pure ()
  | _, some address => writeMemory address width value
  | _, none => unsupported

theorem moveStore_apply (source destination : Operand) (width : Width)
    (value : Long) (machine : Machine) :
    moveStore source destination width value machine =
      storeAt destination
        (destination.placeAfter? source width machine.registers) width value
        machine := by
  cases destination <;> rfl

/-- What follows the access of a move works on registers alone. -/
theorem steps_then_settle (source destination : Operand) (width : Width)
    (value : Long) :
    (do
      source.advance width
      destination.advance width
      moveSettle destination width value : Exec Unit) =
      updateRegisters (movedRegisters source destination width value) := by
  funext machine
  simp only [bind_apply, advance_apply, Outcome.andThen_ok, Outcome.after_nil,
    moveSettle_apply]
  rfl

theorem executeMove_of_value
    (hvalue : (moveValue source width machine).result = .ok value) :
    executeMove source destination width machine =
      ((storeAt destination
          (destination.placeAfter? source width machine.registers) width value
          machine).andThen fun _ =>
        updateRegisters
          (movedRegisters source destination width value)).after
        (moveValue source width machine).events := by
  rw [executeMove, bind_apply, Outcome.andThen_of_ok hvalue,
    steady_moveValue source width machine, bind_apply, moveStore_apply,
    steps_then_settle]

theorem executeMove_of_fault {fault : Fault}
    (hvalue : (moveValue source width machine).result = .error fault) :
    executeMove source destination width machine =
      ⟨.error fault, machine, (moveValue source width machine).events⟩ := by
  rw [executeMove, bind_apply, Outcome.andThen_of_error hvalue,
    steady_moveValue source width machine]

theorem storeAt_withRegisters (destination : Operand) (place : Option Address)
    (width : Width) (value : Long) (machine : Machine) (file : RegisterFile) :
    storeAt destination place width value (machine.withRegisters file) =
      ⟨(storeAt destination place width value machine).result,
        (storeAt destination place width value machine).machine.withRegisters
          file,
        (storeAt destination place width value machine).events⟩ := by
  unfold storeAt
  split
  · rfl
  · exact writeMemory_withRegisters _ width value machine file
  · rfl

theorem registers_storeAt (destination : Operand) (place : Option Address)
    (width : Width) (value : Long) (machine : Machine) :
    (storeAt destination place width value machine).machine.registers =
      machine.registers := by
  have hsame := congrArg (fun outcome => outcome.machine.registers)
    (storeAt_withRegisters destination place width value machine
      machine.registers)
  exact hsame

/-- A source in a register steps nothing that its destination could see. -/
theorem placeAfter?_register (destination : Operand) (name : Register)
    (width : Width) (file : RegisterFile) :
    destination.placeAfter? (.register name) width file =
      destination.place? file := by
  cases destination <;> rfl

/-- The registers between the two halves of a move. -/
def halfway (source : Operand) (scratch : Byte) (width : Width) (value : Long)
    (file : RegisterFile) : RegisterFile :=
  (source.stepping width file).write (.data scratch) width value

theorem read_halfway (source : Operand) (scratch : Byte)
    (file : RegisterFile) (hvalue : width.truncate value = value) :
    (halfway source scratch width value file).read (.data scratch) width =
      value := by
  have hsame : (Register.data scratch).Same (.data scratch) := rfl
  rw [RegisterFile.read, halfway, RegisterFile.get_write, if_pos hsame,
    Width.truncate_merge, hvalue]

/-- The second half of a move comes to the place to which the whole move
comes. -/
theorem place?_halfway (hsource : source.Numbered)
    (hdestination : destination.Numbered) (scratch : Byte) (width : Width)
    (value : Long) (file : RegisterFile) :
    destination.place? (halfway source scratch width value file) =
      destination.placeAfter? source width file := by
  have hagree := (source.stepping width file).agreeBut_write (.data scratch)
    width value
  rw [halfway, hagree.place? destination,
    placeAfter?_eq_place? hsource hdestination]

theorem agreeBut_movedRegisters (source destination : Operand) (scratch : Byte)
    (width : Width) (value : Long) (file : RegisterFile) :
    (movedRegisters (.register (.data scratch)) destination width value
      (halfway source scratch width value file)).AgreeBut (.data scratch)
      (movedRegisters source destination width value file) := by
  have hagree := (source.stepping width file).agreeBut_write (.data scratch)
    width value
  exact (hagree.stepping destination width).settling destination width value

/-- The first half of a move makes no access. -/
theorem executeMove_into (scratch : Byte)
    (hvalue : (moveValue source width machine).result = .ok value) :
    executeMove source (.register (.data scratch)) width machine =
      ⟨.ok (),
        machine.withRegisters
          (halfway source scratch width value machine.registers),
        (moveValue source width machine).events⟩ := by
  rw [executeMove_of_value hvalue, storeAt, pure_apply, Outcome.andThen_ok,
    Outcome.after_nil, updateRegisters_apply, Outcome.after_mk,
    List.append_nil]
  rfl

/-- The second half of a move does what is left of the whole. -/
theorem executeMove_out_of (hsource : source.Numbered)
    (hdestination : destination.Numbered) (scratch : Byte)
    (hvalue : width.truncate value = value) :
    let file := halfway source scratch width value machine.registers
    executeMove (.register (.data scratch)) destination width
      (machine.withRegisters file) =
      (storeAt destination
          (destination.placeAfter? source width machine.registers) width value
          (machine.withRegisters file)).andThen
        fun _ => updateRegisters
          (movedRegisters (.register (.data scratch)) destination width
            value) := by
  intro file
  have hread : (moveValue (.register (.data scratch)) width
      (machine.withRegisters file)).result = .ok value :=
    congrArg Except.ok (read_halfway source scratch machine.registers hvalue)
  have hplace : destination.placeAfter? (.register (.data scratch)) width
      (machine.withRegisters file).registers =
      destination.placeAfter? source width machine.registers :=
    (placeAfter?_register destination _ width file).trans
      (place?_halfway hsource hdestination scratch width value _)
  rw [executeMove_of_value hread, hplace]
  rfl

/-- The two halves of a move whose source gives a value: the access of the
whole move stands between what they do to the registers. -/
theorem halves_of_value (hsource : source.Numbered)
    (hdestination : destination.Numbered) (scratch : Byte)
    (hvalue : (moveValue source width machine).result = .ok value) :
    let file := halfway source scratch width value machine.registers
    let stored := storeAt destination
      (destination.placeAfter? source width machine.registers) width value
      machine
    (executeMove source (.register (.data scratch)) width >>= fun _ =>
      executeMove (.register (.data scratch)) destination width) machine =
      ((Outcome.mk stored.result (stored.machine.withRegisters file)
        stored.events).andThen fun _ =>
          updateRegisters
            (movedRegisters (.register (.data scratch)) destination width
              value)).after (moveValue source width machine).events := by
  intro file stored
  rw [bind_apply, executeMove_into scratch hvalue, Outcome.andThen_ok,
    executeMove_out_of hsource hdestination scratch
      (truncate_of_moveValue hvalue), storeAt_withRegisters]

/-- A move through a data register: both halves together end as the whole move
does, with the same fault if it faults, and leave the same machine if it
succeeds, apart from that data register. -/
theorem move_through_data_register (hsource : source.Numbered)
    (hdestination : destination.Numbered) (width : Width) (scratch : Byte)
    (machine : Machine) :
    let through : Operand := .register (.data scratch)
    let whole := (move source destination width).execute machine
    let halves := ((move source through width).execute >>= fun _ =>
      (move through destination width).execute) machine
    halves.result = whole.result ∧
      (whole.result = .ok () →
        halves.machine =
            whole.machine.withRegisters halves.machine.registers ∧
          halves.machine.registers.AgreeBut (.data scratch)
            whole.machine.registers) := by
  intro through whole halves
  cases hvalue : (moveValue source width machine).result with
  | error fault =>
      have hfirst : executeMove source through width machine = _ :=
        executeMove_of_fault hvalue
      have hwhole : whole = _ := executeMove_of_fault hvalue
      have hhalves : halves.result = .error fault := by
        change ((executeMove source through width machine).andThen _).result = _
        rw [hfirst, Outcome.andThen_error]
      rw [hwhole, hhalves]
      exact ⟨rfl, nofun⟩
  | ok value =>
      have hwhole : whole = _ := executeMove_of_value hvalue
      have hhalves : halves = _ :=
        halves_of_value hsource hdestination scratch hvalue
      rw [hwhole, hhalves]
      apply Outcome.agreeBut_around
      rw [registers_storeAt]
      exact agreeBut_movedRegisters source destination scratch width value
        machine.registers

end Moves

end Instruction

namespace MoveFactoringWitness

open Instruction

/-- An address register points into the controller block, from which every
word that is read is 0x5345.  The code is the move itself. -/
def ready : Machine :=
  (Machine.blank (Bus.powerOn ⟨#[0x31, 0x58, 0x3F, 0xFE], by decide⟩
    0x5345)).withRegisters (RegisterFile.cleared.set (.address 0) 0xA10000)

/-- What the register points at, with a step. -/
def ports : Operand := .indirect 0 true

/-- The security latch, as seen from the stepped register. -/
def unlock : Operand := .displaced 0 0x3FFE

/-- The copy in its two halves. -/
def halves : Outcome Unit :=
  ((move ports (.register (.data 3)) .word).execute >>= fun _ =>
    (move (.register (.data 3)) unlock .word).execute) ready

theorem move_through_data_register_stepping :
    (ports.Numbered ∧ unlock.Numbered) ∧ halves.result = .ok () ∧
      halves.machine.bus.latch = 0x53450000 ∧
      halves.machine.registers.get (.address 0) = 0xA10002 := by
  have hports : ports.Numbered := by
    change (0 : Byte).toNat < 8
    decide
  have hunlock : unlock.Numbered := by
    change (0 : Byte).toNat < 8
    decide
  have hwhole : ((move ports unlock .word).execute ready).result = .ok () := rfl
  obtain ⟨hresult, hsame⟩ :=
    move_through_data_register hports hunlock .word 3 ready
  obtain ⟨hmachine, hregisters⟩ := hsame hwhole
  refine ⟨⟨hports, hunlock⟩, hresult.trans hwhole, ?_, ?_⟩
  · rw [show halves.machine = _ from hmachine]
    rfl
  · have hstepped : ((move ports unlock .word).execute
        ready).machine.registers.get (.address 0) = 0xA10002 := by decide
    exact (hregisters (.address 0) id).trans hstepped

end MoveFactoringWitness

end MegaDrive
