/-
Register numbers count modulo eight.  An instruction may name its registers by
any byte, and every access takes the low three bits of it.  One place compares
two numbers as they stand: a move that asks whether its source has stepped the
base of its destination.  Main statement: an instruction does on every machine
what it does with its numbers reduced, exactly when it is no move that
overlooks such a step.
-/
import MegaDrive.Proofs.MoveFactoring

namespace MegaDrive

namespace Register

/-- The number below eight that selects the same register. -/
def lowest (number : Byte) : Byte := number &&& 7

theorem toNat_lowest (number : Byte) : (lowest number).toNat = slot number :=
  (BitVec.toNat_and number 7).trans
    (Nat.and_two_pow_sub_one_eq_mod number.toNat 3)

@[simp] theorem slot_lowest (number : Byte) :
    slot (lowest number) = slot number := by
  apply Fin.ext
  show (lowest number).toNat % 8 = slot number
  rw [toNat_lowest, Nat.mod_eq_of_lt (slot number).isLt]

theorem lowest_eq_iff (number other : Byte) :
    lowest number = lowest other ↔ slot number = slot other := by
  rw [← BitVec.toNat_inj, toNat_lowest, toNat_lowest, Fin.ext_iff]

/-- The same register under a number below eight. -/
def reduced : Register → Register
  | .data number => .data (lowest number)
  | .address number => .address (lowest number)

end Register

namespace RegisterFile

variable (file : RegisterFile) (register : Register) (number : Byte)
  (width : Width) (value : Long)

@[simp] theorem get_reduced :
    file.get register.reduced = file.get register := by
  cases register <;> simp [Register.reduced, get]

@[simp] theorem set_reduced :
    file.set register.reduced value = file.set register value := by
  cases register <;> simp [Register.reduced, set]

@[simp] theorem read_reduced :
    file.read register.reduced width = file.read register width := by
  rw [read, get_reduced, read]

@[simp] theorem write_reduced :
    file.write register.reduced width value =
      file.write register width value := by
  rw [write, set_reduced, get_reduced, write]

@[simp] theorem base_lowest :
    file.base (Register.lowest number) = file.base number :=
  file.get_reduced (.address number)

@[simp] theorem advance_lowest :
    file.advance (Register.lowest number) width =
      file.advance number width := by
  rw [advance, base_lowest, advance]
  exact file.set_reduced (.address number) _

end RegisterFile

@[simp] theorem Exec.writeRegister_reduced (register : Register)
    (width : Width) (value : Long) :
    writeRegister register.reduced width value =
      writeRegister register width value := by
  funext machine
  rw [writeRegister_apply, writeRegister_apply, RegisterFile.write_reduced]

namespace Operand

/-- The operand with its register number below eight. -/
def reduced : Operand → Operand
  | .register name => .register name.reduced
  | .indirect base postIncrement =>
      .indirect (Register.lowest base) postIncrement
  | .displaced base displacement =>
      .displaced (Register.lowest base) displacement
  | .absolute address => .absolute address
  | .immediate value => .immediate value
  | .pcDisplaced displacement => .pcDisplaced displacement
  | .branch displacement => .branch displacement

/-- The number of the address register through which an operand is found. -/
def base? : Operand → Option Byte
  | .indirect base _ | .displaced base _ => some base
  | _ => none

/-- The operand is found through an address register that `source` steps under
another number, so that a comparison of the numbers misses the step. -/
def Overlooks (destination source : Operand) : Prop :=
  ∃ base stepped, destination.base? = some base ∧
    source.stepped? = some stepped ∧
    Register.slot stepped = Register.slot base ∧ stepped ≠ base

section Reduced

variable (operand source destination : Operand) (width : Width)

theorem stepped?_reduced :
    operand.reduced.stepped? = operand.stepped?.map Register.lowest := by
  cases operand with
  | indirect base postIncrement => cases postIncrement <;> rfl
  | _ => rfl

@[simp] theorem stepping_reduced :
    operand.reduced.stepping width = operand.stepping width := by
  funext file
  rw [stepping, stepped?_reduced, stepping]
  cases operand.stepped? with
  | none => rfl
  | some base => exact file.advance_lowest base width

@[simp] theorem advance_reduced :
    operand.reduced.advance width = operand.advance width := by
  funext machine
  rw [advance_apply, advance_apply, stepping_reduced]

@[simp] theorem load_reduced :
    operand.reduced.load width = operand.load width := by
  funext machine
  cases operand <;> simp [reduced, load]

@[simp] theorem branchAddress_reduced :
    operand.reduced.branchAddress width = operand.branchAddress width := by
  cases operand <;> rfl

variable {source destination}

/-- A comparison of the reduced numbers finds a step that is not overlooked and
no other. -/
theorem baseAfter_reduced (file : RegisterFile) {base : Byte}
    (hseen : ∀ stepped, source.stepped? = some stepped →
      Register.slot stepped = Register.slot base → stepped = base) :
    source.reduced.baseAfter width file (Register.lowest base) =
      source.baseAfter width file base := by
  have hstepped : source.reduced.stepped? = some (Register.lowest base) ↔
      source.stepped? = some base := by
    rw [stepped?_reduced]
    cases hsource : source.stepped? with
    | none => simp
    | some stepped =>
        rw [Option.map_some, Option.some_inj, Option.some_inj,
          Register.lowest_eq_iff]
        exact ⟨hseen stepped hsource, congrArg Register.slot⟩
  rw [baseAfter, file.base_lowest, baseAfter]
  exact if_congr hstepped rfl rfl

theorem placeAfter?_reduced (hsees : ¬ destination.Overlooks source)
    (file : RegisterFile) :
    destination.reduced.placeAfter? source.reduced width file =
      destination.placeAfter? source width file := by
  have hbase : ∀ base, destination.base? = some base →
      source.reduced.baseAfter width file (Register.lowest base) =
        source.baseAfter width file base := by
    intro base hfound
    refine baseAfter_reduced width file fun stepped hstepped hslot => ?_
    by_contra hother
    exact hsees ⟨base, stepped, hfound, hstepped, hslot, hother⟩
  cases destination with
  | indirect base postIncrement => exact congrArg some (hbase base rfl)
  | displaced base displacement =>
      exact congrArg (fun address => some (displace address displacement))
        (hbase base rfl)
  | absolute | immediate | register | pcDisplaced | branch => rfl

end Reduced

end Operand

namespace Instruction

open Exec Operand

/-- The instruction with all its register numbers below eight. -/
def reduced : Instruction → Instruction
  | .nop => .nop
  | .moveToSr value => .moveToSr value
  | .tst target width => .tst target.reduced width
  | .bne target width => .bne target.reduced width
  | .beq target width => .beq target.reduced width
  | .bsr target width => .bsr target.reduced width
  | .lea target destination => .lea target.reduced destination.reduced
  | .move source destination width =>
      .move source.reduced destination.reduced width
  | .andi source destination width =>
      .andi source.reduced destination.reduced width
  | .dbcc condition counter displacement =>
      .dbcc condition counter.reduced displacement
  | .rts => .rts
  | .subq data destination width =>
      .subq data.reduced destination.reduced width
  | .stop value => .stop value

/-- A move whose source steps the base of its destination under another
number. -/
def Overlooks : Instruction → Prop
  | .move source destination _ => destination.Overlooks source
  | _ => False

section Reduced

variable (source destination : Operand) (width : Width) (value : Long)
  (machine : Machine)

@[simp] theorem moveValue_reduced :
    moveValue source.reduced width = moveValue source width := by
  cases source with
  | immediate | pcDisplaced | branch => rfl
  | absolute address => exact Operand.load_reduced (.absolute address) width
  | register name => exact Operand.load_reduced (.register name) width
  | indirect base postIncrement =>
      exact Operand.load_reduced (.indirect base postIncrement) width
  | displaced base displacement =>
      exact Operand.load_reduced (.displaced base displacement) width

theorem storeAt_reduced (place : Option Address) :
    storeAt destination.reduced place width value =
      storeAt destination place width value := by
  cases destination <;> cases place <;> rfl

theorem movedRegisters_reduced (file : RegisterFile) :
    movedRegisters source.reduced destination.reduced width value file =
      movedRegisters source destination width value file := by
  rw [movedRegisters, stepping_reduced, stepping_reduced, movedRegisters]
  cases destination with
  | register name => exact RegisterFile.write_reduced _ name width value
  | absolute | immediate | indirect | displaced | pcDisplaced | branch => rfl

variable {source destination}

theorem executeMove_reduced (hsees : ¬ destination.Overlooks source) :
    executeMove source.reduced destination.reduced width machine =
      executeMove source destination width machine := by
  have hvalue : moveValue source.reduced width machine =
      moveValue source width machine :=
    congrFun (moveValue_reduced source width) machine
  cases hresult : (moveValue source width machine).result with
  | ok value =>
      have hmoved : movedRegisters source.reduced destination.reduced width
          value = movedRegisters source destination width value :=
        funext (movedRegisters_reduced source destination width value)
      rw [executeMove_of_value (hvalue ▸ hresult),
        executeMove_of_value hresult, hvalue, storeAt_reduced,
        placeAfter?_reduced width hsees, hmoved]
  | error fault =>
      rw [executeMove_of_fault (hvalue ▸ hresult),
        executeMove_of_fault hresult, hvalue]

end Reduced

theorem executeLea_reduced (target : Operand) (destination : Register)
    (machine : Machine) :
    executeLea target.reduced destination.reduced machine =
      executeLea target destination machine := by
  cases target with
  | indirect base postIncrement =>
      cases postIncrement <;> simp [Operand.reduced, executeLea]
  | _ => simp [Operand.reduced, executeLea]

theorem executeAndi_reduced (source destination : Operand) (width : Width)
    (machine : Machine) :
    executeAndi source.reduced destination.reduced width machine =
      executeAndi source destination width machine := by
  cases source <;> cases destination <;> cases width <;>
    simp [Operand.reduced, executeAndi]

theorem executeSubq_reduced (data destination : Operand) (width : Width)
    (machine : Machine) :
    executeSubq data.reduced destination.reduced width machine =
      executeSubq data destination width machine := by
  cases data <;> cases destination <;> cases width <;>
    simp [Operand.reduced, executeSubq]

theorem executeDbcc_reduced (condition : Condition) (counter : Register)
    (displacement : Word) (machine : Machine) :
    executeDbcc condition counter.reduced displacement machine =
      executeDbcc condition counter displacement machine := by
  simp [executeDbcc]

/-- All but an overlooked step sees a number through its register. -/
theorem execute_reduced {instruction : Instruction}
    (hsees : ¬ instruction.Overlooks) (machine : Machine) :
    instruction.reduced.execute machine = instruction.execute machine := by
  cases instruction with
  | nop | moveToSr | rts | stop => rfl
  | tst target width =>
      simp only [reduced, execute, executeTst, load_reduced, advance_reduced]
  | bne target width | beq target width =>
      simp only [reduced, execute, executeBranch, branchAddress_reduced]
  | bsr target width =>
      simp only [reduced, execute, executeBsr, branchAddress_reduced]
  | lea target destination =>
      exact executeLea_reduced target destination machine
  | move source destination width =>
      exact executeMove_reduced width machine hsees
  | andi source destination width =>
      exact executeAndi_reduced source destination width machine
  | dbcc condition counter displacement =>
      exact executeDbcc_reduced condition counter displacement machine
  | subq data destination width =>
      exact executeSubq_reduced data destination width machine

end Instruction

/-! ### Overlooked steps -/

namespace Operand

/-- How far an operand on a base lies from it. -/
def distance : Operand → Long
  | .displaced _ displacement => displacement.signExtend 32
  | _ => 0

theorem distance_near (operand : Operand) :
    operand.distance.toNat < 0x8000 ∨
      0xFFFF8000 ≤ operand.distance.toNat := by
  cases operand with
  | displaced base displacement =>
      have hword := displacement.isLt
      have hsign : displacement.msb = decide (0x8000 ≤ displacement.toNat) :=
        BitVec.msb_eq_decide displacement
      rw [distance, BitVec.toNat_signExtend, BitVec.toNat_setWidth, hsign]
      by_cases hnegative : 0x8000 ≤ displacement.toNat
      · rw [if_pos (decide_eq_true hnegative)]
        omega
      · rw [decide_eq_false hnegative, if_neg Bool.false_ne_true]
        omega
  | absolute | immediate | register | indirect | pcDisplaced | branch =>
      have hzero : (0 : Long).toNat < 0x8000 := by decide
      exact .inl hzero

theorem placeAfter?_of_base? {operand : Operand} {base : Byte}
    (hbase : operand.base? = some base) (source : Operand) (width : Width)
    (file : RegisterFile) :
    operand.placeAfter? source width file =
      some (source.baseAfter width file base + operand.distance) := by
  cases operand with
  | indirect other postIncrement =>
      cases hbase
      exact congrArg some (BitVec.add_zero _).symm
  | displaced other displacement =>
      cases hbase
      rfl
  | absolute | immediate | register | pcDisplaced | branch => cases hbase

theorem base?_reduced (operand : Operand) :
    operand.reduced.base? = operand.base?.map Register.lowest := by
  cases operand <;> rfl

theorem distance_reduced (operand : Operand) :
    operand.reduced.distance = operand.distance := by
  cases operand <;> rfl

end Operand

/-- A machine on a cartridge of zeros, with every register in the middle of the
image. -/
def Machine.centered : Machine :=
  let zeros : Cartridge :=
    ⟨Array.replicate 0x20000 0, by simp [Region.length]⟩
  { blank (Bus.powerOn zeros 0) with
    registers := ⟨Vector.replicate 8 0x10000, Vector.replicate 8 0x10000⟩ }

namespace Instruction

open Exec Operand Machine

theorem base_centered (number : Byte) :
    centered.registers.base number = 0x10000 := by
  simp [centered, RegisterFile.base, RegisterFile.get]

theorem exists_read_centered (width : Width) :
    ∃ value, (centered.bus.read 0x10000 width).result = .ok value := by
  have haligned : ¬ Misaligned 0x10000 width := by
    cases width <;> decide
  have hsize : centered.bus.cartridge.image.size = 0x20000 :=
    Array.size_replicate
  have hload : BigEndian.load? centered.bus.cartridge.image.toVector 0x10000
      width ≠ none := by
    rw [Ne, BigEndian.load?_eq_none_iff, hsize]
    cases width <;> decide
  obtain ⟨value, hvalue⟩ := Option.ne_none_iff_exists'.mp hload
  refine ⟨value, ?_⟩
  rw [Bus.read_cartridge _ _ (by decide)]
  exact Storage.load_of_some _ haligned hvalue

section Overlooked

variable {source destination : Operand} {width : Width} {base stepped : Byte}
  {place : Address}

/-- A move into the cartridge is refused at the place to which it comes. -/
theorem result_move_centered (hstepped : source.stepped? = some stepped)
    (hbase : destination.base? = some base)
    (hplace : destination.placeAfter? source width centered.registers =
      some place) (hlow : place.toNat < 0x400000) :
    (executeMove source destination width centered).result =
      .error (.unwritable place width) := by
  obtain ⟨value, hread⟩ := exists_read_centered width
  have hvalue : (moveValue source width centered).result = .ok value := by
    cases source with
    | indirect other postIncrement =>
        rw [← base_centered other] at hread
        exact hread
    | absolute | immediate | register | displaced | pcDisplaced | branch =>
        cases hstepped
  have hat : Region.at? place = some .cartridge :=
    Region.at?_of_contains ⟨Nat.zero_le _, hlow⟩ nofun
  have hwrite : (writeMemory place width value centered).result =
      .error (.unwritable place width) := by
    have hrefused := Bus.write_cartridge centered.bus width value hat
    rw [writeMemory_of_error (congrArg Reply.result hrefused)]
  have hstore :
      (storeAt destination (some place) width value centered).result =
        .error (.unwritable place width) := by
    cases destination with
    | indirect | displaced => exact hwrite
    | absolute | immediate | register | pcDisplaced | branch => cases hbase
  rw [executeMove_of_value hvalue, hplace, Outcome.andThen_of_error hstore]
  rfl

/-- With the step and without it the move comes to two places, and the faults
tell them apart. -/
theorem result_move_ne_of_overlooks
    (hoverlooks : destination.Overlooks source) :
    (executeMove source.reduced destination.reduced width centered).result ≠
      (executeMove source destination width centered).result := by
  obtain ⟨base, stepped, hbase, hstepped, hslot, hother⟩ := hoverlooks
  have hplace := placeAfter?_of_base? hbase source width centered.registers
  have hmissed : ¬ source.stepped? = some base := by
    rw [hstepped, Option.some_inj]
    exact hother
  rw [baseAfter, if_neg hmissed, base_centered] at hplace
  have hstepped' : source.reduced.stepped? = some (Register.lowest base) := by
    rw [stepped?_reduced, hstepped, Option.map_some,
      (Register.lowest_eq_iff stepped base).mpr hslot]
  have hbase' : destination.reduced.base? = some (Register.lowest base) := by
    rw [base?_reduced, hbase, Option.map_some]
  have hplace' := placeAfter?_of_base? hbase' source.reduced width
    centered.registers
  rw [baseAfter, if_pos hstepped', base_centered, distance_reduced] at hplace'
  have hnear := destination.distance_near
  generalize destination.distance = distance at hplace hplace' hnear
  have hbytes : 1 ≤ width.bytes ∧ width.bytes ≤ 4 := by
    cases width <;> decide
  rw [result_move_centered hstepped hbase hplace (by bv_omega),
    result_move_centered hstepped' hbase' hplace' (by bv_omega)]
  intro hsame
  injection hsame with hsame
  injection hsame with hsame
  bv_omega

end Overlooked

/-- Register numbers count modulo eight in all instructions but moves that
overlook a step. -/
theorem execute_reduced_iff (instruction : Instruction) :
    (∀ machine,
      (instruction.reduced.execute machine).result =
        (instruction.execute machine).result ∧
      (instruction.reduced.execute machine).machine =
        (instruction.execute machine).machine) ↔
      ¬ instruction.Overlooks := by
  constructor
  · intro hsame hoverlooks
    cases instruction with
    | move source destination width =>
        exact result_move_ne_of_overlooks hoverlooks (hsame centered).1
    | _ => exact hoverlooks
  · intro hsees machine
    rw [execute_reduced hsees machine]
    exact ⟨rfl, rfl⟩

end Instruction

namespace RegisterNumbersWitness

open Instruction

/-- Address register 1 at the controller block, where every word read is
0x1234. -/
def attached : Machine :=
  { Machine.blank (Bus.powerOn ⟨#[], Nat.zero_le _⟩ 0x1234) with
    registers := RegisterFile.cleared.set (.address 1) 0xA10000 }

/-- A copy from the controller block to the latch, which calls the one register
9 on its way there and 1 on its way back. -/
def copying : Instruction :=
  .move (.indirect 9 true) (.displaced 1 0x4000) .word

/-- Under the number 9 the step is overlooked, and the upper half of the latch
is written where the lower half should be. -/
theorem execute_reduced_copying :
    ¬ (∀ (instruction : Instruction) (machine : Machine),
      (instruction.reduced.execute machine).result =
        (instruction.execute machine).result ∧
      (instruction.reduced.execute machine).machine =
        (instruction.execute machine).machine) := by
  intro hsame
  have hlatch : (copying.execute attached).machine.bus.latch = 0x12340000 := rfl
  have hlatch' : (copying.reduced.execute attached).machine.bus.latch =
      0x00001234 := rfl
  rw [(hsame copying attached).2, hlatch] at hlatch'
  exact absurd hlatch' (by decide)

end RegisterNumbersWitness

end MegaDrive
