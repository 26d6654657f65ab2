/-
What a step may change.  Each instruction names the bytes it may store, the
registers it moves, the one register it writes and the value it puts there, and
the status bits it sets; all else is as before.  Main statement: every step that succeeds keeps to what
its instruction names, so that only a stop ever changes the upper status byte.
-/
import MegaDrive.Proofs.BusRefinement
import MegaDrive.Proofs.ControlFlow

namespace MegaDrive

namespace Bus

/-- The byte that was written last at an address, where writing leaves any. -/
def cells (bus : Bus) (place : Nat) : Byte :=
  if 0xFF0000 ≤ place then bus.ram[place - 0xFF0000]?.getD 0
  else if 0xC00000 ≤ place then bus.video[place - 0xC00000]?.getD 0
  else if 0xA14000 ≤ place ∧ place < 0xA14004 then
    bus.latch.extractLsb' (8 * (3 - (place - 0xA14000))) 8
  else 0

/-- The bus as its reference sees it. -/
def flat (bus : Bus) : FlatBus :=
  ⟨bus.cartridge.image, bus.controller, bus.cells⟩

theorem represents_flat (bus : Bus) : bus.flat.Represents bus where
  image := rfl
  controller := rfl
  ram i hi := by simp [flat, cells, hi]
  latch i hi := by
    have hplace : ¬ 0xFF0000 ≤ 0xA14000 + i := by omega
    have hplace' : ¬ 0xC00000 ≤ 0xA14000 + i := by omega
    have hend : 0xA14000 + i < 0xA14004 := by omega
    simp [flat, cells, hplace, hplace', hend]
  video i hi := by
    have hplace : ¬ 0xFF0000 ≤ 0xC00000 + i := by omega
    simp [flat, cells, hplace, hi]

/-- Only what a reference holds at an address shows there. -/
theorem cells_congr {before after : FlatBus} {bus bus' : Bus}
    (hbefore : before.Represents bus) (hafter : after.Represents bus')
    {place : Nat} (hsame : after.cells place = before.cells place) :
    bus'.cells place = bus.cells place := by
  unfold cells
  split
  · by_cases hend : place - 0xFF0000 < 0x10000
    · have hplace : 0xFF0000 + (place - 0xFF0000) = place := by omega
      rw [Vector.getElem?_eq_getElem hend, Vector.getElem?_eq_getElem hend,
        hbefore.ram _ hend, hafter.ram _ hend, hplace, hsame]
    · rw [Vector.getElem?_eq_none (by omega),
        Vector.getElem?_eq_none (by omega)]
  split
  · by_cases hend : place - 0xC00000 < 16
    · have hplace : 0xC00000 + (place - 0xC00000) = place := by omega
      rw [Vector.getElem?_eq_getElem hend, Vector.getElem?_eq_getElem hend,
        hbefore.video _ hend, hafter.video _ hend, hplace, hsame]
    · rw [Vector.getElem?_eq_none (by omega),
        Vector.getElem?_eq_none (by omega)]
  split
  · have hplace : 0xA14000 + (place - 0xA14000) = place := by omega
    rw [hbefore.latch _ (by omega), hafter.latch _ (by omega), hplace, hsame]
  · rfl

end Bus

/-- Two buses agree on every byte outside a window, and on all that cannot be
written. -/
structure Bus.SameOutside (address : Address) (width : Width)
    (before after : Bus) : Prop where
  cartridge : after.cartridge.image = before.cartridge.image
  controller : after.controller = before.controller
  cells : ∀ place,
    place < address.toNat ∨ address.toNat + width.bytes ≤ place →
      after.cells place = before.cells place

namespace FlatBus

theorem of_write_ok {flat flat' : FlatBus} {address : Address} {width : Width}
    {value : Long} (hwrite : flat.write ⟨address, width, value⟩ = .ok flat') :
    flat'.image = flat.image ∧ flat'.controller = flat.controller ∧
      ∀ place, place < address.toNat ∨ address.toNat + width.bytes ≤ place →
        flat'.cells place = flat.cells place := by
  unfold write at hwrite
  split at hwrite
  · cases hwrite
    exact ⟨rfl, rfl, fun _ _ => rfl⟩
  split at hwrite
  · cases hwrite
    exact ⟨rfl, rfl, fun place => spell_outside _ value⟩
  · cases hwrite

end FlatBus

/-- A write that is accepted changes its own window at most. -/
theorem Bus.sameOutside_of_write {bus bus' : Bus} {address : Address}
    {width : Width} {value : Long}
    (hwrite : (bus.write address width value).result = .ok bus') :
    Bus.SameOutside address width bus bus' := by
  have hagrees := FlatBus.write_agrees bus.represents_flat address width value
  rw [hwrite] at hagrees
  generalize hreference : bus.flat.write ⟨address, width, value⟩ = reference
    at hagrees
  cases hagrees with
  | accepted hbus =>
      obtain ⟨himage, hcontroller, hcells⟩ := FlatBus.of_write_ok hreference
      exact ⟨hbus.image.symm.trans himage,
        hbus.controller.symm.trans hcontroller, fun place houtside =>
          cells_congr bus.represents_flat hbus (hcells place houtside)⟩

namespace Operand

/-- Whether the operand steps this register. -/
def Steps (operand : Operand) (register : Register) : Prop :=
  ∃ base, operand.stepped? = some base ∧
    (Register.address base).Same register

instance (operand : Operand) (register : Register) :
    Decidable (operand.Steps register) :=
  match hstepped : operand.stepped? with
  | some base =>
      decidable_of_iff ((Register.address base).Same register) (by
        simp [Steps, hstepped])
  | none => isFalse (by simp [Steps, hstepped])

theorem get_stepping (operand : Operand) (width : Width)
    (file : RegisterFile) (register : Register) :
    (operand.stepping width file).get register =
      file.get register +
        if operand.Steps register then BitVec.ofNat 32 width.bytes else 0 := by
  unfold stepping
  cases hstepped : operand.stepped? with
  | none => simp [Steps, hstepped]
  | some base => simp [Steps, hstepped, RegisterFile.get_advance]

/-- The register numbers of the operand are those that an opcode can hold. -/
def Numbered : Operand → Prop
  | .register (.data number) | .register (.address number) => number.toNat < 8
  | .indirect base _ | .displaced base _ => base.toNat < 8
  | .absolute _ | .immediate _ | .pcDisplaced _ | .branch _ => True

theorem numbered_of_selects {bus : Bus} {place : Address} {width : Width}
    {field : OperandField} {operand : Operand} {words : Nat}
    (hselects : Selects bus place width field operand words) :
    operand.Numbered := by
  have hnumber : ∀ number : BitVec 3, (number.setWidth 8).toNat < 8 := by
    decide
  cases hselects with
  | dataRegister number => exact hnumber number
  | addressRegister number => exact hnumber number
  | indirect number => exact hnumber number
  | postIncrement number => exact hnumber number
  | displaced number hword => exact hnumber number
  | _ => exact trivial

/-- What an operand holds for a move: the whole of a register or of a constant,
and of memory what is read at its address. -/
def held? (operand : Operand) (width : Width) (machine : Machine) :
    Option Long :=
  match operand with
  | .register name => some (machine.registers.get name)
  | .immediate value => some value
  | .absolute _ | .indirect .. | .displaced .. => do
      let address ← operand.place? machine.registers
      (machine.bus.read address width).result.toOption
  | .pcDisplaced _ | .branch _ => none

/-- A move takes no more from its source than the low part of what that holds.
-/
theorem exists_held_of_moveValue {source : Operand} {width : Width}
    {machine : Machine} {value : Long}
    (hvalue : (Instruction.moveValue source width machine).result =
      .ok value) :
    ∃ held, source.held? width machine = some held ∧
      width.truncate value = width.truncate held := by
  cases source with
  | register name =>
      cases hvalue
      exact ⟨_, rfl, width.truncate_truncate _⟩
  | immediate whole =>
      cases hvalue
      exact ⟨_, rfl, width.truncate_truncate _⟩
  | absolute | indirect | displaced =>
      exact ⟨value, congrArg Except.toOption hvalue, rfl⟩
  | pcDisplaced | branch => cases hvalue

/-- The address that an operand stands for in the instruction at the program
counter.  Relative to the code, it counts from behind the opcode. -/
def address? (operand : Operand) (machine : Machine) : Option Address :=
  match operand with
  | .pcDisplaced displacement =>
      some (displace (machine.pc + 2) displacement)
  | _ => operand.place? machine.registers

/-- Numbers that an opcode can hold name different registers when they differ,
so a move comes to its destination as if its source had been stepped past. -/
theorem baseAfter_eq_base {source : Operand} (hsource : source.Numbered)
    (width : Width) (file : RegisterFile) {base : Byte}
    (hbase : base.toNat < 8) :
    source.baseAfter width file base = (source.stepping width file).base base := by
  have hsteps : source.Steps (.address base) ↔ source.stepped? = some base := by
    cases source with
    | indirect other postIncrement =>
        cases postIncrement with
        | false => simp [Steps, stepped?]
        | true =>
            have hother : other.toNat < 8 := hsource
            have hslot : Register.slot other = Register.slot base ↔
                other = base := by
              rw [Register.slot, Register.slot, Fin.mk.injEq,
                Nat.mod_eq_of_lt hother, Nat.mod_eq_of_lt hbase,
                BitVec.toNat_inj]
            simpa [Steps, stepped?, Register.Same] using hslot
    | _ => simp [Steps, stepped?]
  rw [RegisterFile.base, get_stepping, baseAfter, RegisterFile.base]
  by_cases hstepped : source.stepped? = some base
  · rw [if_pos hstepped, if_pos (hsteps.mpr hstepped)]
  · rw [if_neg hstepped, if_neg (mt hsteps.mp hstepped)]
    exact (BitVec.add_zero _).symm

theorem placeAfter?_eq_place? {source destination : Operand}
    (hsource : source.Numbered) (hdestination : destination.Numbered)
    (width : Width) (file : RegisterFile) :
    destination.placeAfter? source width file =
      destination.place? (source.stepping width file) := by
  cases destination with
  | indirect base postIncrement =>
      exact congrArg some (baseAfter_eq_base hsource width file hdestination)
  | displaced base displacement =>
      exact congrArg (fun address => some (displace address displacement))
        (baseAfter_eq_base hsource width file hdestination)
  | _ => rfl

end Operand

namespace Instruction

/-- The bytes that an instruction may store: those of a move's destination,
once its source has been stepped past, and those that a subroutine call
pushes. -/
def stored? (instruction : Instruction) (file : RegisterFile) :
    Option (Address × Width) :=
  match instruction with
  | .move source destination width =>
      (destination.place? (source.stepping width file)).map (·, width)
  | .bsr _ _ => some (file.stackPointer - 4, .long)
  | _ => none

/-- What an instruction adds to a register: the width of its operand for each
operand that steps it, and the long that a subroutine call pushes or a return
pops for the stack pointer. -/
def growth (instruction : Instruction) (register : Register) : Long :=
  let stepped (operands : List Operand) (width : Width) :=
    BitVec.ofNat 32
      (width.bytes * operands.countP fun operand => operand.Steps register)
  let moved (amount : Long) :=
    if Register.stackPointer.Same register then amount else 0
  match instruction with
  | .tst target width => stepped [target] width
  | .move source destination width => stepped [source, destination] width
  | .bsr _ _ => moved (-4)
  | .rts => moved 4
  | _ => 0

/-- The register that an instruction writes, how much of it, and the value whose
low part goes there: what a move takes from its source before any step, an
address, a register under a mask or less an amount, or a counter less one. -/
def written? (instruction : Instruction) (machine : Machine) :
    Option (Register × Width × Long) :=
  match instruction with
  | .lea target destination =>
      (target.address? machine).map (destination, .long, ·)
  | .move source (.register name) width =>
      (source.held? width machine).map (name, width, ·)
  | .andi (.immediate mask) (.register name) width =>
      some (name, width, machine.registers.get name &&& mask)
  | .subq (.immediate amount) (.register name) width =>
      some (name, width, machine.registers.get name - amount)
  | .dbcc _ counter _ =>
      some (counter, .word, machine.registers.get counter - 1)
  | _ => none

/-- How many of the low status bits an instruction may change. -/
def statusBits : Instruction → Nat
  | .tst .. | .andi .. => 4
  | .moveToSr _ => 8
  | .stop _ => 16
  | _ => 0

/-- The status that a stop sets. -/
def stopped? : Instruction → Option Status
  | .stop value => some value
  | _ => none

/-- What an instruction leaves of a machine that it ran on: memory outside the
bytes it stores, each register apart from its growth and from the value put into
the low part of the register it writes, the status above the bits it sets, and
the run state unless it is a stop. -/
structure Frame (instruction : Instruction) (before after : Machine) :
    Prop where
  unstored : instruction.stored? before.registers = none →
    after.bus = before.bus
  stored : ∀ address width,
    instruction.stored? before.registers = some (address, width) →
      Bus.SameOutside address width before.bus after.bus
  registers : ∀ register,
    after.registers.get register =
      let grown := before.registers.get register + instruction.growth register
      match instruction.written? before with
      | some (name, width, value) =>
          if name.Same register then width.merge grown value else grown
      | none => grown
  status : ∀ i, instruction.statusBits ≤ i →
    after.sr.getLsbD i = before.sr.getLsbD i
  state : after.state =
    if instruction.stopped?.isSome then .halted else before.state

end Instruction

/-- New low bits leave the bits above them in place. -/
theorem Status.getLsbD_append (status : Status) {n : Nat} (low : BitVec n)
    {i : Nat} (hi : n ≤ i) (hwide : i < 16) :
    (status.extractLsb' n (16 - n) ++ low).getLsbD i = status.getLsbD i := by
  rw [BitVec.getLsbD_append, if_neg (Nat.not_lt.mpr hi),
    BitVec.getLsbD_extractLsb', Nat.add_sub_cancel' hi,
    decide_eq_true (by omega), Bool.true_and]

theorem Status.getLsbD_compared (status : Status) (width : Width)
    (value : Long) {i : Nat} (hi : 4 ≤ i) :
    (status.compared width value).getLsbD i = status.getLsbD i := by
  by_cases hwide : i < 16
  · exact status.getLsbD_append _ hi hwide
  · rw [BitVec.getLsbD_of_ge _ _ (by omega),
      BitVec.getLsbD_of_ge _ _ (by omega)]

theorem Status.getLsbD_withLowByte (status : Status) (value : Word) {i : Nat}
    (hi : 8 ≤ i) :
    (status.withLowByte value).getLsbD i = status.getLsbD i := by
  by_cases hwide : i < 16
  · exact status.getLsbD_append _ hi hwide
  · rw [BitVec.getLsbD_of_ge _ _ (by omega),
      BitVec.getLsbD_of_ge _ _ (by omega)]

namespace Instruction

open Operand

variable {machine : Machine} {word : Word} {decoded : Decoded}

/-- A register that an instruction writes and does not step. -/
theorem get_write_grown (file : RegisterFile) (name : Register)
    (width : Width) {value value' : Long}
    (hvalue : width.truncate value = width.truncate value')
    (register : Register) :
    (file.write name width value).get register =
      if name.Same register then width.merge (file.get register + 0) value'
      else file.get register + 0 := by
  rw [show file.get register + 0 = file.get register from BitVec.add_zero _,
    ← width.merge_congr _ hvalue]
  exact file.get_write name register width value

theorem get_withStackPointer_add (file : RegisterFile) (amount : Long)
    (register : Register) :
    (file.withStackPointer (file.stackPointer + amount)).get register =
      file.get register +
        if Register.stackPointer.Same register then amount else 0 := by
  rw [RegisterFile.withStackPointer, RegisterFile.get_set]
  by_cases hsame : Register.stackPointer.Same register
  · rw [if_pos hsame, if_pos hsame, RegisterFile.stackPointer,
      file.get_of_same hsame]
  · rw [if_neg hsame, if_neg hsame]
    exact (BitVec.add_zero _).symm

/-- Both operands of a move step a register by the width each time. -/
theorem get_stepping_stepping (source destination : Operand) (width : Width)
    (file : RegisterFile) (register : Register) :
    (destination.stepping width (source.stepping width file)).get register =
      file.get register + growth (.move source destination width) register := by
  have hwidth : BitVec.ofNat 32 (width.bytes * 2) =
      BitVec.ofNat 32 width.bytes + BitVec.ofNat 32 width.bytes := by
    rw [Nat.mul_two, BitVec.ofNat_add]
  rw [get_stepping, get_stepping, growth, BitVec.add_assoc]
  congr 1
  by_cases hsource : source.Steps register <;>
    by_cases hdestination : destination.Steps register <;>
      simp [hsource, hdestination, hwidth]

example :
    growth (.move (.indirect 3 true) (.indirect 3 true) .word) (.address 3) =
      4 := by
  decide

theorem frame_executeTst {target : Operand} {width : Width}
    (hresult : (executeTst target width (machine.begun word decoded)).result =
      .ok ()) :
    Frame (.tst target width) machine
      (executeTst target width (machine.begun word decoded)).machine := by
  obtain ⟨value, -, hmachine⟩ := of_executeTst_ok hresult
  rw [hmachine]
  refine ⟨fun _ => rfl, nofun, fun register => ?_, fun i => ?_, rfl⟩
  · refine (get_stepping target width machine.registers register).trans ?_
    by_cases hsteps : target.Steps register <;>
      simp [written?, growth, hsteps]
  · exact Status.getLsbD_compared machine.sr width value

theorem frame_executeBranch {condition : Condition} {target : Operand}
    {width : Width} {instruction : Instruction}
    (hbranch : instruction = .bne target width ∨
      instruction = .beq target width)
    (hresult : (executeBranch condition target width
      (machine.begun word decoded)).result = .ok ()) :
    Frame instruction machine
      (executeBranch condition target width
        (machine.begun word decoded)).machine := by
  obtain ⟨displacement, -, hmachine⟩ := of_executeBranch_ok hresult
  rw [hmachine]
  rcases hbranch with rfl | rfl <;>
    exact ⟨fun _ => rfl, nofun, fun _ => (BitVec.add_zero _).symm,
      fun _ _ => rfl, rfl⟩

theorem frame_executeBsr {target : Operand} {width : Width}
    (hresult : (executeBsr target width (machine.begun word decoded)).result =
      .ok ()) :
    Frame (.bsr target width) machine
      (executeBsr target width (machine.begun word decoded)).machine := by
  obtain ⟨displacement, bus, -, hwrite, hmachine⟩ := of_executeBsr_ok hresult
  have hpop : machine.registers.stackPointer - 4 =
      machine.registers.stackPointer + -4 := BitVec.sub_eq_add_neg _ _
  rw [hmachine]
  refine ⟨nofun, ?_, fun register => ?_, fun _ _ => rfl, rfl⟩
  · rintro address stored hstored
    cases hstored
    exact Bus.sameOutside_of_write hwrite
  · change (machine.registers.withStackPointer
      (machine.registers.stackPointer - 4)).get register = _
    rw [hpop]
    exact get_withStackPointer_add machine.registers (-4) register

theorem frame_executeRts
    (hresult : (executeRts (machine.begun word decoded)).result = .ok ()) :
    Frame .rts machine (executeRts (machine.begun word decoded)).machine := by
  obtain ⟨destination, -, hmachine⟩ := of_executeRts_ok hresult
  rw [hmachine]
  exact ⟨fun _ => rfl, nofun,
    get_withStackPointer_add machine.registers 4, fun _ _ => rfl, rfl⟩

/-- The code of an operand relative to it is two words long, so that what
counts from its last word counts from behind its first. -/
theorem frame_executeLea {target : Operand} {destination : Register}
    (hbehind : ∀ displacement, target = .pcDisplaced displacement →
      machine.pc + decoded.length - 2 = machine.pc + 2)
    (hresult : (executeLea target destination
      (machine.begun word decoded)).result = .ok ()) :
    Frame (.lea target destination) machine
      (executeLea target destination (machine.begun word decoded)).machine := by
  obtain ⟨address, haddress, hmachine⟩ := of_executeLea_ok hresult
  have hwritten : written? (.lea target destination) machine =
      some (destination, .long, address) := by
    have hfound : target.address? machine = some address := by
      cases target with
      | pcDisplaced displacement =>
          rw [← haddress, address?, ← hbehind displacement rfl]
          rfl
      | indirect base postIncrement =>
          cases postIncrement with
          | false => exact haddress
          | true => cases haddress
      | absolute | displaced | register | immediate | branch => exact haddress
    rw [written?, hfound]
    rfl
  rw [hmachine]
  refine ⟨fun _ => rfl, nofun, fun register => ?_, fun _ _ => rfl, rfl⟩
  rw [hwritten]
  exact get_write_grown machine.registers destination .long rfl register

theorem frame_executeAndi {source destination : Operand} {width : Width}
    (hresult : (executeAndi source destination width
      (machine.begun word decoded)).result = .ok ()) :
    Frame (.andi source destination width) machine
      (executeAndi source destination width
        (machine.begun word decoded)).machine := by
  obtain ⟨mask, name, result, rfl, rfl, rfl, hvalue, hmachine⟩ :=
    of_executeAndi_ok hresult
  have hlow : Width.byte.truncate result =
      Width.byte.truncate (machine.registers.get name &&& mask) := by
    rw [hvalue]
    exact (Width.byte.truncate_truncate _).trans
      (Width.byte.truncate_truncate_and _ mask)
  rw [hmachine]
  exact ⟨fun _ => rfl, nofun, get_write_grown machine.registers name .byte hlow,
    fun i => Status.getLsbD_compared machine.sr .byte result, rfl⟩

theorem frame_executeSubq {data destination : Operand} {width : Width}
    (hresult : (executeSubq data destination width
      (machine.begun word decoded)).result = .ok ()) :
    Frame (.subq data destination width) machine
      (executeSubq data destination width
        (machine.begun word decoded)).machine := by
  obtain ⟨amount, name, rfl, rfl, rfl, hmachine⟩ := of_executeSubq_ok hresult
  have hwhole : machine.registers.read name .long =
      machine.registers.get name := BitVec.and_allOnes
  have hlow := congrArg (fun held => Width.long.truncate (held - amount)) hwhole
  rw [hmachine]
  exact ⟨fun _ => rfl, nofun, get_write_grown machine.registers name .long hlow,
    fun _ _ => rfl, rfl⟩

theorem frame_executeDbcc {condition : Condition} {counter : Register}
    {displacement : Word}
    (hresult : (executeDbcc condition counter displacement
      (machine.begun word decoded)).result = .ok ()) :
    Frame (.dbcc condition counter displacement) machine
      (executeDbcc condition counter displacement
        (machine.begun word decoded)).machine := by
  obtain ⟨count, -, rfl, hmachine⟩ := of_executeDbcc_ok hresult
  rw [hmachine]
  exact ⟨fun _ => rfl, nofun,
    get_write_grown machine.registers counter .word
      (Width.truncate_truncate_sub .word _ 1),
    fun _ _ => rfl, rfl⟩

/-- A destination in memory is not written as a register. -/
theorem settling_of_placeAfter? {source destination : Operand} {width : Width}
    {file : RegisterFile} {address : Address}
    (hplace : destination.placeAfter? source width file = some address)
    (machine : Machine) :
    written? (.move source destination width) machine = none ∧
      ∀ value moved, settling destination width value moved = moved := by
  cases destination with
  | absolute | indirect | displaced => exact ⟨rfl, fun _ _ => rfl⟩
  | register | immediate | pcDisplaced | branch => cases hplace

theorem frame_executeMove {source destination : Operand} {width : Width}
    (hsource : source.Numbered) (hdestination : destination.Numbered)
    (hresult : (executeMove source destination width
      (machine.begun word decoded)).result = .ok ()) :
    Frame (.move source destination width) machine
      (executeMove source destination width
        (machine.begun word decoded)).machine := by
  have hplaces := placeAfter?_eq_place? hsource hdestination width
    machine.registers
  obtain ⟨value, hvalue, hmoved⟩ := of_executeMove_ok hresult
  rcases hmoved with ⟨address, bus, hplace, hwrite, hmachine⟩ |
    ⟨name, rfl, hmachine⟩
  · obtain ⟨hwritten, hsettling⟩ := settling_of_placeAfter? hplace machine
    have hstored : stored? (.move source destination width)
        machine.registers = some (address, width) := by
      rw [stored?, ← hplaces]
      exact congrArg (Option.map (·, width)) hplace
    rw [hmachine]
    refine ⟨?_, ?_, fun register => ?_, fun _ _ => rfl, rfl⟩
    · intro hnone
      cases hstored.symm.trans hnone
    · intro address' width' hstored'
      cases hstored.symm.trans hstored'
      exact Bus.sameOutside_of_write hwrite
    · rw [hwritten, movedRegisters, hsettling]
      exact get_stepping_stepping source destination width _ register
  · obtain ⟨held, hheld, hlow⟩ := exists_held_of_moveValue hvalue
    have hwritten : written? (.move source (.register name) width) machine =
        some (name, width, held) :=
      congrArg (Option.map (name, width, ·)) hheld
    rw [hmachine]
    refine ⟨fun _ => rfl, nofun, fun register => ?_, fun _ _ => rfl, rfl⟩
    rw [hwritten, movedRegisters, settling, RegisterFile.get_write,
      get_stepping_stepping, width.merge_congr _ hlow]
    rfl

/-- All register numbers of the instruction's operands are those that an
opcode can hold. -/
def Numbered (instruction : Instruction) : Prop :=
  ∀ operand ∈ instruction.operands, operand.Numbered

theorem frame_execute {instruction : Instruction}
    (hnumbered : instruction.Numbered)
    (hbehind : ∀ displacement destination,
      instruction = .lea (.pcDisplaced displacement) destination →
        machine.pc + decoded.length - 2 = machine.pc + 2)
    (hresult : (instruction.execute (machine.begun word decoded)).result =
      .ok ()) :
    Frame instruction machine
      (instruction.execute (machine.begun word decoded)).machine := by
  cases instruction with
  | nop =>
      exact ⟨fun _ => rfl, nofun, fun _ => (BitVec.add_zero _).symm,
        fun _ _ => rfl, rfl⟩
  | moveToSr value =>
      exact ⟨fun _ => rfl, nofun, fun _ => (BitVec.add_zero _).symm,
        fun i => Status.getLsbD_withLowByte machine.sr value, rfl⟩
  | tst target width => exact frame_executeTst hresult
  | bne target width => exact frame_executeBranch (.inl rfl) hresult
  | beq target width => exact frame_executeBranch (.inr rfl) hresult
  | bsr target width => exact frame_executeBsr hresult
  | lea target destination =>
      refine frame_executeLea (fun displacement htarget => ?_) hresult
      exact hbehind displacement destination (by rw [htarget])
  | move source destination width =>
      exact frame_executeMove (hnumbered source (by simp [operands]))
        (hnumbered destination (by simp [operands])) hresult
  | andi source destination width => exact frame_executeAndi hresult
  | dbcc condition counter displacement => exact frame_executeDbcc hresult
  | rts => exact frame_executeRts hresult
  | subq data destination width => exact frame_executeSubq hresult
  | stop value =>
      refine ⟨fun _ => rfl, nofun, fun _ => (BitVec.add_zero _).symm,
        fun i hi => ?_, rfl⟩
      exact (BitVec.getLsbD_of_ge _ i hi).trans
        (BitVec.getLsbD_of_ge _ i hi).symm

theorem numbered_of_completes {bus : Bus} {place : Address} {opcode : Opcode}
    {instruction : Instruction} {words : Nat}
    (hcompletes : Completes bus place opcode instruction words) :
    instruction.Numbered := by
  have hpair : ∀ {first second : Operand}, first.Numbered → second.Numbered →
      ∀ operand ∈ [first, second], operand.Numbered := by
    intro first second hfirst hsecond operand hmem
    rcases List.mem_pair.mp hmem with rfl | rfl
    · exact hfirst
    · exact hsecond
  have hone : ∀ {only : Operand}, only.Numbered →
      ∀ operand ∈ [only], operand.Numbered :=
    fun honly operand hmem => List.mem_singleton.mp hmem ▸ honly
  cases hcompletes with
  | nop | rts | stop hword | moveToSr hword | dbcc condition number hword =>
      exact nofun
  | tst hlegal hsource => exact hone (numbered_of_selects hsource)
  | move hlegal hsource hlegal' hdestination =>
      exact hpair (numbered_of_selects hsource)
        (numbered_of_selects hdestination)
  | shortBranch kind hshort => cases kind <;> exact hone trivial
  | longBranch kind hword => cases kind <;> exact hone trivial
  | lea number hlegal hsource => exact hone (numbered_of_selects hsource)
  | andi hvalue hlegal hdestination =>
      exact hpair (numbered_of_selects hvalue)
        (numbered_of_selects hdestination)
  | subq data hlegal hdestination =>
      exact hpair trivial (numbered_of_selects hdestination)

end Instruction

namespace Machine

variable {machine : Machine}

theorem numbered_of_decode {decoded : Decoded}
    (hdecode : (machine.bus.decode machine.pc).result = .ok decoded) :
    decoded.instruction.Numbered := by
  obtain ⟨hword, hmatches, hcompletes⟩ :=
    (Bus.decode_eq_ok_iff _ _ _).mp hdecode
  exact Instruction.numbered_of_completes hcompletes

theorem frame_of_step {instruction : Instruction}
    (hstep : (step machine).result = .ok instruction) :
    instruction.Frame machine (step machine).machine := by
  obtain ⟨word, ⟨instruction, length⟩, -, hdecode, rfl, hexecute, hmachine⟩ :=
    exists_of_step_ok hstep
  have hbehind : ∀ displacement destination,
      instruction = .lea (.pcDisplaced displacement) destination →
        machine.pc + length - 2 = machine.pc + 2 := by
    rintro displacement destination rfl
    exact Bus.base_of_word hdecode rfl
  have hframe := Instruction.frame_execute (numbered_of_decode hdecode) hbehind
    hexecute
  rw [hmachine]
  exact ⟨hframe.unstored, hframe.stored, hframe.registers, hframe.status,
    hframe.state⟩

/-- The upper status byte is the system's. -/
def systemByte (machine : Machine) : Byte :=
  machine.sr.extractLsb' 8 8

theorem systemByte_of_stop {value : Word}
    (hstep : (step machine).result = .ok (.stop value)) :
    (step machine).machine.systemByte = value.extractLsb' 8 8 := by
  obtain ⟨word, decoded, -, -, -, -, hmachine⟩ := exists_of_step_ok hstep
  rw [hmachine]
  rfl

/-- Nothing but a stop changes the upper status byte. -/
theorem systemByte_of_step {instruction : Instruction}
    (hstep : (step machine).result = .ok instruction)
    (hstopped : instruction.stopped? = none) :
    (step machine).machine.systemByte = machine.systemByte := by
  have hbits : instruction.statusBits ≤ 8 := by
    cases instruction <;> simp [Instruction.statusBits]
    cases hstopped
  apply BitVec.eq_of_getLsbD_eq
  intro i hi
  simp only [systemByte, BitVec.getLsbD_extractLsb', hi, decide_true,
    Bool.true_and]
  exact (frame_of_step hstep).status (8 + i) (by omega)

/-- The status values that stops set among so many steps. -/
def stops (machine : Machine) (n : Nat) : List Status :=
  (machine.performed n).filterMap Instruction.stopped?

theorem stops_succ_of_ok {instruction : Instruction}
    (hstep : (step machine).result = .ok instruction) (n : Nat) :
    machine.stops (n + 1) =
      instruction.stopped?.toList ++ (step machine).machine.stops n := by
  simp only [stops, performed, hstep, List.filterMap_cons]
  cases instruction.stopped? <;> rfl

theorem stops_succ_of_error {cause : Fault}
    (hstep : (step machine).result = .error cause) (n : Nat) :
    machine.stops (n + 1) = (step machine).machine.stops n := by
  simp only [stops, performed, hstep]

/-- The upper status byte after any steps is that of the last stop, or the one
from before when none of them was a stop. -/
theorem systemByte_afterSteps (machine : Machine) (n : Nat) :
    (machine.afterSteps n).systemByte =
      ((machine.stops n).getLast?.map (·.extractLsb' 8 8)).getD
        machine.systemByte := by
  induction n generalizing machine with
  | zero => rfl
  | succ n ih =>
      rw [afterSteps, ih]
      cases hstep : (step machine).result with
      | error cause =>
          obtain ⟨opcode, hmachine⟩ := exists_fetched_of_error hstep
          rw [stops_succ_of_error hstep, hmachine]
          rfl
      | ok instruction =>
          rw [stops_succ_of_ok hstep]
          cases hstopped : instruction.stopped? with
          | none =>
              rw [systemByte_of_step hstep hstopped]
              rfl
          | some value =>
              obtain rfl : instruction = .stop value := by
                cases instruction <;> cases hstopped
                rfl
              rw [systemByte_of_stop hstep, Option.toList_some,
                List.singleton_append, List.getLast?_cons]
              cases ((step machine).machine.stops n).getLast? <;> rfl

/-- The processor is halted once a stop has been among its steps. -/
theorem halted_afterSteps_iff (machine : Machine) (n : Nat) :
    (machine.afterSteps n).state = .halted ↔
      machine.state = .halted ∨ machine.stops n ≠ [] := by
  induction n generalizing machine with
  | zero => simp [afterSteps, stops, performed]
  | succ n ih =>
      rw [afterSteps, ih]
      cases hstep : (step machine).result with
      | error cause =>
          obtain ⟨opcode, hmachine⟩ := exists_fetched_of_error hstep
          rw [stops_succ_of_error hstep, hmachine]
          rfl
      | ok instruction =>
          rw [stops_succ_of_ok hstep, (frame_of_step hstep).state]
          cases instruction.stopped? with
          | none => simp
          | some value => simp

/-- Every step that succeeds keeps to what its instruction names.  So on a
machine that comes out of reset the upper status byte is that of the last stop,
whatever else was run or faulted, and it is zero as long as the processor runs.
-/
theorem steps_keep_to_frames :
    (∀ (machine : Machine) (instruction : Instruction),
      (step machine).result = .ok instruction →
        instruction.Frame machine (step machine).machine) ∧
    (∀ machine : Machine, (reset machine).result = .ok () → ∀ n,
      let start := (reset machine).machine
      let reached := start.afterSteps n
      reached.systemByte =
          ((start.stops n).getLast?.map (·.extractLsb' 8 8)).getD 0 ∧
        (reached.state = .running → reached.systemByte = 0)) := by
  refine ⟨fun machine instruction => frame_of_step, ?_⟩
  intro machine hreset n start reached
  obtain ⟨stackPointer, pc, -, -, hstart⟩ := of_reset_ok hreset
  have hzero : start.systemByte = 0 := by
    rw [show start = _ from hstart]
    change (0 : Status).extractLsb' 8 8 = 0
    decide
  have hbyte := systemByte_afterSteps start n
  rw [hzero] at hbyte
  refine ⟨hbyte, fun hrunning => ?_⟩
  have hnone : start.stops n = [] := by
    by_contra hsome
    have hhalted := (halted_afterSteps_iff start n).mpr (.inr hsome)
    cases hhalted.symm.trans hrunning
  rw [show reached.systemByte = _ from hbyte, hnone]
  rfl

end Machine

namespace StepFrameWitness

open Instruction Machine

/-- Before its reset, with the address of the controller block put into a0, a
copy of the word there into a0 itself, and a stop. -/
def cold : Machine :=
  blank (Bus.powerOn ⟨#[0x00, 0xFF, 0x10, 0x00, 0x00, 0x00, 0x00, 0x08,
    0x41, 0xF9, 0x00, 0xA1, 0x00, 0x00, 0x30, 0x58, 0x4E, 0x72, 0x25, 0x00],
    by decide⟩ 0x1234BEEF)

/-- The copy: its destination is the register that its source steps. -/
def folding : Instruction :=
  .move (.indirect 0 true) (.register (.address 0)) .word

def loaded : Machine :=
  (reset cold).machine.afterSteps 1

/-- The upper word is that of the stepped address, and the lower one was moved.
-/
theorem steps_keep_to_frames_folding :
    ((reset cold).result = .ok () ∧ (step loaded).result = .ok folding) ∧
      loaded.registers.get (.address 0) = 0x00A10000 ∧
      (step loaded).machine.registers.get (.address 0) = 0x00A1BEEF ∧
      (step loaded).machine.bus = loaded.bus ∧
      ((reset cold).machine.afterSteps 3).systemByte = 0x25 := by
  have hreset : (reset cold).result = .ok () := rfl
  have hstep : (step loaded).result = .ok folding := rfl
  have hframe := steps_keep_to_frames.1 _ _ hstep
  refine ⟨⟨hreset, hstep⟩, rfl, ?_, hframe.unstored rfl, ?_⟩
  · exact (hframe.registers (.address 0)).trans rfl
  · exact (steps_keep_to_frames.2 cold hreset 3).1

end StepFrameWitness

end MegaDrive
