/-
Loops that copy memory.  The body is a move between two stepped address
registers, and memory after some passes is that before the loop with the front
of the destination replaced by the front of the source.  Main statement: such a
loop copies its source to its destination whatever the width of the move, and
leaves all other memory and registers as they were.
-/
import MegaDrive.Proofs.CallNesting
import MegaDrive.Proofs.CountedLoop

namespace MegaDrive

namespace Bus

variable {bus : Bus}

/-- A range of bytes that can be read: it lies in the image of the cartridge or
in the work RAM. -/
def HasRange (bus : Bus) (start length : Nat) : Prop :=
  start + length ≤ bus.cartridge.image.size ∨
    0xFF0000 ≤ start ∧ start + length ≤ 0x1000000

theorem HasRange.exists_memory? {start length : Nat}
    (hrange : bus.HasRange start length) {i : Nat} (hi : i < length) :
    ∃ byte, bus.memory? (start + i) = some byte := by
  have hsize : bus.cartridge.image.size ≤ 0x400000 := bus.cartridge.size_le
  rcases hrange with himage | ⟨hlow, hhigh⟩
  · refine ⟨_, (bus.memory?_of_cartridge ?_).trans
      (Vector.getElem?_eq_getElem ?_)⟩
    · rw [Region.start]
      omega
    · omega
  · refine ⟨_, (bus.memory?_of_workRam ?_).trans
      (Vector.getElem?_eq_getElem ?_)⟩
    · rw [Region.start]
      omega
    · rw [Region.start]
      omega

theorem HasRange.inMemory {start length : Nat}
    (hrange : bus.HasRange start length) {place : Address}
    (hlow : start ≤ place.toNat) (hhigh : place.toNat < start + length) :
    place.InMemory := by
  have hsize : bus.cartridge.image.size ≤ 0x400000 := bus.cartridge.size_le
  unfold Address.InMemory Region.Contains HasRange at *
  simp only [Region.start, Region.length] at *
  omega

/-- A value that is loaded has the bytes of memory, the first one on top. -/
theorem exists_load? {place : Nat} (width : Width)
    (hbytes : ∀ i < width.bytes, ∃ byte, bus.memory? (place + i) = some byte) :
    ∃ value, bus.load? place width = some value ∧
      ∀ i < width.bytes, bus.memory? (place + i) =
        some (value.extractLsb' (8 * (width.bytes - 1 - i)) 8) := by
  obtain ⟨first, hfirst⟩ := hbytes 0 (by cases width <;> decide)
  rw [Nat.add_zero] at hfirst
  cases width with
  | byte =>
      refine ⟨first.setWidth 32, by rw [Bus.load?, hfirst]; rfl, fun i hi => ?_⟩
      obtain rfl : i = 0 := Nat.lt_one_iff.mp hi
      exact hfirst.trans (congrArg some (extractLsb'_byte first).symm)
  | word =>
      obtain ⟨second, hsecond⟩ := hbytes 1 (by decide)
      obtain ⟨htop, hlow⟩ := extractLsb'_word first second
      refine ⟨(first ++ second).setWidth 32, by
        rw [Bus.load?, hfirst, hsecond]; rfl, fun i hi => ?_⟩
      have hi : i < 2 := hi
      obtain rfl | rfl : i = 0 ∨ i = 1 := by omega
      · exact hfirst.trans (congrArg some htop.symm)
      · exact hsecond.trans (congrArg some hlow.symm)
  | long =>
      obtain ⟨second, hsecond⟩ := hbytes 1 (by decide)
      obtain ⟨third, hthird⟩ := hbytes 2 (by decide)
      obtain ⟨last, hlast⟩ := hbytes 3 (by decide)
      obtain ⟨htop, hupper, hlower, hlow⟩ :=
        extractLsb'_long first second third last
      refine ⟨first ++ second ++ third ++ last, by
        rw [Bus.load?, hfirst, hsecond, hthird, hlast]; rfl, fun i hi => ?_⟩
      have hi : i < 4 := hi
      obtain rfl | rfl | rfl | rfl : i = 0 ∨ i = 1 ∨ i = 2 ∨ i = 3 := by omega
      · exact hfirst.trans (congrArg some htop.symm)
      · exact hsecond.trans (congrArg some hupper.symm)
      · exact hthird.trans (congrArg some hlower.symm)
      · exact hlast.trans (congrArg some hlow.symm)

/-- Memory after a store into the work RAM. -/
theorem memory?_put {address : Address} {width : Width} (value : Long)
    (hlow : 0xFF0000 ≤ address.toNat)
    (hhigh : address.toNat + width.bytes ≤ 0x1000000) (place : Nat) :
    memory? { bus with
        ram := BigEndian.put bus.ram (address.toNat - 0xFF0000) width value }
        place =
      if address.toNat ≤ place ∧ place < address.toNat + width.bytes then
        some (value.extractLsb'
          (8 * (address.toNat + width.bytes - 1 - place)) 8)
      else bus.memory? place := by
  by_cases hplace : place < 0xFF0000
  · rw [if_neg (by omega), memory?_of_cartridge _ hplace,
      memory?_of_cartridge _ hplace]
  · rw [memory?_of_workRam _ (Nat.le_of_not_lt hplace),
      memory?_of_workRam _ (Nat.le_of_not_lt hplace)]
    by_cases hend : place < 0x1000000
    · have hoffset : place - Region.workRam.start < 0x10000 := by
        rw [Region.start]
        omega
      rw [Vector.getElem?_eq_getElem hoffset,
        Vector.getElem?_eq_getElem hoffset, BigEndian.getElem_put]
      by_cases hin : address.toNat ≤ place ∧
          place < address.toNat + width.bytes
      · have hbyte : address.toNat - 0xFF0000 + width.bytes - 1 -
            (place - Region.workRam.start) =
              address.toNat + width.bytes - 1 - place := by
          rw [Region.start]
          omega
        rw [if_pos hin, if_pos (by rw [Region.start]; omega), hbyte]
      · rw [if_neg hin, if_neg (by rw [Region.start]; omega)]
    · rw [if_neg (by omega), Vector.getElem?_eq_none, Vector.getElem?_eq_none]
      all_goals
        rw [Region.start]
        omega

/-- Code in the cartridge does not depend on anything else. -/
theorem wordAt_of_cartridge {other : Bus} {place : Address}
    (hcartridge : other.cartridge = bus.cartridge)
    (hplace : Region.cartridge.Contains place) :
    other.wordAt place = bus.wordAt place := by
  have hat := Region.at?_of_contains hplace (by simp)
  rw [wordAt, wordAt, read_cartridge _ _ hat, read_cartridge _ _ hat,
    hcartridge]

theorem HoldsLoop.of_cartridge {other : Bus} {place : Address} {body : Opcode}
    {condition : Condition} {counter : BitVec 3}
    (hholds : bus.HoldsLoop place body condition counter)
    (hcartridge : other.cartridge = bus.cartridge)
    (hplace : place.toNat + 6 ≤ bus.cartridge.image.size) :
    other.HoldsLoop place body condition counter := by
  have hsize : bus.cartridge.image.size ≤ 0x400000 := bus.cartridge.size_le
  have hcontains : ∀ words ≤ 2,
      Region.cartridge.Contains (place.skip words) := by
    intro words hwords
    refine ⟨Nat.zero_le _, ?_⟩
    rw [Address.skip, BitVec.toNat_add, BitVec.toNat_ofNat, Region.start,
      Region.length]
    omega
  have hfirst := hcontains 0 (by decide)
  rw [Address.skip_zero] at hfirst
  constructor
  · rw [wordAt_of_cartridge hcartridge hfirst, hholds.first]
  · rw [wordAt_of_cartridge hcartridge (hcontains 1 (by decide)),
      hholds.branch]
  · rw [wordAt_of_cartridge hcartridge (hcontains 2 (by decide)),
      hholds.distance]

end Bus

/-- Addresses do not wrap within memory. -/
theorem Address.toNat_add_of_le {address : Address} {distance : Nat}
    (hend : address.toNat + distance ≤ 0x1000000) :
    (address + BitVec.ofNat 32 distance).toNat = address.toNat + distance := by
  rw [BitVec.toNat_add, BitVec.toNat_ofNat]
  omega

theorem Width.even_mul_bytes {width : Width} (hwidth : width ≠ .byte)
    (count : Nat) : width.bytes * count % 2 = 0 := by
  cases width with
  | byte => exact absurd rfl hwidth
  | word => simp only [bytes]; omega
  | long => simp only [bytes]; omega

/-- After so many accesses from an aligned address the next one is aligned. -/
theorem not_misaligned_after {width : Width} {address : Address}
    {start count : Nat} (hplace : address.toNat = start + width.bytes * count)
    (haligned : width ≠ .byte → start % 2 = 0) :
    ¬ Misaligned address width := by
  rintro ⟨hwidth, hodd⟩
  have heven := haligned hwidth
  have hdistance := Width.even_mul_bytes hwidth count
  omega

theorem RegisterFile.get_advance_self (file : RegisterFile) (number : Byte)
    (width : Width) :
    (file.advance number width).get (.address number) =
      file.get (.address number) + BitVec.ofNat 32 width.bytes :=
  file.get_set_self _ _

theorem RegisterFile.get_advance_other (file : RegisterFile) {number : Byte}
    (width : Width) {other : Register}
    (hother : ¬ (Register.address number).Same other) :
    (file.advance number width).get other = file.get other := by
  rw [advance, get_set, if_neg hother]

/-- What a move between two stepped address registers does. -/
theorem Instruction.executeMove_stepped (machine : Machine) {width : Width}
    {source destination : Byte} {value : Long} {bus : Bus}
    (hdistinct : source ≠ destination)
    (hread : (machine.bus.read (machine.registers.base source) width).result =
      .ok value)
    (hwrite : (machine.bus.write (machine.registers.base destination) width
      value).result = .ok bus) :
    let outcome := executeMove (.indirect source true)
      (.indirect destination true) width machine
    outcome.result = .ok () ∧
      outcome.machine =
        { machine with
          bus := bus
          registers := (machine.registers.advance source width).advance
            destination width } := by
  intro outcome
  have hplace : (Operand.indirect destination true).placeAfter?
      (.indirect source true) width machine.registers =
        some (machine.registers.base destination) :=
    congrArg some (if_neg fun hsame => hdistinct (Option.some.inj hsame))
  have houtcome : outcome = _ :=
    executeMove_of_value ((result_moveValue rfl).trans hread)
  rw [hplace, storeAt, Exec.writeMemory_of_ok hwrite] at houtcome
  · exact ⟨congrArg Outcome.result houtcome, congrArg Outcome.machine houtcome⟩
  · rintro name ⟨⟩

namespace Machine

/-- Address registers of the same number are the same. -/
theorem same_address_iff (number other : BitVec 3) :
    (Register.address (number.setWidth 8)).Same
      (.address (other.setWidth 8)) ↔ number = other := by
  revert number other
  decide

section Move

variable {machine : Machine} {width : Width} {i j : BitVec 3}

/-- The step of such a move. -/
theorem step_copy {value : Long} {bus : Bus} (hdistinct : i ≠ j)
    (hword : machine.bus.wordAt machine.pc =
      .ok (Opcode.move width ⟨3, i⟩ ⟨3, j⟩).word)
    (hread : (machine.bus.read
      (machine.registers.get (.address (i.setWidth 8))) width).result =
        .ok value)
    (hwrite : (machine.bus.write
      (machine.registers.get (.address (j.setWidth 8))) width value).result =
        .ok bus) :
    let between := (step machine).machine
    (step machine).result =
        .ok (.move (.indirect (i.setWidth 8) true)
          (.indirect (j.setWidth 8) true) width) ∧
      between.pc = machine.pc.skip 1 ∧ between.sr = machine.sr ∧
      between.bus = bus ∧
      between.registers =
        (machine.registers.advance (i.setWidth 8) width).advance
          (j.setWidth 8) width := by
  intro between
  have hcompletes : Completes machine.bus (machine.pc.skip 1)
      (.move width ⟨3, i⟩ ⟨3, j⟩)
      (.move (.indirect (i.setWidth 8) true) (.indirect (j.setWidth 8) true)
        width) 0 :=
    .move (.inr (.inr (.inr (.inl rfl)))) (.postIncrement i)
      (.inr (.inr (.inr (.inl rfl)))) (.postIncrement j)
  have hnames : i.setWidth 8 ≠ j.setWidth 8 := fun hsame =>
    hdistinct ((same_address_iff i j).mp (congrArg Register.slot hsame))
  have hexecute := Instruction.executeMove_stepped
    (machine.reaching (.move width ⟨3, i⟩ ⟨3, j⟩)
      (.move (.indirect (i.setWidth 8) true) (.indirect (j.setWidth 8) true)
        width) 0) hnames hread hwrite
  obtain ⟨hresult, hmachine⟩ :=
    step_of_completes hword hcompletes hexecute.1
  have hafter := hmachine.trans (congrArg (recorded · machine.pc) hexecute.2)
  rw [show between = _ from hafter]
  exact ⟨hresult, rfl, rfl, rfl, rfl⟩

end Move

/-- The address that an address register holds, as a number. -/
def pointer (machine : Machine) (number : BitVec 3) : Nat :=
  (machine.registers.get (.address (number.setWidth 8))).toNat

/-- The number of bytes that a loop of moves of this width copies. -/
def copyLength (machine : Machine) (width : Width) (counter : BitVec 3) : Nat :=
  width.bytes * machine.registers.passes (.data (counter.setWidth 8))

/-- A loop in the cartridge that copies from one range of memory to another one
in the work RAM, with which it has no byte in common. -/
structure ReadyToCopy (machine : Machine) (width : Width) (i j n : BitVec 3) :
    Prop where
  distinct : i ≠ j
  code : machine.bus.HoldsLoop machine.pc (.move width ⟨3, i⟩ ⟨3, j⟩) .never n
  inImage : machine.pc.toNat + 6 ≤ machine.bus.cartridge.image.size
  source : machine.bus.HasRange (machine.pointer i)
    (machine.copyLength width n)
  low : 0xFF0000 ≤ machine.pointer j
  high : machine.pointer j + machine.copyLength width n ≤ 0x1000000
  disjoint : machine.pointer i + machine.copyLength width n ≤
      machine.pointer j ∨
    machine.pointer j + machine.copyLength width n ≤ machine.pointer i
  aligned : width ≠ .byte →
    machine.pointer i % 2 = 0 ∧ machine.pointer j % 2 = 0

/-- A loop that copies, after so many passes: the front of the destination is
that of the source, and both pointers have gone past it. -/
structure Copying (start : Machine) (width : Width) (i j n : BitVec 3)
    (done : Nat) (machine : Machine) : Prop
    extends Looping start (.data (n.setWidth 8)) done machine where
  bus : machine.bus = { start.bus with ram := machine.bus.ram }
  memory : ∀ place, machine.bus.memory? place =
    if start.pointer j ≤ place ∧
        place < start.pointer j + width.bytes * done then
      start.bus.memory? (start.pointer i + (place - start.pointer j))
    else start.bus.memory? place
  source : machine.registers.get (.address (i.setWidth 8)) =
    start.registers.get (.address (i.setWidth 8)) +
      BitVec.ofNat 32 (width.bytes * done)
  destination : machine.registers.get (.address (j.setWidth 8)) =
    start.registers.get (.address (j.setWidth 8)) +
      BitVec.ofNat 32 (width.bytes * done)
  others : ∀ other, ¬ (Register.address (i.setWidth 8)).Same other →
    ¬ (Register.address (j.setWidth 8)).Same other →
    ¬ (Register.data (n.setWidth 8)).Same other →
      machine.registers.get other = start.registers.get other

section Passes

variable {start machine : Machine} {width : Width} {i j n : BitVec 3}
  {done : Nat}

theorem copying_start (machine : Machine) (width : Width) (i j n : BitVec 3) :
    machine.Copying width i j n 0 machine where
  toLooping := looping_start machine _
  bus := rfl
  memory place := by
    rw [if_neg]
    omega
  source := by
    rw [Nat.mul_zero, show BitVec.ofNat 32 0 = 0#32 from rfl, BitVec.add_zero]
  destination := by
    rw [Nat.mul_zero, show BitVec.ofNat 32 0 = 0#32 from rfl, BitVec.add_zero]
  others _ _ _ _ := rfl

/-- The next move lies in the two ranges. -/
theorem room_of_lt
    (hdone : done < start.registers.passes (.data (n.setWidth 8))) :
    width.bytes * done + width.bytes ≤ start.copyLength width n := by
  rw [← Nat.mul_succ]
  exact Nat.mul_le_mul_left _ hdone

theorem ReadyToCopy.source_end (hready : start.ReadyToCopy width i j n) :
    start.pointer i + start.copyLength width n ≤ 0x1000000 := by
  have hsize : start.bus.cartridge.image.size ≤ 0x400000 :=
    start.bus.cartridge.size_le
  rcases hready.source with himage | ⟨-, hhigh⟩ <;> omega

/-- The move of a pass finds bytes of the source that were there at the start.
-/
theorem Copying.exists_read (hready : start.ReadyToCopy width i j n)
    (hcopying : start.Copying width i j n done machine)
    (hdone : done < start.registers.passes (.data (n.setWidth 8))) :
    ∃ value,
      (machine.bus.read (machine.registers.get (.address (i.setWidth 8)))
        width).result = .ok value ∧
      ∀ k < width.bytes,
        start.bus.memory? (start.pointer i + (width.bytes * done + k)) =
          some (value.extractLsb' (8 * (width.bytes - 1 - k)) 8) := by
  have hroom : width.bytes * done + width.bytes ≤ start.copyLength width n :=
    room_of_lt hdone
  have hend := hready.source_end
  have hbytes : 0 < width.bytes := by cases width <;> decide
  have hplace : (machine.registers.get (.address (i.setWidth 8))).toNat =
      start.pointer i + width.bytes * done := by
    rw [hcopying.source]
    exact Address.toNat_add_of_le (by rw [← pointer]; omega)
  -- The part of the destination that has been written is not in the source.
  have hkept : ∀ k < width.bytes,
      machine.bus.memory? (start.pointer i + width.bytes * done + k) =
        start.bus.memory? (start.pointer i + (width.bytes * done + k)) := by
    intro k hk
    have hdisjoint := hready.disjoint
    rw [hcopying.memory, if_neg (by omega), Nat.add_assoc]
  obtain ⟨value, hload, hvalue⟩ := Bus.exists_load? width fun k hk => by
    rw [hkept k hk]
    exact hready.source.exists_memory? (by omega)
  refine ⟨value, ?_, fun k hk => by rw [← hkept k hk, hvalue k hk]⟩
  refine (machine.bus.read_eq_ok_iff (.inl ?_) width value).mpr ⟨?_, ?_⟩
  · exact hready.source.inMemory (by omega) (by omega)
  · exact not_misaligned_after hplace fun hwidth => (hready.aligned hwidth).1
  · rw [hplace]
    exact hload

theorem Copying.write (hready : start.ReadyToCopy width i j n)
    (hcopying : start.Copying width i j n done machine)
    (hdone : done < start.registers.passes (.data (n.setWidth 8)))
    (value : Long) :
    let address := machine.registers.get (.address (j.setWidth 8))
    address.toNat = start.pointer j + width.bytes * done ∧
      (machine.bus.write address width value).result =
        .ok { machine.bus with
          ram := BigEndian.put machine.bus.ram (address.toNat - 0xFF0000) width
            value } := by
  intro address
  have hroom : width.bytes * done + width.bytes ≤ start.copyLength width n :=
    room_of_lt hdone
  have hlow := hready.low
  have hhigh := hready.high
  have hplace : address.toNat = start.pointer j + width.bytes * done := by
    rw [show address = _ from hcopying.destination]
    exact Address.toNat_add_of_le (by rw [← pointer]; omega)
  refine ⟨hplace, ?_⟩
  rw [machine.bus.write_ram ?_ (by omega) (by omega)]
  · rfl
  · exact not_misaligned_after hplace fun hwidth => (hready.aligned hwidth).2

/-- Memory after one more move. -/
theorem memory?_of_put (hready : start.ReadyToCopy width i j n)
    (hcopying : start.Copying width i j n done machine)
    (hdone : done < start.registers.passes (.data (n.setWidth 8)))
    {address : Address} {value : Long}
    (hplace : address.toNat = start.pointer j + width.bytes * done)
    (hvalue : ∀ k < width.bytes,
      start.bus.memory? (start.pointer i + (width.bytes * done + k)) =
        some (value.extractLsb' (8 * (width.bytes - 1 - k)) 8))
    (place : Nat) :
    Bus.memory? { machine.bus with
        ram := BigEndian.put machine.bus.ram (address.toNat - 0xFF0000) width
          value } place =
      if start.pointer j ≤ place ∧
          place < start.pointer j + width.bytes * (done + 1) then
        start.bus.memory? (start.pointer i + (place - start.pointer j))
      else start.bus.memory? place := by
  have hroom : width.bytes * done + width.bytes ≤ start.copyLength width n :=
    room_of_lt hdone
  have hlow := hready.low
  have hhigh := hready.high
  rw [Bus.memory?_put value (by omega) (by omega), Nat.mul_succ]
  by_cases hmoved : address.toNat ≤ place ∧
      place < address.toNat + width.bytes
  · have hbyte := hvalue (place - address.toNat) (by omega)
    have hsource : width.bytes * done + (place - address.toNat) =
        place - start.pointer j := by
      omega
    have hshift : width.bytes - 1 - (place - address.toNat) =
        address.toNat + width.bytes - 1 - place := by
      omega
    rw [if_pos hmoved, if_pos (by omega), ← hshift, ← hbyte, hsource]
  · rw [if_neg hmoved, hcopying.memory]
    by_cases hfront : start.pointer j ≤ place ∧
        place < start.pointer j + width.bytes * done
    · rw [if_pos hfront, if_pos (by omega)]
    · rw [if_neg hfront, if_neg (by omega)]

theorem Copying.pass (hready : start.ReadyToCopy width i j n)
    (hcopying : start.Copying width i j n done machine)
    (hdone : done < start.registers.passes (.data (n.setWidth 8))) :
    machine.performed 2 =
        [.move (.indirect (i.setWidth 8) true) (.indirect (j.setWidth 8) true)
            width,
          .dbcc .never (.data (n.setWidth 8)) 0xFFFC] ∧
      start.Copying width i j n (done + 1) (machine.afterSteps 2) := by
  have hpc := hcopying.pc_of_lt hdone
  have hcode : machine.bus.HoldsLoop start.pc (.move width ⟨3, i⟩ ⟨3, j⟩)
      .never n :=
    hready.code.of_cartridge (by rw [hcopying.bus]) hready.inImage
  obtain ⟨value, hread, hvalue⟩ := hcopying.exists_read hready hdone
  obtain ⟨hplace, hwrite⟩ := hcopying.write hready hdone value
  obtain ⟨hresult, hskip, hstatus, hbus, hregisters⟩ :=
    step_copy hready.distinct (by rw [hpc]; exact hcode.first) hread hwrite
  have hcounter :
      (step machine).machine.registers.get (.data (n.setWidth 8)) =
        machine.registers.get (.data (n.setWidth 8)) := by
    rw [hregisters, RegisterFile.get_advance_other _ _ id,
      RegisterFile.get_advance_other _ _ id]
  obtain ⟨hperformed, hlooping, hsamebus, hkept⟩ :=
    hcopying.next hdone rfl hresult (hskip.trans (by rw [hpc])) hstatus
      hcounter (hready.code.of_cartridge (by rw [hbus, hcopying.bus])
        hready.inImage)
  have hapart := mt (same_address_iff i j).mp hready.distinct
  have hapart' := mt (same_address_iff j i).mp hready.distinct.symm
  refine ⟨hperformed, hlooping, ?_, ?_, ?_, ?_, fun other hi hj hn => ?_⟩
  · rw [hsamebus, hbus, hcopying.bus]
  · rw [hsamebus, hbus]
    exact memory?_of_put hready hcopying hdone hplace hvalue
  · rw [hkept _ id, hregisters, RegisterFile.get_advance_other _ _ hapart',
      RegisterFile.get_advance_self, hcopying.source, Nat.mul_succ,
      BitVec.ofNat_add, BitVec.add_assoc]
  · rw [hkept _ id, hregisters, RegisterFile.get_advance_self,
      RegisterFile.get_advance_other _ _ hapart, hcopying.destination,
      Nat.mul_succ, BitVec.ofNat_add, BitVec.add_assoc]
  · rw [hkept _ hn, hregisters, RegisterFile.get_advance_other _ _ hj,
      RegisterFile.get_advance_other _ _ hi, hcopying.others _ hi hj hn]

/-- What a loop that copies has made of a machine. -/
structure HasCopied (before : Machine) (width : Width) (i j n : BitVec 3)
    (after : Machine) : Prop where
  pc : after.pc = before.pc + 6
  status : after.sr = before.sr
  copied : ∀ k < before.copyLength width n, ∃ byte,
    before.bus.memory? (before.pointer i + k) = some byte ∧
      after.bus.memory? (before.pointer j + k) = some byte
  kept : ∀ place,
    ¬ (before.pointer j ≤ place ∧
        place < before.pointer j + before.copyLength width n) →
      after.bus.memory? place = before.bus.memory? place
  /-- Nothing on the bus but the work RAM has changed. -/
  bus : after.bus = { before.bus with ram := after.bus.ram }
  source : after.registers.get (.address (i.setWidth 8)) =
    before.registers.get (.address (i.setWidth 8)) +
      BitVec.ofNat 32 (before.copyLength width n)
  destination : after.registers.get (.address (j.setWidth 8)) =
    before.registers.get (.address (j.setWidth 8)) +
      BitVec.ofNat 32 (before.copyLength width n)
  counter : after.registers.get (.data (n.setWidth 8)) =
    (before.registers.get (.data (n.setWidth 8))).extractLsb' 16 16 ++
      0xFFFF#16
  others : ∀ other, ¬ (Register.address (i.setWidth 8)).Same other →
    ¬ (Register.address (j.setWidth 8)).Same other →
    ¬ (Register.data (n.setWidth 8)).Same other →
      after.registers.get other = before.registers.get other

theorem Copying.hasCopied (hready : start.ReadyToCopy width i j n)
    (hcopying : start.Copying width i j n
      (start.registers.passes (.data (n.setWidth 8))) machine) :
    start.HasCopied width i j n machine where
  pc := hcopying.pc.trans (if_pos rfl)
  status := hcopying.status
  copied k hk := by
    obtain ⟨byte, hbyte⟩ := hready.source.exists_memory? hk
    refine ⟨byte, hbyte, ?_⟩
    rw [hcopying.memory, if_pos ⟨Nat.le_add_right _ _,
      Nat.add_lt_add_left hk _⟩, Nat.add_sub_cancel_left, hbyte]
  kept place houtside := (hcopying.memory place).trans (if_neg houtside)
  bus := hcopying.bus
  source := hcopying.source
  destination := hcopying.destination
  counter := hcopying.counter_of_end
  others := hcopying.others

/-- A loop of moves from one range of memory to another takes two steps for
each pass, all of which succeed, and then has copied the whole range. -/
theorem loop_copies (hready : machine.ReadyToCopy width i j n) :
    let counter := Register.data (n.setWidth 8)
    let passes := (machine.registers.read counter .word).toNat + 1
    machine.performed (2 * passes) =
        (List.replicate passes
          [.move (.indirect (i.setWidth 8) true)
              (.indirect (j.setWidth 8) true) width,
            .dbcc .never counter 0xFFFC]).flatten ∧
      machine.HasCopied width i j n (machine.afterSteps (2 * passes)) := by
  intro counter passes
  obtain ⟨hperformed, hend⟩ := run_passes
    [.move (.indirect (i.setWidth 8) true) (.indirect (j.setWidth 8) true)
        width,
      .dbcc .never counter 0xFFFC]
    (fun done machine hdone hcopying => hcopying.pass hready hdone)
    (copying_start machine width i j n) (Nat.le_refl passes)
  exact ⟨hperformed, hend.hasCopied hready⟩

end Passes

end Machine

namespace CopyLoopWitness

/-- Three bytes of the cartridge are copied to the end of the work RAM. -/
def code : Bus :=
  Bus.powerOn
    ⟨#[0x12, 0xD8, 0x51, 0xCA, 0xFF, 0xFC, 0x0A, 0x0B, 0x0C], by decide⟩ 0

def ready : Machine :=
  { Machine.blank code with
    registers := ((RegisterFile.cleared.set (.data 2) 0xABCD0002).set
      (.address 0) 6).set (.address 1) 0xFFFFFD }

theorem readyToCopy_ready : ready.ReadyToCopy .byte 0 1 2 where
  distinct := by decide
  code := ⟨rfl, rfl, rfl⟩
  inImage := by decide
  source := .inl (by decide)
  low := by decide
  high := by decide
  disjoint := .inl (by decide)
  aligned hwidth := absurd rfl hwidth

theorem loop_copies_bytes :
    ready.ReadyToCopy .byte 0 1 2 ∧
      ready.HasCopied .byte 0 1 2 (ready.afterSteps 6) ∧
      (ready.afterSteps 6).pc = 6 ∧
      (ready.afterSteps 6).bus.memory? 0xFFFFFF = some 0x0C := by
  have hcopies := (Machine.loop_copies readyToCopy_ready).2
  refine ⟨readyToCopy_ready, hcopies, hcopies.pc, ?_⟩
  obtain ⟨byte, hsource, hdestination⟩ := hcopies.copied 2 (by decide)
  have hlast : ready.bus.memory? (ready.pointer 0 + 2) = some 0x0C := rfl
  exact hdestination.trans (hsource.symm.trans hlast)

end CopyLoopWitness

end MegaDrive
