/-
Bus and registers as the host reaches them: with checked arithmetic on
addresses, slices of the storage and indices into a bank of registers.  Main
statement: nothing on the bus and no register is out of reach, whatever the
address, the width and the number.
-/
import MegaDrive.Bus
import MegaDrive.Proofs.Guard
import MegaDrive.Register

namespace MegaDrive

namespace Guarded

section Storage

variable {n : Nat} {start : Nat} {address : Address} {width : Width}

/-- How far an address lies behind the start of storage.  The difference wraps,
and only then is it a number of the host. -/
def place (start : Nat) (address : Address) : Nat :=
  (address - BitVec.ofNat 32 start).toNat

/-- A sum past a word would be a fault of the bounds like any other.  Here it
aborts, so that it is seen never to come about. -/
def load (bytes : Vector Byte n) (start : Nat) (address : Address)
    (width : Width) : Guarded (Except Fault Long) :=
  if Misaligned address width then return .error (.misaligned address)
  else do
    let stop ← add (place start address) width.bytes
    if stop ≤ n then
      let value ← loadFrom bytes (place start address) width
      return .ok value
    else return .error (.pastEnd address)

def store (bytes : Vector Byte n) (start : Nat) (address : Address)
    (width : Width) (value : Long) : Guarded (Except Fault (Vector Byte n)) :=
  if Misaligned address width then return .error (.misaligned address)
  else do
    let stop ← add (place start address) width.bytes
    if stop ≤ n then
      let stored ← storeFrom bytes (place start address) width value
      return .ok stored
    else return .error (.pastEnd address)

theorem place_eq (hstart : start ≤ address.toNat) :
    place start address = address.toNat - start := by
  have hlt := address.isLt
  rw [place, BitVec.toNat_sub, BitVec.toNat_ofNat]
  omega

/-- Storage that begins at or below the address, and not so high that an access
would wrap, can be loaded from: what its bounds do not admit is a fault. -/
theorem load_eq (bytes : Vector Byte n) (hstart : start ≤ address.toNat)
    (hend : address.toNat + 4 < 0x100000000) (width : Width) :
    load bytes start address width =
      .ok (Storage.load bytes start address width) := by
  have hbytes := width.bytes_le
  rw [load, Storage.load, place_eq hstart, add_of_lt (by omega), ok_bind,
    loadFrom_eq]
  split
  · rfl
  split
  next hfits =>
    cases hvalue : BigEndian.load? bytes (address.toNat - start) width with
    | some value => rfl
    | none =>
        have hend := (BigEndian.load?_eq_none_iff _ _ _).mp hvalue
        omega
  next hfits =>
    rw [(BigEndian.load?_eq_none_iff _ _ _).mpr (by omega)]
    rfl

theorem store_eq (bytes : Vector Byte n) (hstart : start ≤ address.toNat)
    (hend : address.toNat + 4 < 0x100000000) (width : Width) (value : Long) :
    store bytes start address width value =
      .ok (Storage.store bytes start address width value) := by
  have hbytes := width.bytes_le
  rw [store, Storage.store, place_eq hstart, add_of_lt (by omega), ok_bind,
    storeFrom_eq]
  split
  · rfl
  split
  next hfits =>
    rw [BigEndian.store?, if_pos hfits]
    rfl
  next hfits =>
    rw [BigEndian.store?, if_neg hfits]
    rfl

end Storage

section Accesses

variable (bus : Bus) (address : Address) (width : Width) (value : Long)

def read : Guarded (Reply Long) :=
  match Region.at? address with
  | some .cartridge => do
      let result ← load bus.cartridge.image.toVector Region.cartridge.start
        address width
      return .quiet result
  | some .workRam => do
      let result ← load bus.ram Region.workRam.start address width
      return .quiet result
  | some .controller =>
      return ⟨.ok (width.truncate bus.controller),
        [.controllerRead address width]⟩
  | some .latch | some .video | none =>
      return .quiet (.error (.unreadable address))

def writtenRam : Guarded Bus.Written := do
  let result ← store bus.ram Region.workRam.start address width value
  match result with
  | .ok ram => return ⟨.ok (), { bus with ram := ram }, []⟩
  | .error fault => return ⟨.error fault, bus, []⟩

/-- The latch and the video ports take plain differences of addresses, which
nothing but their region keeps from going below zero. -/
def writtenLatch : Guarded Bus.Written := do
  let offset ← sub address.toNat Region.latch.start
  match Bus.latchAfter? bus.latch offset width value with
  | some latch =>
      return ⟨.ok (), { bus with latch := latch }, [.latched latch]⟩
  | none => return ⟨.error (.unwritable address width), bus, []⟩

def writtenVideo : Guarded Bus.Written :=
  if width = .byte then
    return ⟨.error (.unwritable address width), bus, []⟩
  else do
    let index ← sub address.toNat Region.video.start
    let stop ← add index width.bytes
    if 16 < stop then return ⟨.error (.pastEnd address), bus, []⟩
    else
      let video ← storeFrom bus.video index width value
      return ⟨.ok (), { bus with video := video },
        [.videoWrite address width value]⟩

def written : Guarded Bus.Written :=
  match Region.at? address with
  | some .cartridge =>
      return ⟨.error (.unwritable address width), bus,
        [.cartridgeWrite address]⟩
  | some .workRam => writtenRam bus address width value
  | some .controller =>
      return ⟨.ok (), bus, [.controllerWrite address width value]⟩
  | some .latch => writtenLatch bus address width value
  | some .video => writtenVideo bus address width value
  | none => return ⟨.error (.unwritable address width), bus, []⟩

def write : Guarded (Reply Bus) := do
  let done ← written bus address width value
  return done.reply

variable {bus address width value}

/-- Every region ends well before the last address, so that no access in it
would wrap. -/
theorem bounds_of_at? {region : Region}
    (hat : Region.at? address = some region) :
    region.start ≤ address.toNat ∧ address.toNat + 4 < 0x100000000 := by
  obtain ⟨hlow, hhigh⟩ := Region.contains_of_at? hat
  refine ⟨hlow, ?_⟩
  cases region <;> simp only [Region.start, Region.length] at hhigh <;> omega

/-- An address in a region does not lie before it. -/
theorem sub_start {region : Region} (hat : Region.at? address = some region) :
    sub address.toNat region.start = .ok (region.offset address) :=
  sub_of_le (bounds_of_at? hat).1

theorem read_eq (bus : Bus) (address : Address) (width : Width) :
    read bus address width = .ok (bus.read address width) := by
  rw [read, Bus.read]
  cases hat : Region.at? address with
  | none => rfl
  | some region =>
      obtain ⟨hlow, hend⟩ := bounds_of_at? hat
      cases region with
      | cartridge =>
          simp only [load_eq _ hlow hend]
          rfl
      | workRam =>
          simp only [load_eq _ hlow hend]
          rfl
      | controller | latch | video => rfl

theorem writtenRam_eq (hat : Region.at? address = some .workRam) :
    writtenRam bus address width value =
      .ok (bus.writtenRam address width value) := by
  obtain ⟨hlow, hend⟩ := bounds_of_at? hat
  rw [writtenRam, store_eq _ hlow hend, ok_bind, Bus.writtenRam]
  cases Storage.store bus.ram Region.workRam.start address width value <;> rfl

/-- The region of the latch keeps the difference from going below zero. -/
theorem writtenLatch_eq (hat : Region.at? address = some .latch) :
    writtenLatch bus address width value =
      .ok (bus.writtenLatch address width value) := by
  rw [writtenLatch, sub_start hat, ok_bind, Bus.writtenLatch]
  cases Bus.latchAfter? bus.latch (Region.latch.offset address) width value <;>
    rfl

/-- Behind the bound of the video ports a slice has room for the value. -/
theorem writtenVideo_eq (hat : Region.at? address = some .video) :
    writtenVideo bus address width value =
      .ok (bus.writtenVideo address width value) := by
  have hend := (bounds_of_at? hat).2
  have hbytes := width.bytes_le
  have hsum : Region.video.offset address + width.bytes < 0x100000000 := by
    unfold Region.offset
    omega
  unfold writtenVideo Bus.writtenVideo
  by_cases hwidth : width = .byte
  · rw [if_pos hwidth, if_pos hwidth]
    rfl
  rw [if_neg hwidth, if_neg hwidth, sub_start hat, ok_bind, add_of_lt hsum,
    ok_bind]
  by_cases hpast : 16 < Region.video.offset address + width.bytes
  · rw [if_pos hpast, (BigEndian.store?_eq_none_iff _ _ _ _).mpr hpast]
    rfl
  · rw [if_neg hpast, storeFrom_eq, BigEndian.store?,
      if_pos (Nat.le_of_not_lt hpast)]
    rfl

theorem written_eq (bus : Bus) (address : Address) (width : Width)
    (value : Long) :
    written bus address width value =
      .ok (bus.written address width value) := by
  rw [written, Bus.written]
  cases hat : Region.at? address with
  | none => rfl
  | some region =>
      cases region with
      | cartridge | controller => rfl
      | workRam => exact writtenRam_eq hat
      | latch => exact writtenLatch_eq hat
      | video => exact writtenVideo_eq hat

theorem write_eq (bus : Bus) (address : Address) (width : Width)
    (value : Long) :
    write bus address width value = .ok (bus.write address width value) := by
  rw [write, written_eq]
  rfl

end Accesses

section Registers

variable {n : Nat}

def item (bank : Vector Long n) (i : Nat) : Guarded Long :=
  if hi : i < n then .ok bank[i] else .error .index

def setItem (bank : Vector Long n) (i : Nat) (value : Long) :
    Guarded (Vector Long n) :=
  if hi : i < n then .ok (bank.set i value) else .error .index

/-- Where a register of this number stands in its bank. -/
def slot (number : Byte) : Nat := number.toNat &&& 7

def get (file : RegisterFile) : Register → Guarded Long
  | .data number => item file.data (slot number)
  | .address number => item file.address (slot number)

def set (file : RegisterFile) (register : Register) (value : Long) :
    Guarded RegisterFile :=
  match register with
  | .data number => do
      let data ← setItem file.data (slot number) value
      return { file with data := data }
  | .address number => do
      let address ← setItem file.address (slot number) value
      return { file with address := address }

def readRegister (file : RegisterFile) (register : Register) (width : Width) :
    Guarded Long := do
  let value ← get file register
  return width.truncate value

def writeRegister (file : RegisterFile) (register : Register) (width : Width)
    (value : Long) : Guarded RegisterFile := do
  let kept ← get file register
  set file register (width.merge kept value)

def base (file : RegisterFile) (number : Byte) : Guarded Address :=
  get file (.address number)

def advance (file : RegisterFile) (number : Byte) (width : Width) :
    Guarded RegisterFile := do
  let address ← base file number
  set file (.address number) (address + BitVec.ofNat 32 width.bytes)

def stackPointer (file : RegisterFile) : Guarded Address :=
  get file Register.stackPointer

def withStackPointer (file : RegisterFile) (address : Address) :
    Guarded RegisterFile :=
  set file Register.stackPointer address

/-- Three bits are an index into a bank of eight. -/
theorem slot_eq (number : Byte) : slot number = (Register.slot number).val :=
  Nat.and_two_pow_sub_one_eq_mod number.toNat 3

theorem item_slot (bank : Vector Long 8) (number : Byte) :
    item bank (slot number) = .ok (bank.get (Register.slot number)) := by
  rw [slot_eq]
  exact dif_pos (Register.slot number).isLt

theorem setItem_slot (bank : Vector Long 8) (number : Byte) (value : Long) :
    setItem bank (slot number) value =
      .ok (bank.set (Register.slot number).val value
        (Register.slot number).isLt) := by
  rw [slot_eq]
  exact dif_pos (Register.slot number).isLt

theorem get_eq (file : RegisterFile) (register : Register) :
    get file register = .ok (file.get register) := by
  cases register with
  | data number => exact item_slot file.data number
  | address number => exact item_slot file.address number

theorem set_eq (file : RegisterFile) (register : Register) (value : Long) :
    set file register value = .ok (file.set register value) := by
  cases register with
  | data number =>
      rw [set, setItem_slot]
      rfl
  | address number =>
      rw [set, setItem_slot]
      rfl

theorem readRegister_eq (file : RegisterFile) (register : Register)
    (width : Width) :
    readRegister file register width = .ok (file.read register width) := by
  rw [readRegister, get_eq]
  rfl

theorem writeRegister_eq (file : RegisterFile) (register : Register)
    (width : Width) (value : Long) :
    writeRegister file register width value =
      .ok (file.write register width value) := by
  rw [writeRegister, get_eq, ok_bind, set_eq]
  rfl

theorem base_eq (file : RegisterFile) (number : Byte) :
    base file number = .ok (file.base number) :=
  get_eq file (.address number)

theorem advance_eq (file : RegisterFile) (number : Byte) (width : Width) :
    advance file number width = .ok (file.advance number width) := by
  rw [advance, base_eq, ok_bind, set_eq]
  rfl

theorem stackPointer_eq (file : RegisterFile) :
    stackPointer file = .ok file.stackPointer :=
  get_eq file Register.stackPointer

theorem withStackPointer_eq (file : RegisterFile) (address : Address) :
    withStackPointer file address = .ok (file.withStackPointer address) :=
  set_eq file Register.stackPointer address

end Registers

end Guarded

end MegaDrive
