/-
Everything that the processor can reach: the cartridge, the work RAM, the
controller block, the security latch and the video ports.
-/
import MegaDrive.Bus.Cartridge
import MegaDrive.Journal

namespace MegaDrive

structure Bus where
  cartridge : Cartridge
  /-- What every read of the controller block gives. -/
  controller : Long
  ram : Vector Byte 0x10000
  latch : Long
  video : Vector Byte 16

namespace Bus

/-- What a write comes to: whether it is accepted, the bus that it leaves in
either case, and what it notes. -/
structure Written where
  result : Except Fault Unit
  bus : Bus
  events : List Event

/-- The state at power-on: all that can be written is zero. -/
def powerOn (cartridge : Cartridge) (controller : Long) : Bus where
  cartridge := cartridge
  controller := controller
  ram := Vector.replicate 0x10000 0
  latch := 0
  video := Vector.replicate 16 0

def ofImage (image : Array Byte) (controller : Long) : Except Fault Bus :=
  (Cartridge.ofImage image).map fun cartridge => powerOn cartridge controller

/-- The latch after a write.  It is written whole, or as two words of which
the first is the upper one. -/
def latchAfter? (latch : Long) (offset : Nat) (width : Width)
    (value : Long) : Option Long :=
  match width, offset with
  | .long, 0 => some value
  | .word, 0 => some (value.extractLsb' 0 16 ++ latch.extractLsb' 0 16)
  | .word, 2 => some (latch.extractLsb' 16 16 ++ value.extractLsb' 0 16)
  | _, _ => none

/-- Read at an address.  Controller reads are noted; the latch and the video
ports cannot be read. -/
def read (bus : Bus) (address : Address) (width : Width) : Reply Long :=
  match Region.at? address with
  | some .cartridge => .quiet (bus.cartridge.load address width)
  | some .workRam =>
      .quiet (Storage.load bus.ram Region.workRam.start address width)
  | some .controller =>
      ⟨.ok (width.truncate bus.controller), [.controllerRead address width]⟩
  | some .latch | some .video | none => .quiet (.error (.unreadable address))

def writtenRam (bus : Bus) (address : Address) (width : Width)
    (value : Long) : Written :=
  match Storage.store bus.ram Region.workRam.start address width value with
  | .ok ram => ⟨.ok (), { bus with ram := ram }, []⟩
  | .error fault => ⟨.error fault, bus, []⟩

def writtenLatch (bus : Bus) (address : Address) (width : Width)
    (value : Long) : Written :=
  match latchAfter? bus.latch (Region.latch.offset address) width value with
  | some latch => ⟨.ok (), { bus with latch := latch }, [.latched latch]⟩
  | none => ⟨.error (.unwritable address width), bus, []⟩

/-- The video ports take words and longs. -/
def writtenVideo (bus : Bus) (address : Address) (width : Width)
    (value : Long) : Written :=
  if width = .byte then ⟨.error (.unwritable address width), bus, []⟩
  else
    match BigEndian.store? bus.video (Region.video.offset address) width
        value with
    | some video =>
        ⟨.ok (), { bus with video := video },
          [.videoWrite address width value]⟩
    | none => ⟨.error (.pastEnd address), bus, []⟩

/-- Write at an address.  The cartridge refuses and notes it, and the controller
block drops the value. -/
def written (bus : Bus) (address : Address) (width : Width) (value : Long) :
    Written :=
  match Region.at? address with
  | some .cartridge =>
      ⟨.error (.unwritable address width), bus, [.cartridgeWrite address]⟩
  | some .workRam => bus.writtenRam address width value
  | some .controller => ⟨.ok (), bus, [.controllerWrite address width value]⟩
  | some .latch => bus.writtenLatch address width value
  | some .video => bus.writtenVideo address width value
  | none => ⟨.error (.unwritable address width), bus, []⟩

/-- The bus after a write as an answer, which a refused write has none of. -/
def Written.reply (written : Written) : Reply Bus :=
  ⟨written.result.map fun _ => written.bus, written.events⟩

def write (bus : Bus) (address : Address) (width : Width) (value : Long) :
    Reply Bus :=
  (bus.written address width value).reply

/-- The cartridge begins with the stack pointer and the address at which the
processor starts. -/
def initialStackPointer (bus : Bus) : Reply Long :=
  bus.read 0 .long

def initialPc (bus : Bus) : Reply Long :=
  bus.read 4 .long

theorem ofImage_of_fits {image : Array Byte}
    (hsize : image.size ≤ Region.cartridge.length) (controller : Long) :
    ofImage image controller = .ok (powerOn ⟨image, hsize⟩ controller) := by
  rw [ofImage, Cartridge.ofImage, dif_pos hsize]
  rfl

section Regions

variable (bus : Bus) {address : Address} (width : Width) (value : Long)

theorem read_cartridge (hat : Region.at? address = some .cartridge) :
    bus.read address width = .quiet (bus.cartridge.load address width) := by
  rw [read, hat]

theorem read_workRam (hat : Region.at? address = some .workRam) :
    bus.read address width =
      .quiet (Storage.load bus.ram Region.workRam.start address width) := by
  rw [read, hat]

theorem read_controller (hat : Region.at? address = some .controller) :
    bus.read address width =
      ⟨.ok (width.truncate bus.controller),
        [.controllerRead address width]⟩ := by
  rw [read, hat]

theorem read_unreadable (hcartridge : Region.at? address ≠ some .cartridge)
    (hworkRam : Region.at? address ≠ some .workRam)
    (hcontroller : Region.at? address ≠ some .controller) :
    bus.read address width = .quiet (.error (.unreadable address)) := by
  unfold read
  split <;> first | contradiction | rfl

theorem write_cartridge (hat : Region.at? address = some .cartridge) :
    bus.write address width value =
      ⟨.error (.unwritable address width), [.cartridgeWrite address]⟩ := by
  rw [write, written, hat]
  rfl

theorem write_workRam (hat : Region.at? address = some .workRam) :
    bus.write address width value =
      .quiet
        ((Storage.store bus.ram Region.workRam.start address width value).map
          fun ram => { bus with ram := ram }) := by
  rw [write, written, hat]
  dsimp only [writtenRam]
  cases Storage.store bus.ram Region.workRam.start address width value <;> rfl

theorem write_controller (hat : Region.at? address = some .controller) :
    bus.write address width value =
      ⟨.ok bus, [.controllerWrite address width value]⟩ := by
  rw [write, written, hat]
  rfl

theorem write_latch_of_some (hat : Region.at? address = some .latch)
    {stored : Long}
    (hstored : latchAfter? bus.latch (Region.latch.offset address) width
      value = some stored) :
    bus.write address width value =
      ⟨.ok { bus with latch := stored }, [.latched stored]⟩ := by
  rw [write, written, hat]
  dsimp only
  rw [writtenLatch, hstored]
  rfl

theorem write_latch_of_none (hat : Region.at? address = some .latch)
    (hstored : latchAfter? bus.latch (Region.latch.offset address) width
      value = none) :
    bus.write address width value =
      .quiet (.error (.unwritable address width)) := by
  rw [write, written, hat]
  dsimp only
  rw [writtenLatch, hstored]
  rfl

theorem write_video_of_byte (hat : Region.at? address = some .video)
    (hwidth : width = .byte) :
    bus.write address width value =
      .quiet (.error (.unwritable address width)) := by
  rw [write, written, hat]
  dsimp only
  rw [writtenVideo, if_pos hwidth]
  rfl

theorem write_video_of_fits (hat : Region.at? address = some .video)
    (hwidth : width ≠ .byte)
    (hfits : Region.video.offset address + width.bytes ≤ 16) :
    bus.write address width value =
      ⟨.ok { bus with
          video := BigEndian.put bus.video (Region.video.offset address) width
            value },
        [.videoWrite address width value]⟩ := by
  rw [write, written, hat]
  dsimp only
  rw [writtenVideo, if_neg hwidth, BigEndian.store?, if_pos hfits]
  rfl

theorem write_video_of_pastEnd (hat : Region.at? address = some .video)
    (hwidth : width ≠ .byte)
    (hend : 16 < Region.video.offset address + width.bytes) :
    bus.write address width value = .quiet (.error (.pastEnd address)) := by
  rw [write, written, hat]
  dsimp only
  rw [writtenVideo, if_neg hwidth,
    (BigEndian.store?_eq_none_iff _ _ _ _).mpr hend]
  rfl

theorem write_nowhere (hat : Region.at? address = none) :
    bus.write address width value =
      .quiet (.error (.unwritable address width)) := by
  rw [write, written, hat]
  rfl

end Regions

section WorkRam

variable {address : Address} {width : Width}

theorem at?_workRam (hlow : 0xFF0000 ≤ address.toNat)
    (hhigh : address.toNat < 0x1000000) :
    Region.at? address = some .workRam :=
  Region.at?_of_contains ⟨hlow, hhigh⟩ (by simp)

/-- A store that lies in the work RAM is taken. -/
theorem write_ram (bus : Bus) (haligned : ¬ Misaligned address width)
    (hlow : 0xFF0000 ≤ address.toNat)
    (hhigh : address.toNat + width.bytes ≤ 0x1000000) (value : Long) :
    bus.write address width value =
      .quiet (.ok { bus with
        ram := BigEndian.put bus.ram (address.toNat - 0xFF0000) width
          value }) := by
  have hbytes : 0 < width.bytes := by cases width <;> decide
  have hfits : address.toNat - Region.workRam.start + width.bytes ≤ 0x10000 := by
    simp only [Region.start]
    omega
  rw [write_workRam _ _ _ (at?_workRam hlow (by omega)),
    Storage.store_of_fits _ _ haligned hfits]
  rfl

theorem read_ram {bus : Bus} {value : Long}
    (haligned : ¬ Misaligned address width) (hlow : 0xFF0000 ≤ address.toNat)
    (hhigh : address.toNat < 0x1000000)
    (hvalue : BigEndian.load? bus.ram (address.toNat - 0xFF0000) width =
      some value) :
    bus.read address width = .quiet (.ok value) := by
  rw [read_workRam _ _ (at?_workRam hlow hhigh)]
  exact congrArg Reply.quiet (Storage.load_of_some _ haligned hvalue)

/-- A long in the work RAM is read as it was written. -/
theorem read_of_write_long {bus after : Bus} {value : Long}
    (haligned : ¬ Misaligned address .long) (hlow : 0xFF0000 ≤ address.toNat)
    (hhigh : address.toNat + 4 ≤ 0x1000000)
    (hwrite : (bus.write address .long value).result = .ok after) :
    after.read address .long = .quiet (.ok value) := by
  rw [write_ram bus haligned hlow hhigh] at hwrite
  cases hwrite
  exact read_ram haligned hlow (by omega)
    (BigEndian.load?_put_long bus.ram value (by omega))

end WorkRam

section Refusals

variable {bus : Bus} {address : Address} {width : Width} {value : Long}
  {fault : Fault}

theorem bus_writtenRam_of_error
    (hrefused : (bus.writtenRam address width value).result = .error fault) :
    (bus.writtenRam address width value).bus = bus := by
  unfold writtenRam at hrefused ⊢
  split at hrefused
  · cases hrefused
  · rfl

theorem bus_writtenLatch_of_error
    (hrefused : (bus.writtenLatch address width value).result =
      .error fault) :
    (bus.writtenLatch address width value).bus = bus := by
  unfold writtenLatch at hrefused ⊢
  split at hrefused
  · cases hrefused
  · rfl

theorem bus_writtenVideo_of_error
    (hrefused : (bus.writtenVideo address width value).result =
      .error fault) :
    (bus.writtenVideo address width value).bus = bus := by
  unfold writtenVideo at hrefused ⊢
  by_cases hwidth : width = .byte
  · rw [if_pos hwidth]
  · rw [if_neg hwidth] at hrefused ⊢
    split at hrefused
    · cases hrefused
    · rfl

/-- A write that is refused leaves the bus as it was. -/
theorem bus_written_of_error
    (hrefused : (bus.written address width value).result = .error fault) :
    (bus.written address width value).bus = bus := by
  unfold written at hrefused ⊢
  split at hrefused
  · rfl
  · exact bus_writtenRam_of_error hrefused
  · rfl
  · exact bus_writtenLatch_of_error hrefused
  · exact bus_writtenVideo_of_error hrefused
  · rfl

theorem of_write_ok {after : Bus}
    (hwrite : (bus.write address width value).result = .ok after) :
    (bus.written address width value).result = .ok () ∧
      (bus.written address width value).bus = after := by
  rw [write, Written.reply] at hwrite
  cases hresult : (bus.written address width value).result with
  | ok done =>
      rw [hresult] at hwrite
      exact ⟨rfl, Except.ok.inj hwrite⟩
  | error cause =>
      rw [hresult] at hwrite
      cases hwrite

/-- A refused write is refused with its fault and leaves the bus alone. -/
theorem of_write_error
    (hwrite : (bus.write address width value).result = .error fault) :
    (bus.written address width value).result = .error fault ∧
      (bus.written address width value).bus = bus := by
  rw [write, Written.reply] at hwrite
  cases hresult : (bus.written address width value).result with
  | ok done =>
      rw [hresult] at hwrite
      cases hwrite
  | error cause =>
      rw [hresult] at hwrite
      cases hwrite
      exact ⟨rfl, bus_written_of_error hresult⟩

end Refusals

end Bus

end MegaDrive
