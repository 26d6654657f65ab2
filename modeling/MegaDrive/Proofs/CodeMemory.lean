/-
Code in the cartridge and the work RAM.  There a word is the two bytes and a
long the four bytes that stand at its address, and what follows a readable word
is either more memory or nothing at all.
-/
import MegaDrive.Proofs.ByteOrder
import MegaDrive.Proofs.InstructionFormat

namespace MegaDrive

/-- The addresses of the cartridge and of the work RAM. -/
def Address.InMemory (address : Address) : Prop :=
  Region.cartridge.Contains address ∨ Region.workRam.Contains address

instance (address : Address) : Decidable address.InMemory :=
  inferInstanceAs (Decidable (_ ∨ _))

/-- The addresses that reading on from memory can reach: memory itself and the
first address behind each of its two regions, where nothing answers. -/
def Address.Reached (address : Address) : Prop :=
  address.InMemory ∨
    address.toNat = Region.cartridge.start + Region.cartridge.length ∨
    address.toNat = Region.workRam.start + Region.workRam.length

theorem map_eq_ok_iff {α β : Type} (result : Except Fault α) (map : α → β)
    (value : β) :
    result.map map = .ok value ↔ ∃ found, result = .ok found ∧
      map found = value := by
  cases result <;> simp [Except.map]

namespace Bus

def byteAt (bus : Bus) (place : Address) : Except Fault Byte :=
  (bus.read place .byte).result.map fun value => value.setWidth 8

/-- The byte that memory holds at a place, if it holds one there. -/
def memory? (bus : Bus) (i : Nat) : Option Byte :=
  if i < Region.workRam.start then bus.cartridge.image[i]?
  else bus.ram[i - Region.workRam.start]?

/-- The value of the bytes that memory holds from a place on. -/
def load? (bus : Bus) (i : Nat) : Width → Option Long
  | .byte => do
      let only ← bus.memory? i
      return only.setWidth 32
  | .word => do
      let high ← bus.memory? i
      let low ← bus.memory? (i + 1)
      return (high ++ low).setWidth 32
  | .long => do
      let first ← bus.memory? i
      let second ← bus.memory? (i + 1)
      let third ← bus.memory? (i + 2)
      let last ← bus.memory? (i + 3)
      return first ++ second ++ third ++ last

variable (bus : Bus) {place : Address}

theorem memory?_of_cartridge {i : Nat} (hi : i < Region.workRam.start) :
    bus.memory? i = bus.cartridge.image.toVector[i]? := by
  rw [memory?, if_pos hi]
  simp

theorem memory?_of_workRam {i : Nat} (hi : Region.workRam.start ≤ i) :
    bus.memory? i = bus.ram[i - Region.workRam.start]? := by
  rw [memory?, if_neg (Nat.not_lt.mpr hi)]

/-- Memory holds nothing between its two regions and nothing behind them. -/
theorem memory?_of_not_inMemory (hplace : ¬ place.InMemory) :
    bus.memory? place.toNat = none := by
  obtain ⟨hcartridge, hworkRam⟩ := not_or.mp hplace
  by_cases hi : place.toNat < Region.workRam.start
  · have hend : Region.cartridge.length ≤ place.toNat := by
      apply Nat.le_of_not_lt
      intro hlow
      exact hcartridge ⟨Nat.zero_le _, by rw [Region.start]; omega⟩
    rw [memory?, if_pos hi]
    exact Array.getElem?_eq_none (bus.cartridge.size_le.trans hend)
  · have hend : 0x1000000 ≤ place.toNat := by
      apply Nat.le_of_not_lt
      intro hlow
      exact hworkRam ⟨Nat.le_of_not_lt hi, hlow⟩
    rw [memory?, if_neg hi]
    apply Vector.getElem?_eq_none
    change 0x10000 ≤ place.toNat - 0xFF0000
    omega

theorem load?_of_cartridge (width : Width)
    (hplace : Region.cartridge.Contains place) :
    bus.load? place.toNat width =
      BigEndian.load? bus.cartridge.image.toVector place.toNat width := by
  have hlast : place.toNat < 0x400000 := hplace.2
  have hmemory : ∀ i < 4, bus.memory? (place.toNat + i) =
      bus.cartridge.image.toVector[place.toNat + i]? := by
    intro i hi
    apply memory?_of_cartridge
    change place.toNat + i < 0xFF0000
    omega
  have hfirst := hmemory 0 (by decide)
  rw [Nat.add_zero] at hfirst
  cases width with
  | byte => rw [load?, BigEndian.load?, hfirst]
  | word => rw [load?, BigEndian.load?, hfirst, hmemory 1 (by decide)]
  | long =>
      rw [load?, BigEndian.load?, hfirst, hmemory 1 (by decide),
        hmemory 2 (by decide), hmemory 3 (by decide)]

theorem load?_of_workRam (width : Width)
    (hplace : Region.workRam.Contains place) :
    bus.load? place.toNat width =
      BigEndian.load? bus.ram (place.toNat - Region.workRam.start) width := by
  have hfirst : 0xFF0000 ≤ place.toNat := hplace.1
  have hmemory : ∀ i, bus.memory? (place.toNat + i) =
      bus.ram[place.toNat - Region.workRam.start + i]? := by
    intro i
    have hoffset : place.toNat + i - Region.workRam.start =
        place.toNat - Region.workRam.start + i := by
      rw [Region.start]
      omega
    rw [memory?_of_workRam bus (hplace.1.trans (Nat.le_add_right _ i)), hoffset]
  have hzero := hmemory 0
  rw [Nat.add_zero, Nat.add_zero] at hzero
  cases width with
  | byte => rw [load?, BigEndian.load?, hzero]
  | word => rw [load?, BigEndian.load?, hzero, hmemory 1]
  | long =>
      rw [load?, BigEndian.load?, hzero, hmemory 1, hmemory 2, hmemory 3]

theorem load?_of_not_inMemory (width : Width) (hplace : ¬ place.InMemory) :
    bus.load? place.toNat width = none := by
  have hnone := bus.memory?_of_not_inMemory hplace
  cases width with
  | byte => rw [load?, hnone]; rfl
  | word => rw [load?, hnone]; rfl
  | long => rw [load?, hnone]; rfl

/-- Behind memory nothing answers. -/
theorem read_of_not_inMemory (width : Width) (hreached : place.Reached)
    (hplace : ¬ place.InMemory) :
    (bus.read place width).result = .error (.unreadable place) := by
  have hat : Region.at? place = none := by
    have hend := hreached.resolve_left hplace
    cases hregion : Region.at? place with
    | none => rfl
    | some region =>
        have hcontains := Region.contains_of_at? hregion
        cases region <;>
          simp only [Region.Contains, Region.start, Region.length] at * <;>
          omega
  rw [read, hat]
  rfl

/-- Reads from memory on give what memory holds, at even places. -/
theorem read_eq_ok_iff (hreached : place.Reached) (width : Width)
    (value : Long) :
    (bus.read place width).result = .ok value ↔
      ¬ Misaligned place width ∧
        bus.load? place.toNat width = some value := by
  by_cases hplace : place.InMemory
  · rcases hplace with hcartridge | hworkRam
    · have hat := Region.at?_of_contains hcartridge (by simp)
      rw [bus.read_cartridge width hat, bus.load?_of_cartridge width hcartridge]
      exact Storage.load_eq_ok_iff _ _ _ _ _
    · have hat := Region.at?_of_contains hworkRam (by simp)
      rw [bus.read_workRam width hat, bus.load?_of_workRam width hworkRam]
      exact Storage.load_eq_ok_iff _ _ _ _ _
  · rw [bus.read_of_not_inMemory width hreached hplace,
      bus.load?_of_not_inMemory width hplace]
    simp

theorem byteAt_eq_ok_iff (hreached : place.Reached) (byte : Byte) :
    bus.byteAt place = .ok byte ↔ bus.memory? place.toNat = some byte := by
  rw [byteAt, map_eq_ok_iff]
  constructor
  · rintro ⟨value, hread, rfl⟩
    obtain ⟨-, hload⟩ := (bus.read_eq_ok_iff hreached _ _).mp hread
    obtain ⟨only, honly, hvalue⟩ := Option.bind_eq_some_iff.mp hload
    cases hvalue
    rw [honly, BitVec.setWidth_setWidth_of_le _ (by decide),
      BitVec.setWidth_eq]
  · intro hmemory
    refine ⟨byte.setWidth 32, (bus.read_eq_ok_iff hreached _ _).mpr ⟨?_, ?_⟩,
      ?_⟩
    · exact fun hmisaligned => hmisaligned.1 rfl
    · rw [load?, hmemory]
      rfl
    · rw [BitVec.setWidth_setWidth_of_le _ (by decide), BitVec.setWidth_eq]

theorem wordAt_eq_ok_iff (hreached : place.Reached) (word : Word) :
    bus.wordAt place = .ok word ↔
      place.toNat % 2 = 0 ∧
        ∃ high low, bus.memory? place.toNat = some high ∧
          bus.memory? (place.toNat + 1) = some low ∧ word = high ++ low := by
  rw [wordAt, map_eq_ok_iff]
  constructor
  · rintro ⟨value, hread, rfl⟩
    obtain ⟨haligned, hload⟩ := (bus.read_eq_ok_iff hreached _ _).mp hread
    obtain ⟨high, hhigh, hrest⟩ := Option.bind_eq_some_iff.mp hload
    obtain ⟨low, hlow, hvalue⟩ := Option.bind_eq_some_iff.mp hrest
    cases hvalue
    refine ⟨?_, high, low, hhigh, hlow, ?_⟩
    · have hodd : place.toNat % 2 ≠ 1 := fun hodd => haligned ⟨by decide, hodd⟩
      omega
    · rw [BitVec.setWidth_setWidth_of_le _ (by decide), BitVec.setWidth_eq]
  · rintro ⟨heven, high, low, hhigh, hlow, rfl⟩
    refine ⟨(high ++ low).setWidth 32,
      (bus.read_eq_ok_iff hreached _ _).mpr ⟨?_, ?_⟩, ?_⟩
    · rintro ⟨-, hodd⟩
      omega
    · rw [load?, hhigh, hlow]
      rfl
    · rw [BitVec.setWidth_setWidth_of_le _ (by decide), BitVec.setWidth_eq]

theorem longAt_eq_ok_iff (hreached : place.Reached) (long : Long) :
    bus.longAt place = .ok long ↔
      place.toNat % 2 = 0 ∧
        ∃ first second third last, bus.memory? place.toNat = some first ∧
          bus.memory? (place.toNat + 1) = some second ∧
          bus.memory? (place.toNat + 2) = some third ∧
          bus.memory? (place.toNat + 3) = some last ∧
          long = first ++ second ++ third ++ last := by
  rw [longAt, bus.read_eq_ok_iff hreached]
  constructor
  · rintro ⟨haligned, hload⟩
    obtain ⟨first, hfirst, hrest⟩ := Option.bind_eq_some_iff.mp hload
    obtain ⟨second, hsecond, hrest⟩ := Option.bind_eq_some_iff.mp hrest
    obtain ⟨third, hthird, hrest⟩ := Option.bind_eq_some_iff.mp hrest
    obtain ⟨last, hlast, hvalue⟩ := Option.bind_eq_some_iff.mp hrest
    cases hvalue
    refine ⟨?_, first, second, third, last, hfirst, hsecond, hthird, hlast,
      rfl⟩
    have hodd : place.toNat % 2 ≠ 1 := fun hodd => haligned ⟨by decide, hodd⟩
    omega
  · rintro ⟨heven, first, second, third, last, hfirst, hsecond, hthird, hlast,
      rfl⟩
    refine ⟨?_, ?_⟩
    · rintro ⟨-, hodd⟩
      omega
    · rw [load?, hfirst, hsecond, hthird, hlast]
      rfl

/-- Behind a readable word reading goes on in the same region or ends. -/
theorem reached_skip {word : Word} (hreached : place.Reached)
    (hword : bus.wordAt place = .ok word) :
    Address.Reached (place.skip 1) ∧
      (place.skip 1).toNat = place.toNat + 2 := by
  obtain ⟨heven, high, low, hhigh, -, -⟩ :=
    (bus.wordAt_eq_ok_iff hreached word).mp hword
  have hplace : place.InMemory := by
    by_contra hplace
    rw [bus.memory?_of_not_inMemory hplace] at hhigh
    cases hhigh
  have hskip : (place.skip 1).toNat = (place.toNat + 2) % 2 ^ 32 := by
    rw [Address.skip, BitVec.toNat_add]
    rfl
  unfold Address.Reached Address.InMemory at *
  simp only [Region.Contains, Region.start, Region.length] at *
  omega

/-- A long is the two words that stand at its place. -/
theorem longAt_eq_ok_iff_words (hreached : place.Reached) (long : Long) :
    bus.longAt place = .ok long ↔
      ∃ high low, bus.wordAt place = .ok high ∧
        bus.wordAt (place.skip 1) = .ok low ∧ long = high ++ low := by
  rw [bus.longAt_eq_ok_iff hreached]
  constructor
  · rintro ⟨heven, first, second, third, last, hfirst, hsecond, hthird, hlast,
      rfl⟩
    have hhigh : bus.wordAt place = .ok (first ++ second) :=
      (bus.wordAt_eq_ok_iff hreached _).mpr
        ⟨heven, first, second, hfirst, hsecond, rfl⟩
    obtain ⟨hnext, hplace⟩ := bus.reached_skip hreached hhigh
    refine ⟨first ++ second, third ++ last, hhigh, ?_, ?_⟩
    · refine (bus.wordAt_eq_ok_iff hnext _).mpr ⟨?_, third, last, ?_, ?_, rfl⟩
      · omega
      · rw [hplace, hthird]
      · rw [hplace, hlast]
    · exact append_bytes first second third last
  · rintro ⟨high, low, hhigh, hlow, rfl⟩
    obtain ⟨hnext, hplace⟩ := bus.reached_skip hreached hhigh
    obtain ⟨heven, first, second, hfirst, hsecond, rfl⟩ :=
      (bus.wordAt_eq_ok_iff hreached _).mp hhigh
    obtain ⟨-, third, last, hthird, hlast, rfl⟩ :=
      (bus.wordAt_eq_ok_iff hnext _).mp hlow
    rw [hplace] at hthird hlast
    exact ⟨heven, first, second, third, last, hfirst, hsecond, hthird, hlast,
      (append_bytes first second third last).symm⟩

end Bus

end MegaDrive
