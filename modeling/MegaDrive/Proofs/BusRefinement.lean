/-
The bus against its reference.  Both are related at power-on, one write keeps
them related and is answered alike, and so is every sequence of writes.  Main
statement: whatever is written, in whatever order, the bus answers every write
and every later read as the reference does.
-/
import MegaDrive.Proofs.FlatBus

namespace MegaDrive

/-- The bus holds what the reference holds, each block at its own addresses. -/
structure FlatBus.Represents (flat : FlatBus) (bus : Bus) : Prop where
  image : flat.image = bus.cartridge.image
  controller : flat.controller = bus.controller
  ram : ∀ (i : Nat) (hi : i < 0x10000),
    bus.ram[i] = flat.cells (0xFF0000 + i)
  latch : ∀ i < 4,
    bus.latch.extractLsb' (8 * (3 - i)) 8 = flat.cells (0xA14000 + i)
  video : ∀ (i : Nat) (hi : i < 16),
    bus.video[i] = flat.cells (0xC00000 + i)

namespace FlatBus

theorem represents_powerOn (cartridge : Cartridge) (controller : Long) :
    (powerOn cartridge.image controller).Represents
      (Bus.powerOn cartridge controller) where
  image := rfl
  controller := rfl
  ram i hi := by simp [Bus.powerOn, powerOn]
  latch i hi := by simp [Bus.powerOn, powerOn]
  video i hi := by simp [Bus.powerOn, powerOn]

section Writes

variable {flat : FlatBus} {bus : Bus} {place : Nat} {width : Width}

theorem Represents.writeRam (hbus : flat.Represents bus)
    (hplace : 0xFF0000 ≤ place) (value : Long) :
    Represents
      { flat with cells := spell flat.cells place width value }
      { bus with
        ram := BigEndian.put bus.ram (place - 0xFF0000) width value } where
  image := hbus.image
  controller := hbus.controller
  ram i hi := getElem_put_eq_spell hplace hbus.ram width value i hi
  latch i hi :=
    (hbus.latch i hi).trans (spell_outside _ _ (by omega)).symm
  video i hi :=
    (hbus.video i hi).trans (spell_outside _ _ (by omega)).symm

theorem Represents.writeVideo (hbus : flat.Represents bus)
    (hplace : 0xC00000 ≤ place) (hend : place + width.bytes ≤ 0xC00010)
    (value : Long) :
    Represents
      { flat with cells := spell flat.cells place width value }
      { bus with
        video := BigEndian.put bus.video (place - 0xC00000) width value } where
  image := hbus.image
  controller := hbus.controller
  ram i hi :=
    (hbus.ram i hi).trans (spell_outside _ _ (by omega)).symm
  latch i hi :=
    (hbus.latch i hi).trans (spell_outside _ _ (by omega)).symm
  video i hi := getElem_put_eq_spell hplace hbus.video width value i hi

theorem Represents.writeLatch (hbus : flat.Represents bus)
    (hplace : 0xA14000 ≤ place) (hend : place + width.bytes ≤ 0xA14004)
    {value stored : Long}
    (hstored : Bus.latchAfter? bus.latch (place - 0xA14000) width value =
      some stored) :
    Represents
      { flat with cells := spell flat.cells place width value }
      { bus with latch := stored } where
  image := hbus.image
  controller := hbus.controller
  ram i hi :=
    (hbus.ram i hi).trans (spell_outside _ _ (by omega)).symm
  latch i hi := by
    change stored.extractLsb' _ 8 =
      spell flat.cells place width value (0xA14000 + i)
    rw [Bus.extractLsb'_latchAfter? hstored hi, spell]
    by_cases hinside : place ≤ 0xA14000 + i ∧ 0xA14000 + i < place + width.bytes
    · have hplaces : place - 0xA14000 + width.bytes - 1 - i =
          place + width.bytes - 1 - (0xA14000 + i) := by omega
      rw [if_pos hinside, if_pos (by omega), ofNat_div_eq_extractLsb', hplaces]
    · rw [if_neg hinside, if_neg (by omega)]
      exact hbus.latch i hi
  video i hi :=
    (hbus.video i hi).trans (spell_outside _ _ (by omega)).symm

end Writes

/-- Both sides accept and stay related, or both refuse with one fault. -/
inductive Agree : Except Fault FlatBus → Except Fault Bus → Prop
  | accepted {flat : FlatBus} {bus : Bus} (hbus : flat.Represents bus) :
      Agree (.ok flat) (.ok bus)
  | refused (fault : Fault) : Agree (.error fault) (.error fault)

section Agreement

variable {flat : FlatBus} {bus : Bus} {address : Address} {width : Width}

theorem write_of_discards (value : Long) (hdiscards : Discards address) :
    flat.write ⟨address, width, value⟩ = .ok flat := by
  rw [write, if_pos hdiscards]

theorem write_of_stores (value : Long) (hdiscards : ¬ Discards address)
    (hstores : Stores address width) :
    flat.write ⟨address, width, value⟩ =
      .ok { flat with
        cells := spell flat.cells address.toNat width value } := by
  rw [write, if_neg hdiscards, if_pos hstores]

theorem write_of_refused (value : Long) (hdiscards : ¬ Discards address)
    (hstores : ¬ Stores address width) {fault : Fault}
    (hfault : refusal address width = fault) :
    flat.write ⟨address, width, value⟩ = .error fault := by
  rw [write, if_neg hdiscards, if_neg hstores, hfault]

theorem write_agrees_ram (hbus : flat.Represents bus) (value : Long)
    (hat : Region.at? address = some .workRam) :
    Agree (flat.write ⟨address, width, value⟩)
      (bus.write address width value).result := by
  have hregion := Region.contains_of_at? hat
  simp only [Region.Contains, Region.start, Region.length] at hregion
  have hdiscards : ¬ Discards address := by
    simp only [Discards]
    omega
  rw [Bus.write_workRam _ _ _ hat, Reply.result_quiet]
  by_cases hmisaligned : Misaligned address width
  · have hfault : refusal address width = .misaligned address := by
      grind [refusal, Misaligned]
    have hstores : ¬ Stores address width := by
      grind [Stores, Misaligned]
    rw [write_of_refused value hdiscards hstores hfault,
      Storage.store_of_misaligned _ _ hmisaligned]
    exact .refused _
  · by_cases hfits :
        address.toNat - Region.workRam.start + width.bytes ≤ 0x10000
    · have hstores : Stores address width := by
        grind [Stores, Misaligned, Region.start]
      rw [write_of_stores value hdiscards hstores,
        Storage.store_of_fits _ _ hmisaligned hfits]
      exact .accepted (hbus.writeRam hregion.1 value)
    · have hfault : refusal address width = .pastEnd address := by
        grind [refusal, Misaligned]
      have hstores : ¬ Stores address width := by
        grind [Stores, Region.start]
      rw [write_of_refused value hdiscards hstores hfault,
        Storage.store_of_pastEnd _ _ hmisaligned (by omega)]
      exact .refused _

theorem latchAfter?_eq_none_iff (latch : Long) (offset : Nat) (width : Width)
    (value : Long) :
    Bus.latchAfter? latch offset width value = none ↔
      ¬ (width = .long ∧ offset = 0) ∧
        ¬ (width = .word ∧ (offset = 0 ∨ offset = 2)) := by
  unfold Bus.latchAfter?
  split <;> grind

theorem write_agrees_latch (hbus : flat.Represents bus) (value : Long)
    (hat : Region.at? address = some .latch) :
    Agree (flat.write ⟨address, width, value⟩)
      (bus.write address width value).result := by
  have hregion := Region.contains_of_at? hat
  simp only [Region.Contains, Region.start, Region.length] at hregion
  have hdiscards : ¬ Discards address := by
    simp only [Discards]
    omega
  cases hstored : Bus.latchAfter? bus.latch (Region.latch.offset address) width
      value with
  | none =>
      have hnone := (latchAfter?_eq_none_iff _ _ _ _).mp hstored
      have hfault : refusal address width = .unwritable address width := by
        grind [refusal]
      have hstores : ¬ Stores address width := by
        grind [Stores, Region.offset, Region.start]
      rw [write_of_refused value hdiscards hstores hfault,
        Bus.write_latch_of_none _ _ _ hat hstored]
      exact .refused _
  | some stored =>
      have hsome := mt (latchAfter?_eq_none_iff bus.latch
        (Region.latch.offset address) width value).mpr (by simp [hstored])
      have hstores : Stores address width := by
        grind [Stores, Region.offset, Region.start]
      have hend : address.toNat + width.bytes ≤ 0xA14004 := by
        grind [Region.offset, Region.start, Width.bytes]
      rw [write_of_stores value hdiscards hstores,
        Bus.write_latch_of_some _ _ _ hat hstored]
      exact .accepted (hbus.writeLatch hregion.1 hend hstored)

theorem write_agrees_video (hbus : flat.Represents bus) (value : Long)
    (hat : Region.at? address = some .video) :
    Agree (flat.write ⟨address, width, value⟩)
      (bus.write address width value).result := by
  have hregion := Region.contains_of_at? hat
  have heven := Region.even_of_at?_video hat
  simp only [Region.Contains, Region.start, Region.length] at hregion
  have hdiscards : ¬ Discards address := by
    simp only [Discards]
    omega
  by_cases hwidth : width = .byte
  · have hfault : refusal address width = .unwritable address width := by
      grind [refusal]
    have hstores : ¬ Stores address width := by
      grind [Stores]
    rw [write_of_refused value hdiscards hstores hfault,
      Bus.write_video_of_byte _ _ _ hat hwidth]
    exact .refused _
  · by_cases hfits : Region.video.offset address + width.bytes ≤ 16
    · have hstores : Stores address width := by
        grind [Stores, Region.offset, Region.start]
      have hend : address.toNat + width.bytes ≤ 0xC00010 := by
        grind [Region.offset, Region.start]
      rw [write_of_stores value hdiscards hstores,
        Bus.write_video_of_fits _ _ _ hat hwidth hfits]
      exact .accepted (hbus.writeVideo hregion.1 hend value)
    · have hfault : refusal address width = .pastEnd address := by
        grind [refusal]
      have hstores : ¬ Stores address width := by
        grind [Stores, Region.offset, Region.start]
      rw [write_of_refused value hdiscards hstores hfault,
        Bus.write_video_of_pastEnd _ _ _ hat hwidth (by omega)]
      exact .refused _

/-- Outside the regions that can be written every write is unwritable. -/
theorem write_of_elsewhere (value : Long)
    (hworkRam : ¬ Region.workRam.Contains address)
    (hcontroller : ¬ Region.controller.Contains address)
    (hlatch : ¬ Region.latch.Contains address)
    (hvideo : ¬ (Region.video.Contains address ∧ address.toNat % 2 = 0)) :
    flat.write ⟨address, width, value⟩ =
      .error (.unwritable address width) := by
  simp only [Region.Contains, Region.start, Region.length] at *
  have hdiscards : ¬ Discards address := by
    simp only [Discards]
    omega
  have hfault : refusal address width = .unwritable address width := by
    grind [refusal]
  have hstores : ¬ Stores address width := by
    grind [Stores]
  exact write_of_refused value hdiscards hstores hfault

/-- One write: the step of the comparison. -/
theorem write_agrees (hbus : flat.Represents bus) (address : Address)
    (width : Width) (value : Long) :
    Agree (flat.write ⟨address, width, value⟩)
      (bus.write address width value).result := by
  cases hat : Region.at? address with
  | none =>
      have hnowhere : ∀ region : Region, region.Contains address →
          ¬ (region = .video → address.toNat % 2 = 0) := by
        intro region hregion heven
        cases hat.symm.trans (Region.at?_of_contains hregion heven)
      have houtside : ∀ region : Region, region ≠ .video →
          ¬ region.Contains address :=
        fun region hvideo hregion =>
          hnowhere region hregion fun heq => absurd heq hvideo
      rw [Bus.write_nowhere _ _ _ hat, write_of_elsewhere value]
      · exact .refused _
      · exact houtside _ (by decide)
      · exact houtside _ (by decide)
      · exact houtside _ (by decide)
      · exact fun hregion => hnowhere _ hregion.1 fun _ => hregion.2
  | some region =>
      have hregion := Region.contains_of_at? hat
      cases region with
      | cartridge =>
          rw [Bus.write_cartridge _ _ _ hat, write_of_elsewhere value]
          · exact .refused _
          · exact fun hother => nomatch Region.eq_of_contains hregion hother
          · exact fun hother => nomatch Region.eq_of_contains hregion hother
          · exact fun hother => nomatch Region.eq_of_contains hregion hother
          · exact fun hother => nomatch Region.eq_of_contains hregion hother.1
      | workRam => exact write_agrees_ram hbus value hat
      | controller =>
          have hdiscards : Discards address := by
            simp only [Region.Contains, Region.start, Region.length] at hregion
            simp only [Discards]
            omega
          rw [write_of_discards value hdiscards,
            Bus.write_controller _ _ _ hat]
          exact .accepted hbus
      | latch => exact write_agrees_latch hbus value hat
      | video => exact write_agrees_video hbus value hat

theorem readUpTo_eq_load {n limit start : Nat} (bytes : Vector Byte n)
    {cells : Nat → Byte} (hlimit : limit = start + n)
    (hstart : start ≤ address.toNat)
    (hcells : ∀ (i : Nat) (hi : i < n), bytes[i] = cells (start + i)) :
    Storage.load bytes start address width =
      readUpTo limit cells address width := by
  unfold readUpTo
  by_cases hmisaligned : width ≠ .byte ∧ address.toNat % 2 = 1
  · rw [if_pos hmisaligned, Storage.load_of_misaligned _ hmisaligned]
  · rw [if_neg hmisaligned]
    by_cases hfits : address.toNat + width.bytes ≤ limit
    · have hvalue := load?_eq_spelled bytes hcells
        (show address.toNat - start + width.bytes ≤ n by omega)
      rw [Storage.load_of_some _ hmisaligned hvalue, if_pos hfits,
        Nat.add_sub_cancel' hstart]
    · rw [if_neg hfits,
        Storage.load_of_pastEnd _ hmisaligned (by omega)]

theorem truncate_eq_ofNat_mod (width : Width) (value : Long) :
    width.truncate value =
      BitVec.ofNat 32 (value.toNat % 256 ^ width.bytes) := by
  have hmask : width.mask.toNat + 1 = 256 ^ width.bytes := by
    cases width <;> rfl
  apply BitVec.eq_of_toNat_eq
  rw [Width.toNat_truncate, BitVec.toNat_ofNat, hmask]
  have hlow : value.toNat % 256 ^ width.bytes ≤ value.toNat := Nat.mod_le _ _
  exact (Nat.mod_eq_of_lt (Nat.lt_of_le_of_lt hlow value.isLt)).symm

/-- Reads of related states agree, whatever they read. -/
theorem read_agrees (hbus : flat.Represents bus) (address : Address)
    (width : Width) :
    (bus.read address width).result = flat.read address width := by
  have hregions : Region.at? address = some .cartridge ∨
      Region.at? address = some .workRam ∨
      Region.at? address = some .controller ∨
      (Region.at? address ≠ some .cartridge ∧
        Region.at? address ≠ some .workRam ∧
        Region.at? address ≠ some .controller) := by
    grind
  unfold read
  rcases hregions with hat | hat | hat | ⟨hcartridge, hworkRam, hcontroller⟩
  · have hregion := Region.contains_of_at? hat
    simp only [Region.Contains, Region.start, Region.length] at hregion
    rw [Bus.read_cartridge _ _ hat, if_pos (by omega), hbus.image]
    refine readUpTo_eq_load _ (Nat.zero_add _).symm (Nat.zero_le _) ?_
    intro i hi
    simp [Region.start, hi]
  · have hregion := Region.contains_of_at? hat
    simp only [Region.Contains, Region.start, Region.length] at hregion
    rw [Bus.read_workRam _ _ hat, if_neg (by omega), if_pos (by omega)]
    exact readUpTo_eq_load _ rfl hregion.1 hbus.ram
  · have hregion := Region.contains_of_at? hat
    simp only [Region.Contains, Region.start, Region.length] at hregion
    rw [Bus.read_controller _ _ hat, if_neg (by omega), if_neg (by omega),
      if_pos (by omega), hbus.controller, truncate_eq_ofNat_mod]
  · have houtside : ∀ region : Region, region ≠ .video →
        Region.at? address ≠ some region → ¬ region.Contains address :=
      fun region hvideo hat hregion =>
        hat (Region.at?_of_contains hregion fun heq => absurd heq hvideo)
    have hcartridge' := houtside .cartridge (by decide) hcartridge
    have hworkRam' := houtside .workRam (by decide) hworkRam
    have hcontroller' := houtside .controller (by decide) hcontroller
    simp only [Region.Contains, Region.start, Region.length] at *
    rw [Bus.read_unreadable _ _ hcartridge hworkRam hcontroller,
      if_neg (by omega), if_neg (by omega), if_neg (by omega)]
    rfl

end Agreement

/-- One write again, with the states that both sides are left in. -/
theorem answer_agrees {flat : FlatBus} {bus : Bus}
    (hbus : flat.Represents bus) (request : Write) :
    (bus.answer request).1 = (flat.answer request).1 ∧
      (flat.answer request).2.Represents (bus.answer request).2 := by
  have hstep := write_agrees hbus request.address request.width request.value
  rw [Bus.answer, answer]
  generalize hreal : (bus.write request.address request.width
    request.value).result = real at hstep
  generalize flat.write request = reference at hstep ⊢
  cases hstep with
  | accepted hreached =>
      obtain ⟨hresult, rfl⟩ := Bus.of_write_ok hreal
      exact ⟨hresult, hreached⟩
  | refused fault =>
      obtain ⟨hresult, hkept⟩ := Bus.of_write_error hreal
      exact ⟨hresult, hkept.symm ▸ hbus⟩

/-- The invariant of a whole run of writes. -/
theorem attempt_agrees {flat : FlatBus} {bus : Bus}
    (hbus : flat.Represents bus) (writes : List Write) :
    (attempt Bus.answer bus writes).1 = (attempt answer flat writes).1 ∧
      (attempt answer flat writes).2.Represents
        (attempt Bus.answer bus writes).2 := by
  induction writes generalizing flat bus with
  | nil => exact ⟨rfl, hbus⟩
  | cons request rest ih =>
      obtain ⟨hanswer, hreached⟩ := answer_agrees hbus request
      obtain ⟨hanswers, hfinal⟩ := ih hreached
      exact ⟨congr (congrArg List.cons hanswer) hanswers, hfinal⟩

/-- Started on any image that fits, the bus answers any writes, and then any
read, as the reference does, and holds what the reference holds. -/
theorem answers_eq_flat (image : Array Byte) (hsize : image.size ≤ 0x400000)
    (controller : Long) (writes : List Write) :
    ∃ bus, Bus.ofImage image controller = .ok bus ∧
      (attempt Bus.answer bus writes).1 =
        (attempt answer (powerOn image controller) writes).1 ∧
      (∀ (address : Address) (width : Width),
        ((attempt Bus.answer bus writes).2.read address width).result =
          (attempt answer (powerOn image controller) writes).2.read address
            width) ∧
      (attempt answer (powerOn image controller) writes).2.Represents
        (attempt Bus.answer bus writes).2 := by
  have hrun := attempt_agrees
    (represents_powerOn ⟨image, hsize⟩ controller) writes
  refine ⟨Bus.powerOn ⟨image, hsize⟩ controller, ?_, hrun.1, ?_, hrun.2⟩
  · exact Bus.ofImage_of_fits hsize controller
  · exact read_agrees hrun.2

namespace FlatBusWitness

/-- Stores of three widths that overlap, a discarded write and four that are
refused. -/
def mixed : List Write :=
  [⟨0xFF0000, .long, 0x11223344⟩, ⟨0xFF0001, .byte, 0x1AA⟩,
    ⟨0xFF0001, .word, 0⟩, ⟨0xFFFFFE, .long, 0⟩, ⟨0xA10003, .long, 7⟩,
    ⟨0xA14002, .word, 0x4741⟩, ⟨0xC0000E, .long, 0⟩, ⟨0, .byte, 0⟩]

theorem answers_eq_flat_mixed :
    (#[0x12, 0x34] : Array Byte).size ≤ 0x400000 ∧
      ∃ bus, Bus.ofImage #[0x12, 0x34] 0xC0FFEE = .ok bus ∧
        (attempt Bus.answer bus mixed).1 =
          [.ok (), .ok (), .error (.misaligned 0xFF0001),
            .error (.pastEnd 0xFFFFFE), .ok (), .ok (),
            .error (.pastEnd 0xC0000E), .error (.unwritable 0 .byte)] ∧
        ((attempt Bus.answer bus mixed).2.read 0xFF0000 .word).result =
          .ok 0x11AA := by
  have hsize : (#[0x12, 0x34] : Array Byte).size ≤ 0x400000 := by decide
  obtain ⟨bus, hbus, hanswers, hreads, -⟩ :=
    answers_eq_flat #[0x12, 0x34] hsize 0xC0FFEE mixed
  refine ⟨hsize, bus, hbus, ?_, ?_⟩
  · rw [hanswers]
    rfl
  · rw [hreads]
    rfl

end FlatBusWitness

end FlatBus

end MegaDrive
