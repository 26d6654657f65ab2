/-
Where code is fetched.  Decoding reads words and longs one behind the other, so
that each has to stand where the last one ended, and the gaps behind the
regions end it.  Main statement: decoded code stands in one region, in the
cartridge and the work RAM with all of its bytes, and never passes the end of
the address range.
-/
import MegaDrive.Proofs.Encoding
import MegaDrive.Proofs.FetchInduction

namespace MegaDrive

/-- A piece of code that is read at once. -/
structure Access where
  place : Address
  width : Width
deriving DecidableEq, Repr

/-- The number of bytes that are read by accesses in a row. -/
def Access.bytes (accesses : List Access) : Nat :=
  (accesses.map fun access => access.width.bytes).sum

/-- Words and longs are read one behind the other, from a place up to the place
behind the last of them, and these are the events of the reads.  In the
controller block every read is noted, so that the events tell the accesses. -/
inductive Bus.ReadsOn (bus : Bus) :
    Address → List Access → Address → List Event → Prop
  | done (place : Address) : ReadsOn bus place [] place []
  | read {place next : Address} {width : Width} {value : Long}
      {accesses : List Access} {events : List Event} (hwidth : width ≠ .byte)
      (hread : (bus.read place width).result = .ok value)
      (hrest : ReadsOn bus (place + BitVec.ofNat 32 width.bytes) accesses next
        events) :
      ReadsOn bus place (⟨place, width⟩ :: accesses) next
        ((bus.read place width).events ++ events)

/-- Code of this length stands at an even place in the image of the cartridge,
or at one in the work RAM. -/
def Bus.HoldsCode (bus : Bus) (place : Address) (length : Nat) : Prop :=
  place.toNat % 2 = 0 ∧
    (place.toNat + length ≤ bus.cartridge.image.size ∨
      Region.workRam.start ≤ place.toNat ∧
        place.toNat + length ≤ Region.workRam.start + Region.workRam.length)

theorem Address.toNat_add_ofNat (place : Address) (bytes : Nat) :
    (place + BitVec.ofNat 32 bytes).toNat = (place.toNat + bytes) % 2 ^ 32 := by
  rw [BitVec.toNat_add, BitVec.toNat_ofNat, Nat.add_mod_mod]

/-- What is loaded as a word or a long stands at an even place and ends within
the storage. -/
theorem Storage.even_of_load {n start : Nat} {bytes : Vector Byte n}
    {address : Address} {width : Width} {value : Long} (hwidth : width ≠ .byte)
    (hload : load bytes start address width = .ok value) :
    address.toNat % 2 = 0 ∧ address.toNat - start + width.bytes ≤ n := by
  obtain ⟨haligned, hvalue⟩ := (load_eq_ok_iff _ _ _ _ _).mp hload
  have hodd : address.toNat % 2 ≠ 1 := fun hodd => haligned ⟨hwidth, hodd⟩
  have hfits := BigEndian.fits_of_load? hvalue
  omega

/-- A last step that only takes the answer further. -/
theorem Reply.andThen_pure {α β : Type} (first : Reply α) (result : α → β) :
    (first.andThen fun value => pure (result value)) =
      ⟨first.result.map result, first.events⟩ := by
  obtain ⟨found, noted⟩ := first
  cases found with
  | error fault => rfl
  | ok value =>
      rw [andThen_ok, pure_eq, after_mk, List.append_nil]
      rfl

namespace Bus.ReadsOn

variable {bus : Bus} {place next : Address} {accesses : List Access}
  {events : List Event}

theorem append {last : Address} {more : List Access} {later : List Event}
    (hreads : bus.ReadsOn place accesses next events)
    (hmore : bus.ReadsOn next more last later) :
    bus.ReadsOn place (accesses ++ more) last (events ++ later) := by
  induction hreads with
  | done place => exact hmore
  | read hwidth hread hrest ih =>
      rw [List.append_assoc]
      exact .read hwidth hread (ih hmore)

/-- Reading ends behind the bytes that were read. -/
theorem next_eq (hreads : bus.ReadsOn place accesses next events) :
    next = place + BitVec.ofNat 32 (Access.bytes accesses) := by
  induction hreads with
  | done place => exact (BitVec.add_zero place).symm
  | read hwidth hread hrest ih =>
      rw [ih, BitVec.add_assoc, ← BitVec.ofNat_add]
      rfl

end Bus.ReadsOn

namespace Fetch

variable {α β : Type}

/-- Wherever the fetch succeeds it has read words and longs in a row, and noted
nothing else. -/
def InSequence (fetch : Fetch α) : Prop :=
  ∀ (bus : Bus) (place next : Address) (value : α),
    (fetch bus place).result = .ok (value, next) →
      ∃ accesses, bus.ReadsOn place accesses next (fetch bus place).events

theorem InSequence.bind {first : Fetch α} {next : α → Fetch β}
    (hfirst : first.InSequence) (hnext : ∀ value, (next value).InSequence) :
    (first >>= next).InSequence := by
  intro bus place last result hresult
  rw [bind_apply, Reply.bind_eq] at hresult ⊢
  have hreads := hfirst bus place
  generalize first bus place = reply at hreads hresult ⊢
  obtain ⟨found, noted⟩ := reply
  cases found with
  | error fault => cases hresult
  | ok reached =>
      obtain ⟨value, middle⟩ := reached
      obtain ⟨accesses, hbefore⟩ := hreads middle value rfl
      obtain ⟨more, hbehind⟩ := hnext value bus middle last result hresult
      exact ⟨accesses ++ more, hbefore.append hbehind⟩

/-- A single read, after which the place has moved behind what was read. -/
theorem inSequence_read (width : Width) (hwidth : width ≠ .byte)
    (result : Long → α) :
    InSequence fun bus place => do
      let value ← bus.read place width
      return (result value, place + BitVec.ofNat 32 width.bytes) := by
  intro bus place next value hresult
  beta_reduce at hresult ⊢
  rw [Reply.bind_eq, Reply.andThen_pure] at hresult ⊢
  obtain ⟨found, hread, hmoved⟩ := (map_eq_ok_iff _ _ _).mp hresult
  cases hmoved
  have hrow : bus.ReadsOn place [⟨place, width⟩] _
      ((bus.read place width).events ++ []) := .read hwidth hread (.done _)
  rw [List.append_nil] at hrow
  exact ⟨_, hrow⟩

theorem inSequence_word : InSequence word :=
  inSequence_read .word (by decide) fun value => value.setWidth 16

theorem inSequence_long : InSequence long :=
  inSequence_read .long (by decide) id

theorem inSequence_composes : Composes InSequence where
  pure _ := by
    intro bus place next value hresult
    cases hresult
    exact ⟨[], .done place⟩
  fault _ := by
    intro bus place next value hresult
    cases hresult
  word := inSequence_word
  long := inSequence_long
  bind := InSequence.bind

end Fetch

namespace Bus

variable {bus : Bus} {place next : Address}

/-- What can be read as a word or a long stands in the controller block or is
code in memory. -/
theorem holdsCode_of_read {width : Width} {value : Long}
    (hwidth : width ≠ .byte)
    (hread : (bus.read place width).result = .ok value) :
    Region.controller.Contains place ∨ bus.HoldsCode place width.bytes := by
  cases hat : Region.at? place with
  | none =>
      rw [bus.read_unreadable width (by simp [hat]) (by simp [hat])
        (by simp [hat])] at hread
      cases hread
  | some region =>
      cases region with
      | cartridge =>
          rw [bus.read_cartridge width hat] at hread
          obtain ⟨hparity, hend⟩ := Storage.even_of_load hwidth hread
          exact .inr ⟨hparity, .inl hend⟩
      | workRam =>
          rw [bus.read_workRam width hat] at hread
          obtain ⟨hparity, hend⟩ := Storage.even_of_load hwidth hread
          have hstart := (Region.contains_of_at? hat).1
          refine .inr ⟨hparity, .inr ⟨hstart, ?_⟩⟩
          rw [Region.length]
          omega
      | controller => exact .inl (Region.contains_of_at? hat)
      | latch | video =>
          rw [bus.read_unreadable width (by simp [hat]) (by simp [hat])
            (by simp [hat])] at hread
          cases hread

/-- Code that is read in a row stays where it begins: in the controller block,
or in the image or the work RAM.  Behind each of these no read succeeds. -/
theorem ReadsOn.confined {accesses : List Access} {events : List Event}
    (hreads : bus.ReadsOn place accesses next events) (hsome : accesses ≠ []) :
    (Region.controller.Contains place ∧
      ∀ access ∈ accesses, Region.controller.Contains access.place) ∨
      bus.HoldsCode place (Access.bytes accesses) := by
  induction hreads with
  | done place => exact absurd rfl hsome
  | @read place next width value accesses events hwidth hread hrest ih =>
      have hhere := holdsCode_of_read hwidth hread
      have hbytes : Access.bytes (⟨place, width⟩ :: accesses) =
          width.bytes + Access.bytes accesses := rfl
      by_cases hlast : accesses = []
      · subst hlast
        rcases hhere with hcontroller | hcode
        · exact .inl ⟨hcontroller, by simpa using hcontroller⟩
        · exact .inr hcode
      · have hsize := bus.cartridge.size_le
        have hplace := place.toNat_add_ofNat width.bytes
        have hwide : 1 ≤ width.bytes ∧ width.bytes ≤ 4 := by
          cases width <;> decide
        simp only [HoldsCode, Region.Contains, Region.start,
          Region.length] at hhere ih hsize ⊢
        rcases hhere with hcontroller | hcode <;>
          rcases ih hlast with ⟨hnext, hrest⟩ | hnext
        · refine .inl ⟨hcontroller, ?_⟩
          simpa [hcontroller] using hrest
        · omega
        · omega
        · refine .inr ?_
          rw [hbytes]
          omega

/-- Decoding reads the code in a row, from its first byte to its last. -/
theorem exists_readsOn_of_decode {pc : Address} {decoded : Decoded}
    (hdecode : (bus.decode pc).result = .ok decoded) :
    ∃ accesses, bus.ReadsOn pc accesses (pc + decoded.length)
      (bus.decode pc).events := by
  have hstream : bus.decode pc =
      ⟨(codeFetch bus pc).result.map fun reached =>
          ⟨reached.1, reached.2 - pc⟩, (codeFetch bus pc).events⟩ :=
    Reply.andThen_pure _ _
  rw [hstream] at hdecode ⊢
  obtain ⟨⟨instruction, next⟩, hcode, rfl⟩ := (map_eq_ok_iff _ _ _).mp hdecode
  have hnext : pc + (next - pc) = next := by
    rw [BitVec.add_comm, BitVec.sub_add_cancel]
  rw [hnext]
  exact Fetch.inSequence_composes.code bus pc next instruction hcode

theorem length_mem_of_decode {pc : Address} {decoded : Decoded}
    (hdecode : (bus.decode pc).result = .ok decoded) :
    decoded.length.toNat ∈ [2, 4, 6, 8, 10] := by
  obtain ⟨word, opcode, -, -, -, hlength⟩ := exists_begins_of_decode hdecode
  have hwords := decoded.instruction.length_extension_le
  rw [hlength, toNat_length]
  simp only [List.mem_cons, List.not_mem_nil, or_false]
  omega

/-- Code in the controller block, or held by memory, has no byte in a second
region.  Code that runs past the end of the block has nothing there. -/
theorem exists_home {pc : Address} {length : Nat} (hlength : length ≤ 10)
    (hstands : Region.controller.Contains pc ∨ bus.HoldsCode pc length)
    (hsome : 0 < length) :
    ∃ home ∈ [Region.cartridge, .workRam, .controller], home.Contains pc ∧
      (pc.toNat % 2 = 1 → home = .controller) ∧
      ∀ i < length, ∀ region : Region,
        region.Contains (pc + BitVec.ofNat 32 i) → region = home := by
  have hsize := bus.cartridge.size_le
  have hbyte := fun i => pc.toNat_add_ofNat i
  have hfirst : pc + BitVec.ofNat 32 0 = pc := BitVec.add_zero pc
  rcases hstands with hcontroller | ⟨hparity, hcartridge | ⟨hstart, hend⟩⟩
  · refine ⟨.controller, by decide, hcontroller, fun _ => rfl, ?_⟩
    intro i hi region hregion
    unfold Region.Contains at hcontroller hregion
    rw [hbyte] at hregion
    cases region <;> simp only [Region.start, Region.length] at * <;>
      first | rfl | omega
  · have hwithin : ∀ i < length,
        Region.cartridge.Contains (pc + BitVec.ofNat 32 i) := by
      intro i hi
      rw [Region.Contains, hbyte]
      simp only [Region.start, Region.length] at *
      omega
    refine ⟨.cartridge, by decide, hfirst ▸ hwithin 0 hsome, by omega, ?_⟩
    intro i hi region hregion
    exact Region.eq_of_contains hregion (hwithin i hi)
  · have hwithin : ∀ i < length,
        Region.workRam.Contains (pc + BitVec.ofNat 32 i) := by
      intro i hi
      rw [Region.Contains, hbyte]
      simp only [Region.start, Region.length] at *
      omega
    refine ⟨.workRam, by decide, hfirst ▸ hwithin 0 hsome, by omega, ?_⟩
    intro i hi region hregion
    exact Region.eq_of_contains hregion (hwithin i hi)

/-- Decoded code takes two to ten bytes, does not wrap around the address range
and stands in one region.  In the controller block each of its words and longs
begins in the block; elsewhere it stands at an even place, and all of its bytes
lie in the image of the cartridge or all in the work RAM. -/
theorem decode_confined {pc : Address} {decoded : Decoded}
    (hdecode : (bus.decode pc).result = .ok decoded) :
    decoded.length.toNat ∈ [2, 4, 6, 8, 10] ∧
      pc.toNat + decoded.length.toNat ≤ 2 ^ 32 - 1 ∧
      ((Region.controller.Contains pc ∧ ∃ accesses,
          bus.ReadsOn pc accesses (pc + decoded.length)
            (bus.decode pc).events ∧
          ∀ access ∈ accesses, Region.controller.Contains access.place) ∨
        bus.HoldsCode pc decoded.length.toNat) ∧
      ∃ home ∈ [Region.cartridge, .workRam, .controller], home.Contains pc ∧
        (pc.toNat % 2 = 1 → home = .controller) ∧
        ∀ i < decoded.length.toNat, ∀ region : Region,
          region.Contains (pc + BitVec.ofNat 32 i) → region = home := by
  have hmem := length_mem_of_decode hdecode
  have hlength : 0 < decoded.length.toNat ∧ decoded.length.toNat ≤ 10 := by
    simp only [List.mem_cons, List.not_mem_nil, or_false] at hmem
    omega
  obtain ⟨accesses, hreads⟩ := exists_readsOn_of_decode hdecode
  have hbytes : decoded.length = BitVec.ofNat 32 (Access.bytes accesses) :=
    (BitVec.add_right_inj pc).mp hreads.next_eq
  have hsome : accesses ≠ [] := by
    rintro rfl
    rw [hbytes] at hlength
    exact absurd hlength.1 (by decide)
  have hsize := bus.cartridge.size_le
  have hstands : (Region.controller.Contains pc ∧
      ∀ access ∈ accesses, Region.controller.Contains access.place) ∨
      bus.HoldsCode pc decoded.length.toNat := by
    refine (hreads.confined hsome).imp_right fun hcode => ?_
    have hexact : decoded.length.toNat = Access.bytes accesses := by
      rw [hbytes, BitVec.toNat_ofNat]
      apply Nat.mod_eq_of_lt
      simp only [HoldsCode, Region.start, Region.length] at hcode hsize
      omega
    rw [hexact]
    exact hcode
  obtain ⟨home, hhome, hin, hodd, honly⟩ := exists_home hlength.2
    (hstands.imp_left And.left) hlength.1
  refine ⟨hmem, ?_, ?_, home, hhome, hin, hodd, honly⟩
  · have hlast : pc.toNat < 0x1000000 := by
      cases home <;> simp only [Region.Contains, Region.start,
        Region.length] at hin <;> omega
    omega
  · refine hstands.imp_left fun hcontroller => ?_
    exact ⟨hcontroller.1, accesses, hreads, hcontroller.2⟩

namespace CodeConfinementWitness

/-- A whole image of one instruction, and a controller block from which every
word reads as the opcode of that instruction. -/
def brief : Bus :=
  powerOn ⟨#[0x46, 0xFC, 0x27, 0x00], by decide⟩ 0x46FC46FC

/-- At the end of the image, and at an odd address at the end of the block. -/
theorem decode_confined_brief :
    ((brief.decode 0).result = .ok ⟨.moveToSr 0x2700, 4⟩ ∧
      brief.HoldsCode 0 4) ∧
    (brief.decode 0xA1001D).result = .ok ⟨.moveToSr 0x46FC, 4⟩ ∧
      ∃ accesses, brief.ReadsOn 0xA1001D accesses 0xA10021
        (brief.decode 0xA1001D).events ∧
        ∀ access ∈ accesses, Region.controller.Contains access.place := by
  have himage : (brief.decode 0).result = .ok ⟨.moveToSr 0x2700, 4⟩ := rfl
  have hblock : (brief.decode 0xA1001D).result =
      .ok ⟨.moveToSr 0x46FC, 4⟩ := rfl
  refine ⟨⟨himage, ?_⟩, hblock, ?_⟩
  · rcases (decode_confined himage).2.2.1 with ⟨hcontroller, -⟩ | hcode
    · exact absurd hcontroller (by decide)
    · exact hcode
  · rcases (decode_confined hblock).2.2.1 with ⟨-, hreads⟩ | ⟨hparity, -⟩
    · exact hreads
    · exact absurd hparity (by decide)

end CodeConfinementWitness

end Bus

end MegaDrive
