/-
What the fault of a step tells.  The accesses that can stop a step are said in
their order, from its opcode over the extension words to those of the
instruction, and the reasons for which the bus refuses an access are read off
its address.  Main statement: whatever stops a step, the fault names the word at
the program counter, fields of that word or the access that was refused, and
the machine gives reason for its kind.
-/
import MegaDrive.Proofs.CodeMemory
import MegaDrive.Proofs.Executability
import MegaDrive.Proofs.OpcodeWord

namespace MegaDrive

namespace Bus

/-- The reasons for which an address cannot be read. -/
inductive RefusesRead (bus : Bus) (address : Address) (width : Width) :
    Fault → Prop
  | misaligned (hwidth : width ≠ .byte) (hodd : address.toNat % 2 = 1)
      (hmemory : address.InMemory) :
      RefusesRead bus address width (.misaligned address)
  | pastImage (hcartridge : Region.cartridge.Contains address)
      (hend : bus.cartridge.image.size < address.toNat + width.bytes) :
      RefusesRead bus address width (.pastEnd address)
  | pastRam (hram : Region.workRam.Contains address)
      (hend : 0x1000000 < address.toNat + width.bytes) :
      RefusesRead bus address width (.pastEnd address)
  | unreadable (hmemory : ¬ address.InMemory)
      (hcontroller : ¬ Region.controller.Contains address) :
      RefusesRead bus address width (.unreadable address)

/-- The reasons for which an address cannot be written.  The video ports are
sixteen bytes, so that a long at their last even address runs past them. -/
inductive RefusesWrite (address : Address) (width : Width) : Fault → Prop
  | misaligned (hwidth : width ≠ .byte) (hodd : address.toNat % 2 = 1)
      (hram : Region.workRam.Contains address) :
      RefusesWrite address width (.misaligned address)
  | pastRam (hram : Region.workRam.Contains address)
      (hend : 0x1000000 < address.toNat + width.bytes) :
      RefusesWrite address width (.pastEnd address)
  | pastPorts (hplace : address = 0xC0000E) (hwidth : width = .long) :
      RefusesWrite address width (.pastEnd address)
  | unwritable (hram : ¬ Region.workRam.Contains address)
      (hcontroller : ¬ Region.controller.Contains address) :
      RefusesWrite address width (.unwritable address width)

end Bus

theorem Storage.of_load_error {n : Nat} {bytes : Vector Byte n} {start : Nat}
    {address : Address} {width : Width} {fault : Fault}
    (hload : load bytes start address width = .error fault) :
    (Misaligned address width ∧ fault = .misaligned address) ∨
      n < address.toNat - start + width.bytes ∧ fault = .pastEnd address := by
  by_cases hmisaligned : Misaligned address width
  · rw [load_of_misaligned bytes hmisaligned] at hload
    cases hload
    exact .inl ⟨hmisaligned, rfl⟩
  · by_cases hend : n < address.toNat - start + width.bytes
    · rw [load_of_pastEnd bytes hmisaligned hend] at hload
      cases hload
      exact .inr ⟨hend, rfl⟩
    · have hsome := mt (BigEndian.load?_eq_none_iff bytes _ width).mp hend
      obtain ⟨value, hvalue⟩ := Option.ne_none_iff_exists'.mp hsome
      rw [load_of_some bytes hmisaligned hvalue] at hload
      cases hload

namespace Region

/-- Where another region answers, this one does not. -/
theorem not_contains_of_at? {region other : Region} {address : Address}
    (hat : at? address = some other) (hne : region ≠ other) :
    ¬ region.Contains address :=
  fun hcontains => hne (eq_of_contains hcontains (contains_of_at? hat))

theorem not_contains_of_at?_none {region : Region} {address : Address}
    (hat : at? address = none) (hvideo : region ≠ .video) :
    ¬ region.Contains address := by
  intro hcontains
  rw [at?_of_contains hcontains (absurd · hvideo)] at hat
  cases hat

end Region

namespace Bus

variable {bus : Bus} {address : Address} {width : Width} {value : Long}
  {fault : Fault}

theorem ram_refuses (hram : Region.workRam.Contains address)
    (hload : Storage.load bus.ram Region.workRam.start address width =
      .error fault) :
    (width ≠ .byte ∧ address.toNat % 2 = 1 ∧ fault = .misaligned address) ∨
      0x1000000 < address.toNat + width.bytes ∧ fault = .pastEnd address := by
  obtain ⟨⟨hwidth, hodd⟩, hfault⟩ | ⟨hend, hfault⟩ :=
    Storage.of_load_error hload
  · exact .inl ⟨hwidth, hodd, hfault⟩
  · have hstart : 0xFF0000 ≤ address.toNat := hram.1
    rw [Region.start] at hend
    exact .inr ⟨by omega, hfault⟩

theorem refusesRead_of_error
    (hread : (bus.read address width).result = .error fault) :
    bus.RefusesRead address width fault := by
  cases hat : Region.at? address with
  | none =>
      rw [bus.read_unreadable width (by simp [hat]) (by simp [hat])
        (by simp [hat])] at hread
      cases hread
      exact .unreadable
        (not_or.mpr ⟨Region.not_contains_of_at?_none hat (by decide),
          Region.not_contains_of_at?_none hat (by decide)⟩)
        (Region.not_contains_of_at?_none hat (by decide))
  | some region =>
      have hcontains := Region.contains_of_at? hat
      cases region with
      | cartridge =>
          rw [bus.read_cartridge width hat] at hread
          obtain ⟨⟨hwidth, hodd⟩, rfl⟩ | ⟨hend, rfl⟩ :=
            Storage.of_load_error hread
          · exact .misaligned hwidth hodd (.inl hcontains)
          · exact .pastImage hcontains hend
      | workRam =>
          rw [bus.read_workRam width hat] at hread
          obtain ⟨hwidth, hodd, rfl⟩ | ⟨hend, rfl⟩ :=
            ram_refuses hcontains hread
          · exact .misaligned hwidth hodd (.inr hcontains)
          · exact .pastRam hcontains hend
      | controller =>
          rw [bus.read_controller width hat] at hread
          cases hread
      | latch | video =>
          rw [bus.read_unreadable width (by simp [hat]) (by simp [hat])
            (by simp [hat])] at hread
          cases hread
          exact .unreadable
            (not_or.mpr ⟨Region.not_contains_of_at? hat (by decide),
              Region.not_contains_of_at? hat (by decide)⟩)
            (Region.not_contains_of_at? hat (by decide))

/-- Of the even addresses of the video ports a long fits at all but the last.
-/
theorem last_port (hat : Region.at? address = some .video)
    (hwidth : width ≠ .byte)
    (hend : 16 < Region.video.offset address + width.bytes) :
    address = 0xC0000E ∧ width = .long := by
  obtain ⟨hlow, hhigh⟩ := Region.contains_of_at? hat
  have heven := Region.even_of_at?_video hat
  simp only [Region.start, Region.length, Region.offset] at hlow hhigh hend
  cases width with
  | byte => exact absurd rfl hwidth
  | word =>
      rw [Width.bytes] at hend
      omega
  | long =>
      rw [Width.bytes] at hend
      refine ⟨BitVec.eq_of_toNat_eq ?_, rfl⟩
      rw [show (0xC0000E : Address).toNat = 0xC0000E from rfl]
      omega

theorem refusesWrite_of_error
    (hwrite : (bus.write address width value).result = .error fault) :
    RefusesWrite address width fault := by
  have hunwritable :
      (∀ region, Region.at? address = some region →
        region ≠ .workRam ∧ region ≠ .controller) →
      RefusesWrite address width (.unwritable address width) := by
    intro hother
    refine .unwritable (fun hram => ?_) fun hcontroller => ?_
    · exact (hother _ (Region.at?_of_contains hram (by simp))).1 rfl
    · exact (hother _ (Region.at?_of_contains hcontroller (by simp))).2 rfl
  cases hat : Region.at? address with
  | none =>
      rw [bus.write_nowhere width value hat] at hwrite
      cases hwrite
      exact hunwritable (by simp [hat])
  | some region =>
      cases region with
      | cartridge =>
          rw [bus.write_cartridge width value hat] at hwrite
          cases hwrite
          exact hunwritable (by simp [hat])
      | workRam =>
          have hcontains := Region.contains_of_at? hat
          rw [bus.write_workRam width value hat] at hwrite
          cases hstore : Storage.store bus.ram Region.workRam.start address
              width value with
          | ok ram =>
              rw [hstore] at hwrite
              cases hwrite
          | error cause =>
              rw [hstore] at hwrite
              cases hwrite
              have hload := (Storage.store_eq_error_iff _ _ _ _ _ _).mp hstore
              obtain ⟨hwidth, hodd, rfl⟩ | ⟨hend, rfl⟩ :=
                ram_refuses hcontains hload
              · exact .misaligned hwidth hodd hcontains
              · exact .pastRam hcontains hend
      | controller =>
          rw [bus.write_controller width value hat] at hwrite
          cases hwrite
      | latch =>
          cases hstored : latchAfter? bus.latch (Region.latch.offset address)
              width value with
          | some stored =>
              rw [bus.write_latch_of_some width value hat hstored] at hwrite
              cases hwrite
          | none =>
              rw [bus.write_latch_of_none width value hat hstored] at hwrite
              cases hwrite
              exact hunwritable (by simp [hat])
      | video =>
          by_cases hwidth : width = .byte
          · rw [bus.write_video_of_byte width value hat hwidth] at hwrite
            cases hwrite
            exact hunwritable (by simp [hat])
          · by_cases hfits : Region.video.offset address + width.bytes ≤ 16
            · rw [bus.write_video_of_fits width value hat hwidth hfits]
                at hwrite
              cases hwrite
            · have hend := Nat.lt_of_not_le hfits
              rw [bus.write_video_of_pastEnd width value hat hwidth hend]
                at hwrite
              cases hwrite
              obtain ⟨hplace, hlong⟩ := last_port hat hwidth hend
              exact .pastPorts hplace hlong

end Bus

namespace Opcode

/-- A word of the class of the moves. -/
def IsMove (word : Word) : Prop :=
  ∃ width source destination, Matches word (.move width source destination)

/-- The operand fields of an opcode, each with its side, its width and the
address from which on its extension words are asked for.  Those of a source or
of an immediate value come first. -/
inductive Reaches (bus : Bus) (place : Address) :
    Opcode → Role → Width → OperandField → Address → Prop
  | tst (width : Width) (source : OperandField) :
      Reaches bus place (.tst width source) .source width source place
  | moveSource (width : Width) (source destination : OperandField) :
      Reaches bus place (.move width source destination) .source width source
        place
  | moveDestination {width : Width} {source : OperandField}
      {origin : Operand} {first : Nat} (destination : OperandField)
      (hsource : Selects bus place width source origin first) :
      Reaches bus place (.move width source destination) .destination width
        destination (place.skip first)
  | lea (source : OperandField) (number : BitVec 3) :
      Reaches bus place (.lea source number) .source .long source place
  | andiValue (width : Width) (destination : OperandField) :
      Reaches bus place (.andi width destination) .source width .immediate
        place
  | andiDestination {width : Width} {value : Operand} {first : Nat}
      (destination : OperandField)
      (hvalue : Selects bus place width .immediate value first) :
      Reaches bus place (.andi width destination) .destination width
        destination (place.skip first)
  | subq (data : BitVec 3) (width : Width) (destination : OperandField) :
      Reaches bus place (.subq data width destination) .destination width
        destination place

/-- The extension words and longs that an opcode asks for, with the address of
each. -/
inductive Asks (bus : Bus) (place : Address) :
    Opcode → Address → Width → Prop
  | stop : Asks bus place .stop place .word
  | moveToSr : Asks bus place .moveToSr place .word
  | branch (kind : BranchKind) : Asks bus place (.branch kind 0) place .word
  | dbcc (condition : Condition) (counter : BitVec 3) :
      Asks bus place (.dbcc condition counter) place .word
  | operandWord {opcode : Opcode} {role : Role} {width : Width}
      {field : OperandField} {address : Address}
      (hreaches : opcode.Reaches bus place role width field address)
      (htakes : field.TakesWord width) : Asks bus place opcode address .word
  | operandLong {opcode : Opcode} {role : Role} {width : Width}
      {field : OperandField} {address : Address}
      (hreaches : opcode.Reaches bus place role width field address)
      (htakes : field.TakesLong width) : Asks bus place opcode address .long

end Opcode

theorem Bus.read_of_wordAt_error {bus : Bus} {place : Address} {fault : Fault}
    (hword : bus.wordAt place = .error fault) :
    (bus.read place .word).result = .error fault := by
  rw [wordAt] at hword
  cases hread : (bus.read place .word).result with
  | ok value =>
      rw [hread] at hword
      cases hword
  | error cause =>
      rw [hread] at hword
      cases hword
      rfl

namespace Opcode

/-- What an opcode lacks: a field that is not legal on its side, or an
extension word that cannot be read. -/
inductive Lacks (bus : Bus) (place : Address) (opcode : Opcode) :
    Fault → Prop
  | field {role : Role} {width : Width} {field : OperandField}
      {address : Address}
      (hreaches : opcode.Reaches bus place role width field address)
      (hillegal : ¬ field.Legal role) :
      Lacks bus place opcode (role.unsupported field)
  | extension {address : Address} {width : Width} {fault : Fault}
      (hasks : opcode.Asks bus place address width)
      (hread : (bus.read address width).result = .error fault) :
      Lacks bus place opcode fault

variable {bus : Bus} {place : Address} {opcode : Opcode} {fault : Fault}

theorem lacks_of_refused {role : Role} {width : Width} {field : OperandField}
    {address : Address}
    (hreaches : opcode.Reaches bus place role width field address)
    (hrefused : Refused bus address role width field fault) :
    opcode.Lacks bus place fault := by
  cases hrefused with
  | source hillegal hrole =>
      subst hrole
      exact .field hreaches hillegal
  | destination hillegal hrole =>
      subst hrole
      exact .field hreaches hillegal
  | word hlegal htakes hword =>
      exact .extension (.operandWord hreaches htakes)
        (Bus.read_of_wordAt_error hword)
  | long hlegal htakes hlong =>
      exact .extension (.operandLong hreaches htakes) hlong

theorem lacks_of_breaks (hbreaks : Breaks bus place opcode fault) :
    opcode.Lacks bus place fault := by
  cases hbreaks with
  | stop hword => exact .extension .stop (Bus.read_of_wordAt_error hword)
  | moveToSr hword =>
      exact .extension .moveToSr (Bus.read_of_wordAt_error hword)
  | longBranch kind hword =>
      exact .extension (.branch kind) (Bus.read_of_wordAt_error hword)
  | dbcc condition number hword =>
      exact .extension (.dbcc condition number)
        (Bus.read_of_wordAt_error hword)
  | tst hsource => exact lacks_of_refused (.tst _ _) hsource
  | moveSource hsource => exact lacks_of_refused (.moveSource _ _ _) hsource
  | moveDestination hlegal hsource hdestination =>
      exact lacks_of_refused (.moveDestination _ hsource) hdestination
  | lea number hsource => exact lacks_of_refused (.lea _ number) hsource
  | andiValue hvalue => exact lacks_of_refused (.andiValue _ _) hvalue
  | andiDestination hvalue hdestination =>
      exact lacks_of_refused (.andiDestination _ hvalue) hdestination
  | subq data hdestination =>
      exact lacks_of_refused (.subq data _ _) hdestination

theorem not_isMove_of_matches {word : Word} (hmatches : Matches word opcode)
    (hother : ∀ width source destination,
      opcode ≠ .move width source destination) :
    ¬ IsMove word := by
  rintro ⟨width, source, destination, hmove⟩
  exact hother width source destination (opcode_unique hmatches hmove)

theorem not_isMove_of_reserved {word : Word} (hreserved : ReservedSize word) :
    ¬ IsMove word := by
  rintro ⟨width, source, destination, hmove⟩
  have hword := ofWord_of_reserved hreserved
  rw [ofWord_of_matches hmove] at hword
  cases hword

/-- Where the fields that can be refused stand in the word. -/
theorem field_of_reaches {word : Word} {role : Role} {width : Width}
    {field : OperandField} {address : Address}
    (hmatches : Matches word opcode)
    (hreaches : opcode.Reaches bus place role width field address)
    (hillegal : ¬ field.Legal role) :
    (role = .source ∧ field = lowField word) ∨
      (role = .destination ∧ IsMove word ∧ field = highField word) ∨
      role = .destination ∧ ¬ IsMove word ∧ field = lowField word := by
  cases hreaches with
  | tst width source =>
      obtain ⟨-, -, hmode, hregister⟩ := hmatches
      exact .inl ⟨rfl, by rw [lowField, hmode, hregister]⟩
  | moveSource width source destination =>
      obtain ⟨-, -, hmode, hregister, -⟩ := hmatches
      exact .inl ⟨rfl, by rw [lowField, hmode, hregister]⟩
  | moveDestination destination hsource =>
      have hmove : IsMove word := ⟨_, _, _, hmatches⟩
      obtain ⟨-, -, -, -, hmode, hregister⟩ := hmatches
      exact .inr (.inl ⟨rfl, hmove, by rw [highField, hmode, hregister]⟩)
  | lea source number =>
      obtain ⟨-, hmode, hregister, -⟩ := hmatches
      exact .inl ⟨rfl, by rw [lowField, hmode, hregister]⟩
  | andiValue width destination => exact absurd immediate_legal hillegal
  | andiDestination destination hvalue =>
      have hother := not_isMove_of_matches hmatches (by simp)
      obtain ⟨-, -, hmode, hregister⟩ := hmatches
      exact .inr (.inr ⟨rfl, hother, by rw [lowField, hmode, hregister]⟩)
  | subq data width destination =>
      have hother := not_isMove_of_matches hmatches (by simp)
      obtain ⟨-, -, hmode, hregister, -⟩ := hmatches
      exact .inr (.inr ⟨rfl, hother, by rw [lowField, hmode, hregister]⟩)

end Opcode

/-- The instructions that write to memory, with the width at which they do. -/
inductive Instruction.WritesAt : Instruction → Width → Prop
  | move (source destination : Operand) (width : Width) :
      WritesAt (.move source destination width) width
  | bsr (target : Operand) (width : Width) :
      WritesAt (.bsr target width) .long

namespace Machine

open Opcode Instruction

/-- The access that stops a step, with the fault of the bus: the fetch of the
opcode, of an extension word that the opcode asks for, or an access of the
instruction. -/
inductive StoppedAt (machine : Machine) (address : Address) (width : Width)
    (fault : Fault) : Prop
  | opcode (hplace : address = machine.pc) (hwidth : width = .word)
      (hread : (machine.bus.read address width).result = .error fault)
  | extension {word : Word} {opcode : Opcode}
      (hword : machine.bus.wordAt machine.pc = .ok word)
      (hmatches : opcode.Matches word)
      (hasks : opcode.Asks machine.bus (machine.pc.skip 1) address width)
      (hread : (machine.bus.read address width).result = .error fault)
  | instruction {word : Word} {decoded : Decoded}
      (hword : machine.bus.wordAt machine.pc = .ok word)
      (hdecode : (machine.bus.decode machine.pc).result = .ok decoded)
      (haccess : decoded.instruction.AccessFault (machine.begun word decoded)
        address width fault)

/-- The fault tells the truth about the step that it stops.  There is no case
for an image that is too large. -/
inductive BearsOut (machine : Machine) : Fault → Prop
  | unsupportedInstruction {word : Word}
      (hword : machine.bus.wordAt machine.pc = .ok word)
      (hir : (step machine).machine.ir = word)
      (hreason : (∀ opcode, ¬ Matches word opcode) ∨
        ∃ decoded, (machine.bus.decode machine.pc).result = .ok decoded ∧
          decoded.instruction.Unmodelled machine.sr) :
      BearsOut machine (.unsupportedInstruction word)
  | unsupportedSource {word : Word}
      (hword : machine.bus.wordAt machine.pc = .ok word)
      (hillegal : ¬ (lowField word).Legal .source) :
      BearsOut machine
        (.unsupportedSource ((word.extractLsb' 3 3).setWidth 8)
          ((word.extractLsb' 0 3).setWidth 8))
  | unsupportedMoveDestination {word : Word}
      (hword : machine.bus.wordAt machine.pc = .ok word)
      (hmove : IsMove word)
      (hillegal : ¬ (highField word).Legal .destination) :
      BearsOut machine
        (.unsupportedDestination ((word.extractLsb' 6 3).setWidth 8)
          ((word.extractLsb' 9 3).setWidth 8))
  | unsupportedOtherDestination {word : Word}
      (hword : machine.bus.wordAt machine.pc = .ok word)
      (hother : ¬ IsMove word)
      (hillegal : ¬ (lowField word).Legal .destination) :
      BearsOut machine
        (.unsupportedDestination ((word.extractLsb' 3 3).setWidth 8)
          ((word.extractLsb' 0 3).setWidth 8))
  | invalidSize {word : Word}
      (hword : machine.bus.wordAt machine.pc = .ok word)
      (hreserved : ReservedSize word) (hother : ¬ IsMove word) :
      BearsOut machine (.invalidSize 3)
  | unsupportedOperand {decoded : Decoded}
      (hdecode : (machine.bus.decode machine.pc).result = .ok decoded)
      (hinoperable : decoded.instruction.Inoperable) :
      BearsOut machine .unsupportedOperand
  | misaligned {address : Address} {width : Width}
      (hstopped : machine.StoppedAt address width (.misaligned address))
      (hwidth : width ≠ .byte) (hodd : address.toNat % 2 = 1)
      (hmemory : address.InMemory) :
      BearsOut machine (.misaligned address)
  | pastImage {address : Address} {width : Width}
      (hstopped : machine.StoppedAt address width (.pastEnd address))
      (hcartridge : Region.cartridge.Contains address)
      (hend : machine.bus.cartridge.image.size <
        address.toNat + width.bytes) :
      BearsOut machine (.pastEnd address)
  | pastRam {address : Address} {width : Width}
      (hstopped : machine.StoppedAt address width (.pastEnd address))
      (hram : Region.workRam.Contains address)
      (hend : 0x1000000 < address.toNat + width.bytes) :
      BearsOut machine (.pastEnd address)
  | pastPorts
      (hstopped : machine.StoppedAt 0xC0000E .long (.pastEnd 0xC0000E)) :
      BearsOut machine (.pastEnd 0xC0000E)
  | unreadable {address : Address} {width : Width}
      (hstopped : machine.StoppedAt address width (.unreadable address))
      (hmemory : ¬ address.InMemory)
      (hcontroller : ¬ Region.controller.Contains address) :
      BearsOut machine (.unreadable address)
  | unwritable {address : Address} {width : Width} {decoded : Decoded}
      (hstopped : machine.StoppedAt address width (.unwritable address width))
      (hdecode : (machine.bus.decode machine.pc).result = .ok decoded)
      (hwrites : decoded.instruction.WritesAt width)
      (hram : ¬ Region.workRam.Contains address)
      (hcontroller : ¬ Region.controller.Contains address) :
      BearsOut machine (.unwritable address width)

section Steps

variable {machine : Machine} {fault : Fault}

theorem bearsOut_of_read {address : Address} {width : Width}
    (hstopped : machine.StoppedAt address width fault)
    (hread : (machine.bus.read address width).result = .error fault) :
    machine.BearsOut fault := by
  cases Bus.refusesRead_of_error hread with
  | misaligned hwidth hodd hmemory =>
      exact .misaligned hstopped hwidth hodd hmemory
  | pastImage hcartridge hend => exact .pastImage hstopped hcartridge hend
  | pastRam hram hend => exact .pastRam hstopped hram hend
  | unreadable hmemory hcontroller =>
      exact .unreadable hstopped hmemory hcontroller

theorem bearsOut_of_write {address : Address} {width : Width} {value : Long}
    {bus : Bus} {decoded : Decoded}
    (hstopped : machine.StoppedAt address width fault)
    (hdecode : (machine.bus.decode machine.pc).result = .ok decoded)
    (hwrites : decoded.instruction.WritesAt width)
    (hwrite : (bus.write address width value).result = .error fault) :
    machine.BearsOut fault := by
  cases Bus.refusesWrite_of_error hwrite with
  | misaligned hwidth hodd hram =>
      exact .misaligned hstopped hwidth hodd (.inr hram)
  | pastRam hram hend => exact .pastRam hstopped hram hend
  | pastPorts hplace hwidth =>
      subst hplace hwidth
      exact .pastPorts hstopped
  | unwritable hram hcontroller =>
      exact .unwritable hstopped hdecode hwrites hram hcontroller

theorem bearsOut_of_accessFault {word : Word} {decoded : Decoded}
    {address : Address} {width : Width}
    (hword : machine.bus.wordAt machine.pc = .ok word)
    (hdecode : (machine.bus.decode machine.pc).result = .ok decoded)
    (haccess : decoded.instruction.AccessFault (machine.begun word decoded)
      address width fault) :
    machine.BearsOut fault := by
  have hstopped : machine.StoppedAt address width fault :=
    .instruction hword hdecode haccess
  obtain ⟨instruction, length⟩ := decoded
  cases haccess with
  | tested hplace hread => exact bearsOut_of_read hstopped hread
  | source hplace hread => exact bearsOut_of_read hstopped hread
  | pop hread => exact bearsOut_of_read hstopped hread
  | destination hvalue hplace hwrite =>
      exact bearsOut_of_write hstopped hdecode (.move _ _ _) hwrite
  | push hwrite =>
      exact bearsOut_of_write hstopped hdecode (.bsr _ _) hwrite

theorem bearsOut_of_lacks {word : Word} {opcode : Opcode}
    (hword : machine.bus.wordAt machine.pc = .ok word)
    (hmatches : opcode.Matches word)
    (hlacks : opcode.Lacks machine.bus (machine.pc.skip 1) fault) :
    machine.BearsOut fault := by
  cases hlacks with
  | field hreaches hillegal =>
      obtain ⟨rfl, rfl⟩ | ⟨rfl, hmove, rfl⟩ | ⟨rfl, hother, rfl⟩ :=
        field_of_reaches hmatches hreaches hillegal
      · exact .unsupportedSource hword hillegal
      · exact .unsupportedMoveDestination hword hmove hillegal
      · exact .unsupportedOtherDestination hword hother hillegal
  | extension hasks hread =>
      exact bearsOut_of_read (.extension hword hmatches hasks hread) hread

theorem bearsOut_of_decode {word : Word}
    (hword : machine.bus.wordAt machine.pc = .ok word)
    (hir : (step machine).machine.ir = word)
    (hdecode : (machine.bus.decode machine.pc).result = .error fault) :
    machine.BearsOut fault := by
  cases (Bus.decode_eq_error_iff _ _ _).mp hdecode with
  | unreadable hunreadable =>
      rw [hword] at hunreadable
      cases hunreadable
  | unmatched hfound hunmatched =>
      rw [hword] at hfound
      cases hfound
      cases hunmatched with
      | size hreserved =>
          exact .invalidSize hword hreserved (not_isMove_of_reserved hreserved)
      | unknown hfree hunmatched =>
          exact .unsupportedInstruction hword hir (.inl hunmatched)
  | incomplete hfound hmatches hbreaks =>
      exact bearsOut_of_lacks hfound hmatches (lacks_of_breaks hbreaks)

theorem bearsOut_of_execute {word : Word} {decoded : Decoded}
    (hword : machine.bus.wordAt machine.pc = .ok word)
    (hir : (step machine).machine.ir = word)
    (hdecode : (machine.bus.decode machine.pc).result = .ok decoded)
    (hexecute : (decoded.instruction.execute
      (machine.begun word decoded)).result = .error fault) :
    machine.BearsOut fault := by
  cases (Instruction.execute_eq_error_iff hdecode).mp hexecute with
  | inoperable hinoperable => exact .unsupportedOperand hdecode hinoperable
  | unmodelled hunmodelled =>
      exact .unsupportedInstruction hword hir
        (.inr ⟨decoded, hdecode, hunmodelled⟩)
  | access haccess => exact bearsOut_of_accessFault hword hdecode haccess

/-- Every fault of a step is borne out by the machine before it. -/
theorem bearsOut_of_step (hstep : (step machine).result = .error fault) :
    machine.BearsOut fault ∧ ∀ length, fault ≠ .imageTooLarge length := by
  have hbearsOut : machine.BearsOut fault := by
    cases hread : (machine.bus.read machine.pc .word).result with
    | error cause =>
        rw [step_of_unreadable hread] at hstep
        cases hstep
        exact bearsOut_of_read (.opcode rfl rfl hread) hread
    | ok value =>
        have hword :
            machine.bus.wordAt machine.pc = .ok (value.setWidth 16) := by
          rw [Bus.wordAt, hread]
          rfl
        have hir : (step machine).machine.ir = value.setWidth 16 := by
          rw [step_machine_of_fault hread hstep]
          rfl
        cases hdecode : (machine.bus.decode machine.pc).result with
        | error cause =>
            rw [step_of_undecodable hread hdecode] at hstep
            cases hstep
            exact bearsOut_of_decode hword hir hdecode
        | ok decoded =>
            cases hexecute : (decoded.instruction.execute
                (machine.begun (value.setWidth 16) decoded)).result with
            | error cause =>
                rw [step_of_executeFault hread hdecode hexecute] at hstep
                cases hstep
                exact bearsOut_of_execute hword hir hdecode hexecute
            | ok done =>
                rw [step_of_ok hread hdecode hexecute] at hstep
                cases hstep
  refine ⟨hbearsOut, ?_⟩
  rintro length rfl
  cases hbearsOut

end Steps

end Machine

namespace FaultPayloadWitness

/-- A copy of a long whose destination is the last of the video ports. -/
def code : Bus :=
  Bus.powerOn ⟨#[0x22, 0x80], by decide⟩ 0

/-- The first address register points at that port. -/
def atLastPort : Machine :=
  { Machine.blank code with
    registers := RegisterFile.cleared.set (.address 1) 0xC0000E }

theorem bearsOut_of_step_last_port :
    (Machine.step atLastPort).result = .error (.pastEnd 0xC0000E) ∧
      atLastPort.BearsOut (.pastEnd 0xC0000E) := by
  have hstep :
      (Machine.step atLastPort).result = .error (.pastEnd 0xC0000E) := rfl
  exact ⟨hstep, (Machine.bearsOut_of_step hstep).1⟩

end FaultPayloadWitness

end MegaDrive
