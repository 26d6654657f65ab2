/-
Instructions in memory and the words they are written with determine each
other, wherever they stand.  Main statement: two decoded instructions are equal
exactly when their lengths are and the same counts of their words, and bytes
that are copied to another place are decoded there as before.
-/
import MegaDrive.Proofs.OpcodeWord
import MegaDrive.Proofs.Reencoding

namespace MegaDrive

/-- The bits that count of the `i`-th word of an instruction: all of them, but
for the upper byte over an immediate byte. -/
def countedBits (opcode : Word) (i : Nat) : Word :=
  if i = 1 ∧ ByteImmediate opcode then 0x00FF else 0xFFFF

/-- What counts of the `i`-th word of the code at an address. -/
def Bus.countedAt (bus : Bus) (place : Address) (i : Nat) :
    Except Fault Word := do
  let opcode ← bus.wordAt place
  let word ← bus.wordAt (place.skip i)
  return word &&& countedBits opcode i

/-- Every bit counts of each word. -/
def Whole (patterns : List Pattern) : Prop :=
  ∀ pattern ∈ patterns, pattern.mask = 0xFFFF

theorem whole_nil : Whole [] := by
  intro pattern hpattern
  cases hpattern

theorem whole_exact (word : Word) : Whole [.exact word] := by
  intro pattern hpattern
  rw [List.mem_singleton.mp hpattern]
  rfl

theorem Whole.append {patterns more : List Pattern} (hpatterns : Whole patterns)
    (hmore : Whole more) : Whole (patterns ++ more) := by
  intro pattern hpattern
  rcases List.mem_append.mp hpattern with hfirst | hsecond
  · exact hpatterns pattern hfirst
  · exact hmore pattern hsecond

theorem whole_long (value : Long) : Whole (Pattern.long value) :=
  Whole.append (whole_exact _) (whole_exact _)

section Masks

variable {width : Width} {field : OperandField} {target : Operand}

theorem whole_of_encodes (hencodes : Encodes width field target)
    (hwhole : ¬ (width = .byte ∧ field = .immediate)) :
    Whole (target.extension width) := by
  cases hencodes with
  | dataRegister number => exact whole_nil
  | addressRegister number => exact whole_nil
  | indirect number => exact whole_nil
  | postIncrement number => exact whole_nil
  | displaced number displacement => exact whole_exact _
  | absolute address => exact whole_long _
  | pcDisplaced displacement => exact whole_exact _
  | byteImmediate hwidth hvalue => exact absurd ⟨hwidth, rfl⟩ hwhole
  | wordImmediate hwidth value =>
      subst hwidth
      exact whole_exact _
  | longImmediate hwidth value =>
      subst hwidth
      exact whole_long _

theorem whole_of_destination (hencodes : Encodes width field target)
    (hlegal : field.Legal .destination) : Whole (target.extension width) := by
  apply whole_of_encodes hencodes
  rintro ⟨-, rfl⟩
  exact absurd hlegal (by decide)

theorem extension_of_byteImmediate
    (hencodes : Encodes .byte .immediate target) :
    ∃ value, target.extension .byte = [.lowByte value] := by
  cases hencodes with
  | byteImmediate hwidth hvalue => exact ⟨_, rfl⟩
  | wordImmediate hwidth => cases hwidth
  | longImmediate hwidth => cases hwidth

variable {opcode : Opcode} {instruction : Instruction}

theorem whole_of_begins (hbegins : Begins opcode instruction)
    (hwhole : ¬ opcode.HasByteImmediate) : Whole instruction.extension := by
  cases hbegins with
  | nop => exact whole_nil
  | rts => exact whole_nil
  | stop value => exact whole_exact _
  | moveToSr value => exact whole_exact _
  | tst hlegal hsource => exact whole_of_encodes hsource hwhole
  | move hlegal hsource hlegal' hdestination =>
      exact (whole_of_encodes hsource hwhole).append
        (whole_of_destination hdestination hlegal')
  | shortBranch kind hshort =>
      rw [extension_branch, if_pos rfl]
      exact whole_nil
  | longBranch kind displacement =>
      rw [extension_branch, if_neg (by decide)]
      exact whole_exact _
  | lea number hlegal hsource =>
      exact whole_of_encodes hsource (fun hbyte => nomatch hbyte.1)
  | andi hvalue hlegal hdestination =>
      exact (whole_of_encodes hvalue (fun hbyte => hwhole hbyte.1)).append
        (whole_of_destination hdestination hlegal)
  | dbcc condition number displacement => exact whole_exact _
  | subq data hlegal hdestination =>
      exact whole_of_destination hdestination hlegal

theorem extension_of_hasByteImmediate (hbegins : Begins opcode instruction)
    (hbyte : opcode.HasByteImmediate) :
    ∃ value rest, instruction.extension = .lowByte value :: rest ∧
      Whole rest := by
  cases hbegins with
  | tst hlegal hsource =>
      obtain ⟨rfl, rfl⟩ := hbyte
      obtain ⟨value, hextension⟩ := extension_of_byteImmediate hsource
      exact ⟨value, [], hextension, whole_nil⟩
  | move hlegal hsource hlegal' hdestination =>
      obtain ⟨rfl, rfl⟩ := hbyte
      obtain ⟨value, hextension⟩ := extension_of_byteImmediate hsource
      refine ⟨value, _, ?_, whole_of_destination hdestination hlegal'⟩
      rw [Instruction.extension, hextension]
      rfl
  | andi hvalue hlegal hdestination =>
      cases hbyte
      obtain ⟨value, hextension⟩ := extension_of_byteImmediate hvalue
      refine ⟨value, _, ?_, whole_of_destination hdestination hlegal⟩
      rw [Instruction.extension, hextension]
      rfl
  | _ => exact absurd hbyte id

/-- The patterns leave open what does not count, and nothing else. -/
theorem mask_eq_countedBits {word : Word} (hmatches : opcode.Matches word)
    (hbegins : Begins opcode instruction) {i : Nat} {pattern : Pattern}
    (hpattern : instruction.extension[i]? = some pattern) :
    pattern.mask = countedBits word (i + 1) := by
  have hcode := Opcode.byteImmediate_iff hmatches
  by_cases hbyte : ByteImmediate word
  · obtain ⟨value, rest, hextension, hrest⟩ :=
      extension_of_hasByteImmediate hbegins (hcode.mp hbyte)
    rw [hextension] at hpattern
    cases i with
    | zero =>
        rw [countedBits, if_pos ⟨rfl, hbyte⟩]
        cases hpattern
        rfl
    | succ i =>
        rw [List.getElem?_cons_succ] at hpattern
        rw [countedBits, if_neg (fun hfirst => by omega)]
        exact hrest pattern (List.mem_of_getElem? hpattern)
  · have hwhole := whole_of_begins hbegins (mt hcode.mpr hbyte)
    rw [countedBits, if_neg (fun hfirst => hbyte hfirst.2)]
    exact hwhole pattern (List.mem_of_getElem? hpattern)

end Masks

namespace Bus

variable {bus : Bus} {place : Address}

/-- What counts of the words of an instruction is what it is written with. -/
theorem countedAt_eq_ok_iff {word : Word} (hword : bus.wordAt place = .ok word)
    (i : Nat) (part : Word) :
    bus.countedAt place i = .ok part ↔
      ∃ found, bus.wordAt (place.skip i) = .ok found ∧
        found &&& countedBits word i = part := by
  rw [countedAt, hword]
  change ((bus.wordAt (place.skip i)).bind fun found =>
    .ok (found &&& countedBits word i)) = .ok part ↔ _
  cases bus.wordAt (place.skip i) <;> simp [Except.bind]

theorem countedAt_zero {word : Word} (hword : bus.wordAt place = .ok word) :
    bus.countedAt place 0 = .ok word := by
  rw [countedAt_eq_ok_iff hword]
  refine ⟨word, ?_, BitVec.and_allOnes⟩
  rw [Address.skip_zero]
  exact hword

theorem wordAt_of_countedAt_zero {word : Word}
    (hcounted : bus.countedAt place 0 = .ok word) :
    bus.wordAt place = .ok word := by
  cases hword : bus.wordAt place with
  | error fault =>
      rw [countedAt, hword] at hcounted
      cases hcounted
  | ok found =>
      rw [countedAt_zero hword] at hcounted
      exact hcounted

variable {word : Word} {opcode : Opcode} {instruction : Instruction}

/-- Words fit the patterns of an instruction exactly when what counts of them
is what the patterns say. -/
theorem fits_iff_countedAt (hword : bus.wordAt place = .ok word)
    (hmatches : opcode.Matches word) (hbegins : Begins opcode instruction) :
    bus.Fits (place.skip 1) instruction.extension ↔
      ∀ i pattern, instruction.extension[i]? = some pattern →
        bus.countedAt place (i + 1) = .ok pattern.value := by
  rw [bus.fits_iff]
  constructor
  · intro hfits i pattern hpattern
    obtain ⟨found, hfound, hvalue⟩ := hfits i pattern hpattern
    rw [Address.skip_add, Nat.add_comm] at hfound
    rw [Pattern.Fits, mask_eq_countedBits hmatches hbegins hpattern] at hvalue
    exact (countedAt_eq_ok_iff hword _ _).mpr ⟨found, hfound, hvalue⟩
  · intro hcounted i pattern hpattern
    obtain ⟨found, hfound, hvalue⟩ :=
      (countedAt_eq_ok_iff hword _ _).mp (hcounted i pattern hpattern)
    refine ⟨found, ?_, ?_⟩
    · rw [Address.skip_add, Nat.add_comm]
      exact hfound
    · rw [Pattern.Fits, mask_eq_countedBits hmatches hbegins hpattern]
      exact hvalue

end Bus

/-- The address of the `i`-th byte from a place on. -/
def Address.byte (place : Address) (i : Nat) : Address :=
  place + BitVec.ofNat 32 i

theorem Address.byte_zero (place : Address) : place.byte 0 = place :=
  BitVec.add_zero place

theorem Address.byte_skip (place : Address) (i : Nat) :
    Address.byte (place.skip 1) i = place.byte (i + 2) := by
  rw [byte, byte, skip, BitVec.add_assoc, ← BitVec.ofNat_add, Nat.add_comm]

/-- The second byte of a word is where its first is. -/
theorem Address.byte_one {place : Address} (hplace : place.InMemory)
    (heven : place.toNat % 2 = 0) :
    (place.byte 1).Reached ∧ (place.byte 1).toNat = place.toNat + 1 := by
  have hbyte : (place.byte 1).toNat = (place.toNat + 1) % 2 ^ 32 := by
    rw [byte, BitVec.toNat_add]
    rfl
  unfold Reached InMemory at *
  simp only [Region.Contains, Region.start, Region.length] at *
  omega

namespace Bus

variable {left right : Bus} {place other : Address}

theorem inMemory_of_byteAt {bus : Bus} (hreached : place.Reached) {byte : Byte}
    (hbyte : bus.byteAt place = .ok byte) : place.InMemory := by
  by_contra hplace
  rw [bus.byteAt_eq_ok_iff hreached, bus.memory?_of_not_inMemory hplace]
    at hbyte
  cases hbyte

/-- A word goes where its two bytes go. -/
theorem wordAt_of_bytes {word : Word} (hplace : place.Reached)
    (hother : other.Reached) (heven : other.toNat % 2 = 0)
    (hword : left.wordAt place = .ok word)
    (hbytes : ∀ i < 2, ∃ byte, left.byteAt (place.byte i) = .ok byte ∧
      right.byteAt (other.byte i) = .ok byte) :
    right.wordAt other = .ok word := by
  obtain ⟨first, hleft, hright⟩ := hbytes 0 (by decide)
  obtain ⟨second, hleft', hright'⟩ := hbytes 1 (by decide)
  rw [Address.byte_zero] at hleft hright
  obtain ⟨hevenPlace, high, low, hhigh, hlow, rfl⟩ :=
    (left.wordAt_eq_ok_iff hplace word).mp hword
  obtain ⟨hreached, hnext⟩ :=
    Address.byte_one (inMemory_of_byteAt hplace hleft) hevenPlace
  obtain ⟨hreached', hnext'⟩ :=
    Address.byte_one (inMemory_of_byteAt hother hright) heven
  rw [left.byteAt_eq_ok_iff hplace, hhigh] at hleft
  rw [left.byteAt_eq_ok_iff hreached, hnext, hlow] at hleft'
  rw [right.byteAt_eq_ok_iff hother, ← hleft] at hright
  rw [right.byteAt_eq_ok_iff hreached', hnext', ← hleft'] at hright'
  exact (right.wordAt_eq_ok_iff hother _).mpr
    ⟨heven, high, low, hright, hright', rfl⟩

/-- Patterns that words fit are fitted wherever their bytes are copied to. -/
theorem fits_of_bytes {patterns : List Pattern} (hplace : place.Reached)
    (hother : other.Reached) (heven : other.toNat % 2 = 0)
    (hfits : left.Fits place patterns)
    (hbytes : ∀ i < 2 * patterns.length, ∃ byte,
      left.byteAt (place.byte i) = .ok byte ∧
        right.byteAt (other.byte i) = .ok byte) :
    right.Fits other patterns := by
  induction patterns generalizing place other with
  | nil => trivial
  | cons pattern patterns ih =>
      obtain ⟨⟨word, hword, hfit⟩, hrest⟩ := hfits
      rw [List.length_cons] at hbytes
      have hcopied := wordAt_of_bytes hplace hother heven hword
        (fun i hi => hbytes i (by omega))
      obtain ⟨hnextPlace, -⟩ := left.reached_skip hplace hword
      obtain ⟨hnextOther, hskip⟩ := right.reached_skip hother hcopied
      refine ⟨⟨word, hcopied, hfit⟩,
        ih hnextPlace hnextOther (by omega) hrest ?_⟩
      intro i hi
      obtain ⟨byte, hleft, hright⟩ := hbytes (i + 2) (by omega)
      rw [Address.byte_skip, Address.byte_skip]
      exact ⟨byte, hleft, hright⟩

end Bus

namespace Bus

variable {left right : Bus} {place other : Address}
  {instruction : Instruction} {length : Long}

/-- The same instruction at two places is written alike there. -/
theorem countedAt_of_decode {length' : Long} (hplace : place.Reached)
    (hother : other.Reached)
    (hleft : (left.decode place).result = .ok ⟨instruction, length⟩)
    (hright : (right.decode other).result = .ok ⟨instruction, length'⟩) :
    length = length' ∧ ∀ i < length.toNat / 2, ∃ part,
      left.countedAt place i = .ok part ∧
        right.countedAt other i = .ok part := by
  obtain ⟨word, opcode, hword, hmatches, hbegins, hfits, rfl⟩ :=
    (left.decode_eq_ok_iff_fits hplace _).mp hleft
  obtain ⟨word', opcode', hword', hmatches', hbegins', hfits', rfl⟩ :=
    (right.decode_eq_ok_iff_fits hother _).mp hright
  have hopcode := opcode?_of_begins hbegins
  rw [opcode?_of_begins hbegins'] at hopcode
  cases hopcode
  obtain rfl := Opcode.word_unique hmatches hmatches'
  refine ⟨rfl, ?_⟩
  intro i hi
  rw [toNat_length] at hi
  cases i with
  | zero => exact ⟨word, countedAt_zero hword, countedAt_zero hword'⟩
  | succ i =>
      have hpattern := List.getElem?_eq_getElem
        (show i < instruction.extension.length by omega)
      exact ⟨_,
        (fits_iff_countedAt hword hmatches hbegins).mp hfits i _ hpattern,
        (fits_iff_countedAt hword' hmatches hbegins).mp hfits' i _ hpattern⟩

/-- Words of which the same counts are decoded alike. -/
theorem decode_of_countedAt (hplace : place.Reached) (hother : other.Reached)
    (hleft : (left.decode place).result = .ok ⟨instruction, length⟩)
    (hcounted : ∀ i < length.toNat / 2, ∃ part,
      left.countedAt place i = .ok part ∧
        right.countedAt other i = .ok part) :
    (right.decode other).result = .ok ⟨instruction, length⟩ := by
  obtain ⟨word, opcode, hword, hmatches, hbegins, hfits, rfl⟩ :=
    (left.decode_eq_ok_iff_fits hplace _).mp hleft
  rw [toNat_length] at hcounted
  have hword' : right.wordAt other = .ok word := by
    obtain ⟨part, hpart, hpart'⟩ := hcounted 0 (by omega)
    rw [countedAt_zero hword] at hpart
    cases hpart
    exact wordAt_of_countedAt_zero hpart'
  refine (right.decode_eq_ok_iff_fits hother _).mpr
    ⟨word, opcode, hword', hmatches, hbegins, ?_, rfl⟩
  rw [fits_iff_countedAt hword' hmatches hbegins]
  intro i pattern hpattern
  obtain ⟨hi, -⟩ := List.getElem?_eq_some_iff.mp hpattern
  obtain ⟨part, hpart, hpart'⟩ := hcounted (i + 1) (by omega)
  rw [(fits_iff_countedAt hword hmatches hbegins).mp hfits i pattern hpattern]
    at hpart
  cases hpart
  exact hpart'

/-- Bytes that are copied to another place in memory are decoded alike. -/
theorem decode_of_bytes (hplace : place.Reached) (hother : other.Reached)
    (heven : other.toNat % 2 = 0)
    (hleft : (left.decode place).result = .ok ⟨instruction, length⟩)
    (hbytes : ∀ i < length.toNat, ∃ byte,
      left.byteAt (place.byte i) = .ok byte ∧
        right.byteAt (other.byte i) = .ok byte) :
    (right.decode other).result = .ok ⟨instruction, length⟩ := by
  obtain ⟨word, opcode, hword, hmatches, hbegins, hfits, rfl⟩ :=
    (left.decode_eq_ok_iff_fits hplace _).mp hleft
  rw [toNat_length] at hbytes
  have hcode : left.Fits place (.exact word :: instruction.extension) :=
    ⟨⟨word, hword, (Pattern.fits_exact_iff _ _).mpr rfl⟩, hfits⟩
  have hcopied : right.Fits other (.exact word :: instruction.extension) := by
    refine fits_of_bytes hplace hother heven hcode ?_
    intro i hi
    rw [List.length_cons] at hi
    exact hbytes i (by omega)
  obtain ⟨⟨found, hfound, hfit⟩, hrest⟩ := hcopied
  rw [(Pattern.fits_exact_iff _ _).mp hfit] at hfound
  exact (right.decode_eq_ok_iff_fits hother _).mpr
    ⟨word, opcode, hfound, hmatches, hbegins, hrest, rfl⟩

/-- The encoding is unambiguous and does not depend on where it stands.  For
code in memory, two decoded instructions are equal exactly when their lengths
are and the same counts of their words; and copied bytes are decoded as the
same instruction, whatever follows them. -/
theorem decode_unambiguous (hplace : place.InMemory) (hother : other.InMemory)
    (hleft : (left.decode place).result = .ok ⟨instruction, length⟩) :
    (∀ instruction' length',
      (right.decode other).result = .ok ⟨instruction', length'⟩ →
        (instruction = instruction' ↔
          length = length' ∧ ∀ i < length.toNat / 2, ∃ part,
            left.countedAt place i = .ok part ∧
              right.countedAt other i = .ok part)) ∧
      (other.toNat % 2 = 0 →
        (∀ i < length.toNat, ∃ byte,
          left.byteAt (place.byte i) = .ok byte ∧
            right.byteAt (other.byte i) = .ok byte) →
        (right.decode other).result = .ok ⟨instruction, length⟩) := by
  refine ⟨?_, ?_⟩
  · intro instruction' length' hright
    constructor
    · rintro rfl
      exact countedAt_of_decode (.inl hplace) (.inl hother) hleft hright
    · rintro ⟨-, hcounted⟩
      rw [decode_of_countedAt (.inl hplace) (.inl hother) hleft hcounted]
        at hright
      cases hright
      rfl
  · intro heven hbytes
    exact decode_of_bytes (.inl hplace) (.inl hother) heven hleft hbytes

namespace UnambiguousWitness

/-- A test of an immediate byte, under bits that do not count. -/
def untidy : Bus :=
  powerOn ⟨#[0x4A, 0x3C, 0xFF, 0x05], by decide⟩ 0

/-- The same test with zeros there, behind another instruction. -/
def tidy : Bus :=
  powerOn ⟨#[0x4E, 0x71, 0x4A, 0x3C, 0x00, 0x05], by decide⟩ 0

/-- The bytes of the first, with others behind them. -/
def copied : Bus :=
  powerOn ⟨#[0x4A, 0x3C, 0xFF, 0x05, 0x60], by decide⟩ 0

theorem decode_unambiguous_tst :
    (Address.InMemory 0 ∧ Address.InMemory 2 ∧
      (untidy.decode 0).result = .ok ⟨.tst (.immediate 5) .byte, 4⟩ ∧
      (tidy.decode 2).result = .ok ⟨.tst (.immediate 5) .byte, 4⟩) ∧
    (∀ i < 2, ∃ part, untidy.countedAt 0 i = .ok part ∧
      tidy.countedAt 2 i = .ok part) ∧
    (copied.decode 0).result = .ok ⟨.tst (.immediate 5) .byte, 4⟩ := by
  have hzero : Address.InMemory 0 := by decide
  have htwo : Address.InMemory 2 := by decide
  have huntidy : (untidy.decode 0).result =
      .ok ⟨.tst (.immediate 5) .byte, 4⟩ := rfl
  have htidy : (tidy.decode 2).result =
      .ok ⟨.tst (.immediate 5) .byte, 4⟩ := rfl
  refine ⟨⟨hzero, htwo, huntidy, htidy⟩, ?_, ?_⟩
  · have halike := (decode_unambiguous hzero htwo huntidy).1 _ _ htidy
    exact (halike.mp rfl).2
  · apply (decode_unambiguous hzero hzero huntidy).2 rfl
    intro i hi
    have hcases : i = 0 ∨ i = 1 ∨ i = 2 ∨ i = 3 := by
      have hfour : i < 4 := hi
      omega
    rcases hcases with rfl | rfl | rfl | rfl
    · exact ⟨0x4A, rfl, rfl⟩
    · exact ⟨0x3C, rfl, rfl⟩
    · exact ⟨0xFF, rfl, rfl⟩
    · exact ⟨0x05, rfl, rfl⟩

end UnambiguousWitness

end Bus

end MegaDrive
