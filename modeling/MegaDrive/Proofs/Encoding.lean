/-
The words that an instruction is written with, as patterns: each says which
bits of a word count and what they are.  Only a byte that stands as an
immediate leaves bits of its word open.  Main statement: in memory, the words
behind an opcode complete it to an instruction exactly when the opcode can
begin that instruction and the words fit its patterns.
-/
import MegaDrive.Proofs.CodeMemory
import MegaDrive.Proofs.DecodeFormat

namespace MegaDrive

/-- What a word has to be in the places of a mask. -/
structure Pattern where
  mask : Word
  value : Word
deriving DecidableEq, Repr

namespace Pattern

def exact (word : Word) : Pattern := ⟨0xFFFF, word⟩

/-- A byte in the lower half of a word whose upper half is open. -/
def lowByte (byte : Word) : Pattern := ⟨0x00FF, byte⟩

def Fits (pattern : Pattern) (word : Word) : Prop :=
  word &&& pattern.mask = pattern.value

theorem fits_exact_iff (word other : Word) :
    (exact other).Fits word ↔ word = other := by
  have hmask : word &&& 0xFFFF = word := BitVec.and_allOnes
  rw [Fits, exact, hmask]

end Pattern

/-- The words from `place` on fit the patterns one by one. -/
def Bus.Fits (bus : Bus) : Address → List Pattern → Prop
  | _, [] => True
  | place, pattern :: patterns =>
      (∃ word, bus.wordAt place = .ok word ∧ pattern.Fits word) ∧
        bus.Fits (place.skip 1) patterns

/-- A long as the two words that it is written with. -/
def Pattern.long (value : Long) : List Pattern :=
  [exact (value.extractLsb' 16 16), exact (value.extractLsb' 0 16)]

/-- What an operand of this width is written with behind the opcode. -/
def Operand.extension (width : Width) : Operand → List Pattern
  | .register _ | .indirect .. => []
  | .displaced _ displacement | .pcDisplaced displacement
  | .branch displacement => [.exact displacement]
  | .absolute address => Pattern.long address
  | .immediate value =>
      match width with
      | .byte => [.lowByte (value.setWidth 16)]
      | .word => [.exact (value.setWidth 16)]
      | .long => Pattern.long value

/-- What an instruction is written with behind its opcode.  A branch of width
`byte` has its displacement in the opcode. -/
def Instruction.extension : Instruction → List Pattern
  | .nop | .rts => []
  | .stop value | .moveToSr value => [.exact value]
  | .tst target width => target.extension width
  | .bne target width | .beq target width | .bsr target width =>
      if width = .byte then [] else target.extension width
  | .lea target _ => target.extension .long
  | .move source destination width | .andi source destination width =>
      source.extension width ++ destination.extension width
  | .dbcc _ _ displacement => [.exact displacement]
  | .subq _ destination width => destination.extension width

/-- The operands that a field can select, whatever stands behind it. -/
inductive Encodes (width : Width) : OperandField → Operand → Prop
  | dataRegister (number : BitVec 3) :
      Encodes width ⟨0, number⟩ (.register (.data (number.setWidth 8)))
  | addressRegister (number : BitVec 3) :
      Encodes width ⟨1, number⟩ (.register (.address (number.setWidth 8)))
  | indirect (number : BitVec 3) :
      Encodes width ⟨2, number⟩ (.indirect (number.setWidth 8) false)
  | postIncrement (number : BitVec 3) :
      Encodes width ⟨3, number⟩ (.indirect (number.setWidth 8) true)
  | displaced (number : BitVec 3) (displacement : Word) :
      Encodes width ⟨5, number⟩ (.displaced (number.setWidth 8) displacement)
  | absolute (address : Address) :
      Encodes width ⟨7, 1⟩ (.absolute address)
  | pcDisplaced (displacement : Word) :
      Encodes width ⟨7, 2⟩ (.pcDisplaced displacement)
  | byteImmediate {value : Word} (hwidth : width = .byte)
      (hvalue : value &&& 0xFF = value) :
      Encodes width ⟨7, 4⟩ (.immediate (value.setWidth 32))
  | wordImmediate (hwidth : width = .word) (value : Word) :
      Encodes width ⟨7, 4⟩ (.immediate (value.setWidth 32))
  | longImmediate (hwidth : width = .long) (value : Long) :
      Encodes width ⟨7, 4⟩ (.immediate value)

/-- The instructions that an opcode can begin, whatever stands behind it. -/
inductive Begins : Opcode → Instruction → Prop
  | nop : Begins .nop .nop
  | rts : Begins .rts .rts
  | stop (value : Word) : Begins .stop (.stop value)
  | moveToSr (value : Word) : Begins .moveToSr (.moveToSr value)
  | tst {width : Width} {source : OperandField} {target : Operand}
      (hlegal : source.Legal .source)
      (hsource : Encodes width source target) :
      Begins (.tst width source) (.tst target width)
  | move {width : Width} {source destination : OperandField}
      {origin target : Operand} (hlegal : source.Legal .source)
      (hsource : Encodes width source origin)
      (hlegal' : destination.Legal .destination)
      (hdestination : Encodes width destination target) :
      Begins (.move width source destination) (.move origin target width)
  | shortBranch (kind : BranchKind) {short : Byte} (hshort : short ≠ 0) :
      Begins (.branch kind short)
        (kind.instruction (.branch (short.signExtend 16)) .byte)
  | longBranch (kind : BranchKind) (displacement : Word) :
      Begins (.branch kind 0)
        (kind.instruction (.branch displacement) .word)
  | lea {source : OperandField} {target : Operand} (number : BitVec 3)
      (hlegal : source.Legal .source)
      (hsource : Encodes .long source target) :
      Begins (.lea source number)
        (.lea target (.address (number.setWidth 8)))
  | andi {width : Width} {destination : OperandField} {value target : Operand}
      (hvalue : Encodes width .immediate value)
      (hlegal : destination.Legal .destination)
      (hdestination : Encodes width destination target) :
      Begins (.andi width destination) (.andi value target width)
  | dbcc (condition : Condition) (number : BitVec 3) (displacement : Word) :
      Begins (.dbcc condition number)
        (.dbcc condition (.data (number.setWidth 8)) displacement)
  | subq (data : BitVec 3) {width : Width} {destination : OperandField}
      {target : Operand} (hlegal : destination.Legal .destination)
      (hdestination : Encodes width destination target) :
      Begins (.subq data width destination)
        (.subq (.immediate (if data = 0 then 8 else data.setWidth 32)) target
          width)

/-- A long and the two words that it is written with. -/
theorem eq_append_iff (value : Long) (high low : Word) :
    value = high ++ low ↔
      high = value.extractLsb' 16 16 ∧ low = value.extractLsb' 0 16 := by
  constructor
  · rintro rfl
    rw [BitVec.extractLsb'_append_eq_left, BitVec.extractLsb'_append_eq_right]
    exact ⟨rfl, rfl⟩
  · rintro ⟨rfl, rfl⟩
    rw [BitVec.extractLsb'_append_extractLsb'_eq_extractLsb' (by decide),
      BitVec.extractLsb'_eq_self]

/-- A word as an immediate has the word as its extension. -/
theorem setWidth_setWidth_word (word : Word) :
    (word.setWidth 32).setWidth 16 = word := by
  rw [BitVec.setWidth_setWidth_of_le _ (by decide), BitVec.setWidth_eq]

theorem extension_branch (kind : BranchKind) (target : Operand)
    (width : Width) :
    (kind.instruction target width).extension =
      if width = .byte then [] else target.extension width := by
  cases kind <;> rfl

theorem Operand.length_extension_le (width : Width) (operand : Operand) :
    (operand.extension width).length ≤ 2 := by
  cases operand <;> cases width <;> simp [extension, Pattern.long]

theorem Instruction.length_extension_le (instruction : Instruction) :
    instruction.extension.length ≤ 4 := by
  have hone : ∀ width (target : Operand),
      (target.extension width).length ≤ 4 := fun width target =>
    (target.length_extension_le width).trans (by decide)
  have htwo : ∀ width (first second : Operand),
      (first.extension width ++ second.extension width).length ≤ 4 := by
    intro width first second
    have hfirst := first.length_extension_le width
    have hsecond := second.length_extension_le width
    rw [List.length_append]
    omega
  have hbranch : ∀ width (target : Operand),
      (if width = .byte then [] else target.extension width).length ≤ 4 := by
    intro width target
    split
    · exact Nat.zero_le 4
    · exact hone width target
  cases instruction with
  | nop => exact Nat.zero_le 4
  | rts => exact Nat.zero_le 4
  | stop value => exact Nat.le_of_ble_eq_true rfl
  | moveToSr value => exact Nat.le_of_ble_eq_true rfl
  | dbcc condition counter displacement => exact Nat.le_of_ble_eq_true rfl
  | tst target width => exact hone width target
  | lea target destination => exact hone .long target
  | subq data destination width => exact hone width destination
  | bne target width => exact hbranch width target
  | beq target width => exact hbranch width target
  | bsr target width => exact hbranch width target
  | move source destination width => exact htwo width source destination
  | andi source destination width => exact htwo width source destination

/-- The number of bytes of an instruction as the number that it is. -/
theorem toNat_length (instruction : Instruction) :
    (BitVec.ofNat 32 (2 * (1 + instruction.extension.length))).toNat =
      2 * (1 + instruction.extension.length) := by
  have hlength := instruction.length_extension_le
  rw [BitVec.toNat_ofNat]
  omega

section Formats

variable {bus : Bus} {place : Address} {width : Width}
  {field : OperandField} {target : Operand} {words : Nat}

theorem Selects.encodes
    (hselects : Selects bus place width field target words) :
    Encodes width field target := by
  cases hselects with
  | dataRegister number => exact .dataRegister number
  | addressRegister number => exact .addressRegister number
  | indirect number => exact .indirect number
  | postIncrement number => exact .postIncrement number
  | displaced number hword => exact .displaced number _
  | absolute hlong => exact .absolute _
  | pcDisplaced hword => exact .pcDisplaced _
  | byteImmediate hwidth hword =>
      refine .byteImmediate hwidth ?_
      rw [BitVec.and_assoc, BitVec.and_self]
  | wordImmediate hwidth hword => exact .wordImmediate hwidth _
  | longImmediate hwidth hlong => exact .longImmediate hwidth _

theorem Selects.words_eq
    (hselects : Selects bus place width field target words) :
    words = (target.extension width).length := by
  cases hselects with
  | byteImmediate hwidth hword => subst hwidth; rfl
  | wordImmediate hwidth hword => subst hwidth; rfl
  | longImmediate hwidth hlong => subst hwidth; rfl
  | _ => rfl

variable {opcode : Opcode} {instruction : Instruction}

theorem Completes.begins
    (hcompletes : Completes bus place opcode instruction words) :
    Begins opcode instruction := by
  cases hcompletes with
  | nop => exact .nop
  | rts => exact .rts
  | stop hword => exact .stop _
  | moveToSr hword => exact .moveToSr _
  | tst hlegal hsource => exact .tst hlegal hsource.encodes
  | move hlegal hsource hlegal' hdestination =>
      exact .move hlegal hsource.encodes hlegal' hdestination.encodes
  | shortBranch kind hshort => exact .shortBranch kind hshort
  | longBranch kind hword => exact .longBranch kind _
  | lea number hlegal hsource => exact .lea number hlegal hsource.encodes
  | andi hvalue hlegal hdestination =>
      exact .andi hvalue.encodes hlegal hdestination.encodes
  | dbcc condition number hword => exact .dbcc condition number _
  | subq data hlegal hdestination =>
      exact .subq data hlegal hdestination.encodes

theorem Completes.words_eq
    (hcompletes : Completes bus place opcode instruction words) :
    words = instruction.extension.length := by
  cases hcompletes with
  | nop | rts | stop | moveToSr | dbcc => rfl
  | tst hlegal hsource => exact hsource.words_eq
  | move hlegal hsource hlegal' hdestination =>
      rw [hsource.words_eq, hdestination.words_eq]
      exact List.length_append.symm
  | shortBranch kind hshort =>
      rw [extension_branch, if_pos rfl]
      rfl
  | longBranch kind hword =>
      rw [extension_branch, if_neg (by decide)]
      rfl
  | lea number hlegal hsource => exact hsource.words_eq
  | andi hvalue hlegal hdestination =>
      rw [hvalue.words_eq, hdestination.words_eq]
      exact List.length_append.symm
  | subq data hlegal hdestination => exact hdestination.words_eq

/-- Wherever code is decoded, its first word is that of an opcode that can
begin the instruction. -/
theorem Bus.exists_begins_of_decode {pc : Address} {decoded : Decoded}
    (hdecode : (bus.decode pc).result = .ok decoded) :
    ∃ word opcode, bus.wordAt pc = .ok word ∧ opcode.Matches word ∧
      Begins opcode decoded.instruction ∧
      decoded.length =
        BitVec.ofNat 32 (2 * (1 + decoded.instruction.extension.length)) := by
  obtain ⟨hword, hmatches, hcompletes⟩ :=
    (Bus.decode_eq_ok_iff _ _ _).mp hdecode
  refine ⟨_, _, hword, hmatches, hcompletes.begins, ?_⟩
  rw [← hcompletes.words_eq]

end Formats

namespace Bus

variable (bus : Bus) {place : Address}

theorem fits_append (patterns more : List Pattern) (place : Address) :
    bus.Fits place (patterns ++ more) ↔
      bus.Fits place patterns ∧
        bus.Fits (place.skip patterns.length) more := by
  induction patterns generalizing place with
  | nil => simp [Fits, Address.skip_zero]
  | cons pattern patterns ih =>
      have hskip : Address.skip (place.skip 1) patterns.length =
          place.skip (pattern :: patterns).length := by
        rw [Address.skip_add, List.length_cons, Nat.add_comm]
      rw [List.cons_append, Fits, Fits, ih, hskip, and_assoc]

/-- Behind words that can be read reading goes on in memory or ends. -/
theorem Fits.reached {bus : Bus} {patterns : List Pattern}
    (hfits : bus.Fits place patterns) (hreached : place.Reached) :
    (place.skip patterns.length).Reached := by
  induction patterns generalizing place with
  | nil =>
      rw [List.length_nil, Address.skip_zero]
      exact hreached
  | cons pattern patterns ih =>
      obtain ⟨⟨word, hword, -⟩, hrest⟩ := hfits
      have hnext := ih hrest (bus.reached_skip hreached hword).1
      rw [Address.skip_add] at hnext
      rw [List.length_cons, Nat.add_comm]
      exact hnext

/-- Patterns are fitted one by one. -/
theorem fits_iff (patterns : List Pattern) (place : Address) :
    bus.Fits place patterns ↔
      ∀ i pattern, patterns[i]? = some pattern →
        ∃ word, bus.wordAt (place.skip i) = .ok word ∧ pattern.Fits word := by
  induction patterns generalizing place with
  | nil => simp [Fits]
  | cons first patterns ih =>
      rw [Fits, ih]
      constructor
      · rintro ⟨hfirst, hrest⟩ i pattern hpattern
        cases i with
        | zero =>
            cases hpattern
            rw [Address.skip_zero]
            exact hfirst
        | succ i =>
            have hword := hrest i pattern hpattern
            rw [Address.skip_add, Nat.add_comm] at hword
            exact hword
      · intro hall
        refine ⟨?_, ?_⟩
        · have hfirst := hall 0 first rfl
          rw [Address.skip_zero] at hfirst
          exact hfirst
        · intro i pattern hpattern
          have hword := hall (i + 1) pattern hpattern
          rw [Address.skip_add, Nat.add_comm]
          exact hword

theorem fits_exact (word : Word) :
    bus.Fits place [.exact word] ↔ bus.wordAt place = .ok word := by
  simp [Fits, Pattern.fits_exact_iff]

theorem fits_long (hreached : place.Reached) (value : Long) :
    bus.Fits place (Pattern.long value) ↔ bus.longAt place = .ok value := by
  rw [bus.longAt_eq_ok_iff_words hreached, Pattern.long, Fits, Fits, Fits]
  simp only [Pattern.fits_exact_iff, eq_append_iff]
  constructor
  · rintro ⟨⟨high, hhigh, rfl⟩, ⟨low, hlow, rfl⟩, -⟩
    exact ⟨_, _, hhigh, hlow, rfl, rfl⟩
  · rintro ⟨high, low, hhigh, hlow, rfl, rfl⟩
    exact ⟨⟨_, hhigh, rfl⟩, ⟨_, hlow, rfl⟩, trivial⟩

theorem fits_lowByte {value : Word} :
    bus.Fits place [.lowByte value] ↔
      ∃ word, bus.wordAt place = .ok word ∧ word &&& 0xFF = value := by
  simp [Fits, Pattern.Fits, Pattern.lowByte]

variable {width : Width} {field : OperandField} {target : Operand}

theorem fits_of_selects {words : Nat}
    (hselects : Selects bus place width field target words)
    (hreached : place.Reached) :
    bus.Fits place (target.extension width) := by
  cases hselects with
  | dataRegister | addressRegister | indirect | postIncrement => exact trivial
  | displaced number hword => exact (bus.fits_exact _).mpr hword
  | absolute hlong => exact (bus.fits_long hreached _).mpr hlong
  | pcDisplaced hword => exact (bus.fits_exact _).mpr hword
  | byteImmediate hwidth hword =>
      subst hwidth
      refine bus.fits_lowByte.mpr ⟨_, hword, ?_⟩
      rw [setWidth_setWidth_word]
  | wordImmediate hwidth hword =>
      subst hwidth
      refine (bus.fits_exact _).mpr ?_
      rw [setWidth_setWidth_word]
      exact hword
  | longImmediate hwidth hlong =>
      subst hwidth
      exact (bus.fits_long hreached _).mpr hlong

theorem selects_of_encodes (hencodes : Encodes width field target)
    (hfits : bus.Fits place (target.extension width))
    (hreached : place.Reached) :
    Selects bus place width field target
      (target.extension width).length := by
  cases hencodes with
  | dataRegister number => exact .dataRegister number
  | addressRegister number => exact .addressRegister number
  | indirect number => exact .indirect number
  | postIncrement number => exact .postIncrement number
  | displaced number displacement =>
      exact .displaced number ((bus.fits_exact _).mp hfits)
  | absolute address => exact .absolute ((bus.fits_long hreached _).mp hfits)
  | pcDisplaced displacement =>
      exact .pcDisplaced ((bus.fits_exact _).mp hfits)
  | byteImmediate hwidth hvalue =>
      subst hwidth
      obtain ⟨word, hword, hlow⟩ := bus.fits_lowByte.mp hfits
      rw [setWidth_setWidth_word] at hlow
      rw [← hlow]
      exact .byteImmediate rfl hword
  | wordImmediate hwidth value =>
      subst hwidth
      have hword := (bus.fits_exact _).mp hfits
      rw [setWidth_setWidth_word] at hword
      exact .wordImmediate rfl hword
  | longImmediate hwidth value =>
      subst hwidth
      exact .longImmediate rfl ((bus.fits_long hreached _).mp hfits)

variable {opcode : Opcode} {instruction : Instruction}

theorem fits_of_completes {words : Nat}
    (hcompletes : Completes bus place opcode instruction words)
    (hreached : place.Reached) :
    bus.Fits place instruction.extension := by
  have hpair : ∀ {first second : OperandField} {origin target : Operand}
      {width : Width} {words more : Nat},
      Selects bus place width first origin words →
      Selects bus (place.skip words) width second target more →
      bus.Fits place (origin.extension width ++ target.extension width) := by
    intro first second origin target width words more hfirst hsecond
    have hfits := bus.fits_of_selects hfirst hreached
    rw [hfirst.words_eq] at hsecond
    exact (bus.fits_append _ _ _).mpr
      ⟨hfits, bus.fits_of_selects hsecond (hfits.reached hreached)⟩
  cases hcompletes with
  | nop | rts => exact trivial
  | stop hword => exact (bus.fits_exact _).mpr hword
  | moveToSr hword => exact (bus.fits_exact _).mpr hword
  | tst hlegal hsource => exact bus.fits_of_selects hsource hreached
  | move hlegal hsource hlegal' hdestination =>
      exact hpair hsource hdestination
  | shortBranch kind hshort =>
      rw [extension_branch, if_pos rfl]
      exact trivial
  | longBranch kind hword =>
      rw [extension_branch, if_neg (by decide)]
      exact (bus.fits_exact _).mpr hword
  | lea number hlegal hsource => exact bus.fits_of_selects hsource hreached
  | andi hvalue hlegal hdestination => exact hpair hvalue hdestination
  | dbcc condition number hword => exact (bus.fits_exact _).mpr hword
  | subq data hlegal hdestination =>
      exact bus.fits_of_selects hdestination hreached

theorem completes_of_begins (hbegins : Begins opcode instruction)
    (hfits : bus.Fits place instruction.extension)
    (hreached : place.Reached) :
    Completes bus place opcode instruction instruction.extension.length := by
  cases hbegins with
  | nop => exact .nop
  | rts => exact .rts
  | stop value => exact .stop ((bus.fits_exact _).mp hfits)
  | moveToSr value => exact .moveToSr ((bus.fits_exact _).mp hfits)
  | tst hlegal hsource =>
      exact .tst hlegal (bus.selects_of_encodes hsource hfits hreached)
  | move hlegal hsource hlegal' hdestination =>
      obtain ⟨hfirst, hsecond⟩ := (bus.fits_append _ _ _).mp hfits
      have hnext := hfirst.reached hreached
      rw [Instruction.extension, List.length_append]
      exact .move hlegal (bus.selects_of_encodes hsource hfirst hreached)
        hlegal' (bus.selects_of_encodes hdestination hsecond hnext)
  | shortBranch kind hshort =>
      rw [extension_branch, if_pos rfl]
      exact .shortBranch kind hshort
  | longBranch kind displacement =>
      rw [extension_branch, if_neg (by decide)] at hfits ⊢
      exact .longBranch kind ((bus.fits_exact _).mp hfits)
  | lea number hlegal hsource =>
      exact .lea number hlegal (bus.selects_of_encodes hsource hfits hreached)
  | andi hvalue hlegal hdestination =>
      obtain ⟨hfirst, hsecond⟩ := (bus.fits_append _ _ _).mp hfits
      have hnext := hfirst.reached hreached
      rw [Instruction.extension, List.length_append]
      exact .andi (bus.selects_of_encodes hvalue hfirst hreached) hlegal
        (bus.selects_of_encodes hdestination hsecond hnext)
  | dbcc condition number displacement =>
      exact .dbcc condition number ((bus.fits_exact _).mp hfits)
  | subq data hlegal hdestination =>
      exact .subq data hlegal
        (bus.selects_of_encodes hdestination hfits hreached)

/-- In memory, the words behind an opcode complete it to an instruction when it
can begin that instruction and they fit what the instruction is written with.
-/
theorem completes_iff_fits (hreached : place.Reached) (words : Nat) :
    Completes bus place opcode instruction words ↔
      Begins opcode instruction ∧ bus.Fits place instruction.extension ∧
        words = instruction.extension.length := by
  constructor
  · intro hcompletes
    exact ⟨hcompletes.begins, bus.fits_of_completes hcompletes hreached,
      hcompletes.words_eq⟩
  · rintro ⟨hbegins, hfits, rfl⟩
    exact bus.completes_of_begins hbegins hfits hreached

/-- The same for a whole instruction in memory. -/
theorem decode_eq_ok_iff_fits (hreached : place.Reached) (length : Long) :
    (bus.decode place).result = .ok ⟨instruction, length⟩ ↔
      ∃ word opcode, bus.wordAt place = .ok word ∧ opcode.Matches word ∧
        Begins opcode instruction ∧
        bus.Fits (place.skip 1) instruction.extension ∧
        length = BitVec.ofNat 32 (2 * (1 + instruction.extension.length)) := by
  rw [decode_eq_ok_iff]
  constructor
  · intro hdocumented
    cases hdocumented with
    | intro hword hmatches hcompletes =>
        have hnext := (bus.reached_skip hreached hword).1
        obtain ⟨hbegins, hfits, rfl⟩ :=
          (bus.completes_iff_fits hnext _).mp hcompletes
        exact ⟨_, _, hword, hmatches, hbegins, hfits, rfl⟩
  · rintro ⟨word, opcode, hword, hmatches, hbegins, hfits, rfl⟩
    have hnext := (bus.reached_skip hreached hword).1
    exact .intro hword hmatches
      ((bus.completes_iff_fits hnext _).mpr ⟨hbegins, hfits, rfl⟩)

end Bus

end MegaDrive
