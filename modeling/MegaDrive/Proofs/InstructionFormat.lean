/-
The documented format of an instruction: the opcode that its first word stands
for, the operands that fields select with the extension words they take, and
the order in which these are asked for.  Main statement: at every address the
documents give either an instruction with its length or the fault of the first
thing that is missing.
-/
import MegaDrive.Decode
import MegaDrive.Proofs.OpcodeMap

namespace MegaDrive

/-- The address behind this many words. -/
def Address.skip (place : Address) (words : Nat) : Address :=
  place + BitVec.ofNat 32 (2 * words)

namespace Bus

/-- The word of code at an address. -/
def wordAt (bus : Bus) (place : Address) : Except Fault Word :=
  (bus.read place .word).result.map fun value => value.setWidth 16

def longAt (bus : Bus) (place : Address) : Except Fault Long :=
  (bus.read place .long).result

end Bus

/-- The fields that an operand may have on its side of the instruction. -/
def OperandField.Legal (role : Role) (field : OperandField) : Prop :=
  field.mode = 0 ∨ field.mode = 1 ∨ field.mode = 2 ∨ field.mode = 3 ∨
    field.mode = 5 ∨
    field.mode = 7 ∧
      (field.register = 1 ∨
        role = .source ∧ (field.register = 2 ∨ field.register = 4))

instance (role : Role) (field : OperandField) :
    Decidable (field.Legal role) :=
  inferInstanceAs (Decidable (_ ∨ _))

/-- The operand that a field selects, and the number of words it takes from
`place` on. -/
inductive Selects (bus : Bus) (place : Address) (width : Width) :
    OperandField → Operand → Nat → Prop
  | dataRegister (number : BitVec 3) :
      Selects bus place width ⟨0, number⟩
        (.register (.data (number.setWidth 8))) 0
  | addressRegister (number : BitVec 3) :
      Selects bus place width ⟨1, number⟩
        (.register (.address (number.setWidth 8))) 0
  | indirect (number : BitVec 3) :
      Selects bus place width ⟨2, number⟩
        (.indirect (number.setWidth 8) false) 0
  | postIncrement (number : BitVec 3) :
      Selects bus place width ⟨3, number⟩
        (.indirect (number.setWidth 8) true) 0
  | displaced (number : BitVec 3) {displacement : Word}
      (hword : bus.wordAt place = .ok displacement) :
      Selects bus place width ⟨5, number⟩
        (.displaced (number.setWidth 8) displacement) 1
  | absolute {address : Long} (hlong : bus.longAt place = .ok address) :
      Selects bus place width ⟨7, 1⟩ (.absolute address) 2
  | pcDisplaced {displacement : Word}
      (hword : bus.wordAt place = .ok displacement) :
      Selects bus place width ⟨7, 2⟩ (.pcDisplaced displacement) 1
  | byteImmediate {value : Word} (hwidth : width = .byte)
      (hword : bus.wordAt place = .ok value) :
      Selects bus place width ⟨7, 4⟩
        (.immediate ((value &&& 0xFF).setWidth 32)) 1
  | wordImmediate {value : Word} (hwidth : width = .word)
      (hword : bus.wordAt place = .ok value) :
      Selects bus place width ⟨7, 4⟩ (.immediate (value.setWidth 32)) 1
  | longImmediate {value : Long} (hwidth : width = .long)
      (hlong : bus.longAt place = .ok value) :
      Selects bus place width ⟨7, 4⟩ (.immediate value) 2

/-- The fields whose operand begins with a word of its own. -/
def OperandField.TakesWord (width : Width) (field : OperandField) : Prop :=
  field.mode = 5 ∨
    field.mode = 7 ∧
      (field.register = 2 ∨ field.register = 4 ∧ width ≠ .long)

def OperandField.TakesLong (width : Width) (field : OperandField) : Prop :=
  field.mode = 7 ∧
    (field.register = 1 ∨ field.register = 4 ∧ width = .long)

/-- The fault of an operand that cannot be had: its field is not legal there,
or what it takes from `place` on cannot be read. -/
inductive Refused (bus : Bus) (place : Address) (role : Role) (width : Width)
    (field : OperandField) : Fault → Prop
  | source (hillegal : ¬ field.Legal role) (hrole : role = .source) :
      Refused bus place role width field
        (.unsupportedSource (field.mode.setWidth 8)
          (field.register.setWidth 8))
  | destination (hillegal : ¬ field.Legal role)
      (hrole : role = .destination) :
      Refused bus place role width field
        (.unsupportedDestination (field.mode.setWidth 8)
          (field.register.setWidth 8))
  | word {fault : Fault} (hlegal : field.Legal role)
      (htakes : field.TakesWord width)
      (hword : bus.wordAt place = .error fault) :
      Refused bus place role width field fault
  | long {fault : Fault} (hlegal : field.Legal role)
      (htakes : field.TakesLong width)
      (hlong : bus.longAt place = .error fault) :
      Refused bus place role width field fault

def BranchKind.instruction : BranchKind → Operand → Width → Instruction
  | .notEqual => .bne
  | .equal => .beq
  | .subroutine => .bsr

/-- The field of an immediate operand. -/
def OperandField.immediate : OperandField := ⟨7, 4⟩

theorem immediate_legal : OperandField.immediate.Legal .source := by decide

/-- The instruction that an opcode begins when the words behind it stand from
`place` on, and the number of these words. -/
inductive Completes (bus : Bus) (place : Address) :
    Opcode → Instruction → Nat → Prop
  | nop : Completes bus place .nop .nop 0
  | rts : Completes bus place .rts .rts 0
  | stop {value : Word} (hword : bus.wordAt place = .ok value) :
      Completes bus place .stop (.stop value) 1
  | moveToSr {value : Word} (hword : bus.wordAt place = .ok value) :
      Completes bus place .moveToSr (.moveToSr value) 1
  | tst {width : Width} {source : OperandField} {target : Operand}
      {words : Nat} (hlegal : source.Legal .source)
      (hsource : Selects bus place width source target words) :
      Completes bus place (.tst width source) (.tst target width) words
  | move {width : Width} {source destination : OperandField}
      {origin target : Operand} {first second : Nat}
      (hlegal : source.Legal .source)
      (hsource : Selects bus place width source origin first)
      (hlegal' : destination.Legal .destination)
      (hdestination :
        Selects bus (place.skip first) width destination target second) :
      Completes bus place (.move width source destination)
        (.move origin target width) (first + second)
  | shortBranch (kind : BranchKind) {short : Byte} (hshort : short ≠ 0) :
      Completes bus place (.branch kind short)
        (kind.instruction (.branch (short.signExtend 16)) .byte) 0
  | longBranch (kind : BranchKind) {displacement : Word}
      (hword : bus.wordAt place = .ok displacement) :
      Completes bus place (.branch kind 0)
        (kind.instruction (.branch displacement) .word) 1
  | lea {source : OperandField} {target : Operand} {words : Nat}
      (number : BitVec 3) (hlegal : source.Legal .source)
      (hsource : Selects bus place .long source target words) :
      Completes bus place (.lea source number)
        (.lea target (.address (number.setWidth 8))) words
  | andi {width : Width} {destination : OperandField}
      {value target : Operand} {first second : Nat}
      (hvalue : Selects bus place width .immediate value first)
      (hlegal : destination.Legal .destination)
      (hdestination :
        Selects bus (place.skip first) width destination target second) :
      Completes bus place (.andi width destination)
        (.andi value target width) (first + second)
  | dbcc (condition : Condition) (number : BitVec 3) {displacement : Word}
      (hword : bus.wordAt place = .ok displacement) :
      Completes bus place (.dbcc condition number)
        (.dbcc condition (.data (number.setWidth 8)) displacement) 1
  | subq (data : BitVec 3) {width : Width} {destination : OperandField}
      {target : Operand} {words : Nat}
      (hlegal : destination.Legal .destination)
      (hdestination : Selects bus place width destination target words) :
      Completes bus place (.subq data width destination)
        (.subq (.immediate (if data = 0 then 8 else data.setWidth 32)) target
          width) words

/-- The fault of the first thing that an opcode asks for and does not get. -/
inductive Breaks (bus : Bus) (place : Address) : Opcode → Fault → Prop
  | stop {fault : Fault} (hword : bus.wordAt place = .error fault) :
      Breaks bus place .stop fault
  | moveToSr {fault : Fault} (hword : bus.wordAt place = .error fault) :
      Breaks bus place .moveToSr fault
  | tst {width : Width} {source : OperandField} {fault : Fault}
      (hsource : Refused bus place .source width source fault) :
      Breaks bus place (.tst width source) fault
  | moveSource {width : Width} {source destination : OperandField}
      {fault : Fault}
      (hsource : Refused bus place .source width source fault) :
      Breaks bus place (.move width source destination) fault
  | moveDestination {width : Width} {source destination : OperandField}
      {origin : Operand} {first : Nat} {fault : Fault}
      (hlegal : source.Legal .source)
      (hsource : Selects bus place width source origin first)
      (hdestination :
        Refused bus (place.skip first) .destination width destination fault) :
      Breaks bus place (.move width source destination) fault
  | longBranch (kind : BranchKind) {fault : Fault}
      (hword : bus.wordAt place = .error fault) :
      Breaks bus place (.branch kind 0) fault
  | lea {source : OperandField} {fault : Fault} (number : BitVec 3)
      (hsource : Refused bus place .source .long source fault) :
      Breaks bus place (.lea source number) fault
  | andiValue {width : Width} {destination : OperandField} {fault : Fault}
      (hvalue : Refused bus place .source width .immediate fault) :
      Breaks bus place (.andi width destination) fault
  | andiDestination {width : Width} {destination : OperandField}
      {value : Operand} {first : Nat} {fault : Fault}
      (hvalue : Selects bus place width .immediate value first)
      (hdestination :
        Refused bus (place.skip first) .destination width destination fault) :
      Breaks bus place (.andi width destination) fault
  | dbcc (condition : Condition) (number : BitVec 3) {fault : Fault}
      (hword : bus.wordAt place = .error fault) :
      Breaks bus place (.dbcc condition number) fault
  | subq (data : BitVec 3) {width : Width} {destination : OperandField}
      {fault : Fault}
      (hdestination :
        Refused bus place .destination width destination fault) :
      Breaks bus place (.subq data width destination) fault

theorem Address.skip_zero (place : Address) : place.skip 0 = place :=
  BitVec.add_zero place

theorem Address.skip_add (place : Address) (first second : Nat) :
    Address.skip (place.skip first) second = place.skip (first + second) := by
  rw [skip, skip, skip, BitVec.add_assoc, ← BitVec.ofNat_add, Nat.mul_add]

/-- Whether an operand can be had once its field is legal. -/
theorem selects_or_unreadable (bus : Bus) (place : Address) {role : Role}
    (width : Width) {field : OperandField} (hlegal : field.Legal role) :
    (∃ target words, Selects bus place width field target words) ∨
      (field.TakesWord width ∧
        ∃ fault, bus.wordAt place = .error fault) ∨
      field.TakesLong width ∧ ∃ fault, bus.longAt place = .error fault := by
  obtain ⟨mode, register⟩ := field
  obtain rfl | rfl | rfl | rfl | rfl | ⟨rfl, hregister⟩ := hlegal
  · exact .inl ⟨_, _, .dataRegister register⟩
  · exact .inl ⟨_, _, .addressRegister register⟩
  · exact .inl ⟨_, _, .indirect register⟩
  · exact .inl ⟨_, _, .postIncrement register⟩
  · cases hword : bus.wordAt place with
    | ok displacement => exact .inl ⟨_, _, .displaced register hword⟩
    | error fault => exact .inr (.inl ⟨.inl rfl, fault, rfl⟩)
  obtain rfl | ⟨-, rfl | rfl⟩ := hregister
  · cases hlong : bus.longAt place with
    | ok address => exact .inl ⟨_, _, .absolute hlong⟩
    | error fault => exact .inr (.inr ⟨⟨rfl, .inl rfl⟩, fault, rfl⟩)
  · cases hword : bus.wordAt place with
    | ok displacement => exact .inl ⟨_, _, .pcDisplaced hword⟩
    | error fault => exact .inr (.inl ⟨.inr ⟨rfl, .inl rfl⟩, fault, rfl⟩)
  · by_cases hwidth : width = .long
    · cases hlong : bus.longAt place with
      | ok value => exact .inl ⟨_, _, .longImmediate hwidth hlong⟩
      | error fault =>
          exact .inr (.inr ⟨⟨rfl, .inr ⟨rfl, hwidth⟩⟩, fault, rfl⟩)
    · cases hword : bus.wordAt place with
      | ok value =>
          cases width with
          | byte => exact .inl ⟨_, _, .byteImmediate rfl hword⟩
          | word => exact .inl ⟨_, _, .wordImmediate rfl hword⟩
          | long => exact absurd rfl hwidth
      | error fault =>
          exact .inr (.inl ⟨.inr ⟨rfl, .inr ⟨rfl, hwidth⟩⟩, fault, rfl⟩)

/-- Every field either selects an operand or is refused. -/
theorem selects_or_refused (bus : Bus) (place : Address) (role : Role)
    (width : Width) (field : OperandField) :
    (field.Legal role ∧
      ∃ target words, Selects bus place width field target words) ∨
      ∃ fault, Refused bus place role width field fault := by
  by_cases hlegal : field.Legal role
  · rcases selects_or_unreadable bus place width hlegal with
      hselects | ⟨htakes, fault, hword⟩ | ⟨htakes, fault, hlong⟩
    · exact .inl ⟨hlegal, hselects⟩
    · exact .inr ⟨fault, .word hlegal htakes hword⟩
    · exact .inr ⟨fault, .long hlegal htakes hlong⟩
  · cases role with
    | source => exact .inr ⟨_, .source hlegal rfl⟩
    | destination => exact .inr ⟨_, .destination hlegal rfl⟩

/-- Every opcode either is completed by what stands behind it or breaks. -/
theorem completes_or_breaks (bus : Bus) (place : Address) (opcode : Opcode) :
    (∃ instruction words, Completes bus place opcode instruction words) ∨
      ∃ fault, Breaks bus place opcode fault := by
  cases opcode with
  | nop => exact .inl ⟨_, _, .nop⟩
  | rts => exact .inl ⟨_, _, .rts⟩
  | stop =>
      cases hword : bus.wordAt place with
      | ok value => exact .inl ⟨_, _, .stop hword⟩
      | error fault => exact .inr ⟨_, .stop hword⟩
  | moveToSr =>
      cases hword : bus.wordAt place with
      | ok value => exact .inl ⟨_, _, .moveToSr hword⟩
      | error fault => exact .inr ⟨_, .moveToSr hword⟩
  | tst width source =>
      rcases selects_or_refused bus place .source width source with
        ⟨hlegal, target, words, hsource⟩ | ⟨fault, hrefused⟩
      · exact .inl ⟨_, _, .tst hlegal hsource⟩
      · exact .inr ⟨_, .tst hrefused⟩
  | move width source destination =>
      rcases selects_or_refused bus place .source width source with
        ⟨hlegal, origin, first, hsource⟩ | ⟨fault, hrefused⟩
      · rcases selects_or_refused bus (place.skip first) .destination width
            destination with
          ⟨hlegal', target, second, hdestination⟩ | ⟨fault, hrefused⟩
        · exact .inl ⟨_, _, .move hlegal hsource hlegal' hdestination⟩
        · exact .inr ⟨_, .moveDestination hlegal hsource hrefused⟩
      · exact .inr ⟨_, .moveSource hrefused⟩
  | branch kind short =>
      by_cases hshort : short = 0
      · subst hshort
        cases hword : bus.wordAt place with
        | ok displacement => exact .inl ⟨_, _, .longBranch kind hword⟩
        | error fault => exact .inr ⟨_, .longBranch kind hword⟩
      · exact .inl ⟨_, _, .shortBranch kind hshort⟩
  | lea source number =>
      rcases selects_or_refused bus place .source .long source with
        ⟨hlegal, target, words, hsource⟩ | ⟨fault, hrefused⟩
      · exact .inl ⟨_, _, .lea number hlegal hsource⟩
      · exact .inr ⟨_, .lea number hrefused⟩
  | andi width destination =>
      rcases selects_or_refused bus place .source width .immediate with
        ⟨-, value, first, hvalue⟩ | ⟨fault, hrefused⟩
      · rcases selects_or_refused bus (place.skip first) .destination width
            destination with
          ⟨hlegal, target, second, hdestination⟩ | ⟨fault, hrefused⟩
        · exact .inl ⟨_, _, .andi hvalue hlegal hdestination⟩
        · exact .inr ⟨_, .andiDestination hvalue hrefused⟩
      · exact .inr ⟨_, .andiValue hrefused⟩
  | dbcc condition number =>
      cases hword : bus.wordAt place with
      | ok displacement => exact .inl ⟨_, _, .dbcc condition number hword⟩
      | error fault => exact .inr ⟨_, .dbcc condition number hword⟩
  | subq data width destination =>
      rcases selects_or_refused bus place .destination width destination with
        ⟨hlegal, target, words, hdestination⟩ | ⟨fault, hrefused⟩
      · exact .inl ⟨_, _, .subq data hlegal hdestination⟩
      · exact .inr ⟨_, .subq data hrefused⟩

/-- The instruction and the length that the opcode map and the format give to
the code at `pc`. -/
inductive Documented (bus : Bus) (pc : Address) : Decoded → Prop
  | intro {word : Word} {opcode : Opcode} {instruction : Instruction}
      {words : Nat} (hword : bus.wordAt pc = .ok word)
      (hmatches : opcode.Matches word)
      (hcompletes : Completes bus (pc.skip 1) opcode instruction words) :
      Documented bus pc ⟨instruction, BitVec.ofNat 32 (2 * (1 + words))⟩

/-- The first fault of the code at `pc`. -/
inductive DocumentedFault (bus : Bus) (pc : Address) : Fault → Prop
  | unreadable {fault : Fault} (hword : bus.wordAt pc = .error fault) :
      DocumentedFault bus pc fault
  | unmatched {word : Word} {fault : Fault}
      (hword : bus.wordAt pc = .ok word)
      (hunmatched : Opcode.Unmatched word fault) :
      DocumentedFault bus pc fault
  | incomplete {word : Word} {opcode : Opcode} {fault : Fault}
      (hword : bus.wordAt pc = .ok word) (hmatches : opcode.Matches word)
      (hbreaks : Breaks bus (pc.skip 1) opcode fault) :
      DocumentedFault bus pc fault

theorem documented_or_fault (bus : Bus) (pc : Address) :
    (∃ decoded, Documented bus pc decoded) ∨
      ∃ fault, DocumentedFault bus pc fault := by
  cases hword : bus.wordAt pc with
  | error fault => exact .inr ⟨fault, .unreadable hword⟩
  | ok word =>
      cases hopcode : Opcode.ofWord word with
      | error fault =>
          have hunmatched := (Opcode.ofWord_eq_error_iff word fault).mp hopcode
          exact .inr ⟨fault, .unmatched hword hunmatched⟩
      | ok opcode =>
          have hmatches := (Opcode.ofWord_eq_ok_iff word opcode).mp hopcode
          rcases completes_or_breaks bus (pc.skip 1) opcode with
            ⟨instruction, words, hcompletes⟩ | ⟨fault, hbreaks⟩
          · exact .inl ⟨_, .intro hword hmatches hcompletes⟩
          · exact .inr ⟨fault, .incomplete hword hmatches hbreaks⟩

end MegaDrive
