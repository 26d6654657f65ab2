/-
Decoding against the documented format.  Each piece of reading either gives a
value and the number of words it took or fails, and both compose along a
stream.  Main statement: decoding gives an instruction exactly where the format
does, with the length it gives, and faults exactly with the first thing that
the format lacks.
-/
import MegaDrive.Proofs.InstructionFormat

namespace MegaDrive

namespace Fetch

variable {α β : Type} {bus : Bus} {place : Address}

/-- The fetch ends behind `words` words with this value. -/
def Gives (fetch : Fetch α) (bus : Bus) (place : Address) (value : α)
    (words : Nat) : Prop :=
  (fetch bus place).result = .ok (value, place.skip words)

def Fails (fetch : Fetch α) (bus : Bus) (place : Address) (fault : Fault) :
    Prop :=
  (fetch bus place).result = .error fault

theorem gives_pure (value : α) : Gives (pure value) bus place value 0 := by
  rw [Gives, pure_apply, Address.skip_zero]
  rfl

theorem fails_fault (cause : Fault) :
    Fails (fault cause : Fetch α) bus place cause := rfl

theorem result_bind (first : Fetch α) (next : α → Fetch β) :
    ((first >>= next) bus place).result =
      (first bus place).result.bind fun reached =>
        (next reached.1 bus reached.2).result := by
  rw [bind_apply, Reply.bind_eq, Reply.result_andThen]

theorem Gives.bind {first : Fetch α} {next : α → Fetch β} {value : α}
    {result : β} {words more : Nat}
    (hfirst : Gives first bus place value words)
    (hnext : Gives (next value) bus (place.skip words) result more) :
    Gives (first >>= next) bus place result (words + more) := by
  rw [Gives] at hfirst hnext ⊢
  rw [result_bind, hfirst]
  change (next value bus (place.skip words)).result = _
  rw [hnext, Address.skip_add]

theorem Gives.bind_fails {first : Fetch α} {next : α → Fetch β} {value : α}
    {words : Nat} {fault : Fault} (hfirst : Gives first bus place value words)
    (hnext : Fails (next value) bus (place.skip words) fault) :
    Fails (first >>= next) bus place fault := by
  rw [Gives] at hfirst
  rw [Fails] at hnext ⊢
  rw [result_bind, hfirst]
  exact hnext

theorem Fails.bind {first : Fetch α} {fault : Fault}
    (hfirst : Fails first bus place fault) (next : α → Fetch β) :
    Fails (first >>= next) bus place fault := by
  rw [Fails] at hfirst ⊢
  rw [result_bind, hfirst]
  rfl

/-- A last step that reads nothing. -/
theorem Gives.map {first : Fetch α} {value : α} {words : Nat}
    (hfirst : Gives first bus place value words) (result : α → β) :
    Gives (first >>= fun value => pure (result value)) bus place
      (result value) words := by
  change Gives _ bus place (result value) (words + 0)
  exact hfirst.bind (gives_pure (result value))

theorem gives_word {value : Word} (hword : bus.wordAt place = .ok value) :
    Gives word bus place value 1 := by
  rw [Bus.wordAt] at hword
  rw [Gives, word, Reply.bind_eq, Reply.result_andThen]
  cases hread : (bus.read place .word).result with
  | error fault =>
      rw [hread] at hword
      cases hword
  | ok read =>
      rw [hread] at hword
      cases hword
      rfl

theorem fails_word {fault : Fault} (hword : bus.wordAt place = .error fault) :
    Fails word bus place fault := by
  rw [Bus.wordAt] at hword
  rw [Fails, word, Reply.bind_eq, Reply.result_andThen]
  cases hread : (bus.read place .word).result with
  | error cause =>
      rw [hread] at hword
      cases hword
      rfl
  | ok read =>
      rw [hread] at hword
      cases hword

theorem gives_long {value : Long} (hlong : bus.longAt place = .ok value) :
    Gives long bus place value 2 := by
  rw [Bus.longAt] at hlong
  rw [Gives, long, Reply.bind_eq, Reply.result_andThen, hlong]
  rfl

theorem fails_long {fault : Fault} (hlong : bus.longAt place = .error fault) :
    Fails long bus place fault := by
  rw [Bus.longAt] at hlong
  rw [Fails, long, Reply.bind_eq, Reply.result_andThen, hlong]
  rfl

section Operands

variable {role : Role} {width : Width} {field : OperandField}

theorem lowByte_eq_mask (word : Word) :
    (word.extractLsb' 0 8).setWidth 32 = (word &&& 0xFF).setWidth 32 := by
  have hmask : (word &&& 0xFF).toNat = word.toNat % 2 ^ 8 :=
    Nat.and_two_pow_sub_one_eq_mod word.toNat 8
  apply BitVec.eq_of_toNat_eq
  rw [BitVec.toNat_setWidth, BitVec.toNat_setWidth, BitVec.extractLsb'_toNat,
    hmask, Nat.shiftRight_zero]

theorem gives_immediate {value : Operand} {words : Nat}
    (hvalue : Selects bus place width .immediate value words) :
    ∃ number, value = .immediate number ∧
      Gives (immediate width) bus place number words := by
  cases hvalue with
  | byteImmediate hwidth hword =>
      subst hwidth
      refine ⟨_, rfl, ?_⟩
      rw [← lowByte_eq_mask]
      exact (gives_word hword).map _
  | wordImmediate hwidth hword =>
      subst hwidth
      exact ⟨_, rfl, (gives_word hword).map _⟩
  | longImmediate hwidth hlong =>
      subst hwidth
      exact ⟨_, rfl, gives_long hlong⟩

theorem gives_immediateOperand {value : Operand} {words : Nat}
    (hvalue : Selects bus place width .immediate value words)
    (hlegal : OperandField.immediate.Legal role) :
    Gives (operand role width .immediate) bus place value words := by
  obtain ⟨number, rfl, hnumber⟩ := gives_immediate hvalue
  cases role with
  | source => exact hnumber.map _
  | destination => exact absurd hlegal (by decide)

theorem gives_operand {target : Operand} {words : Nat}
    (hlegal : field.Legal role)
    (hselects : Selects bus place width field target words) :
    Gives (operand role width field) bus place target words := by
  cases hselects with
  | dataRegister number => exact gives_pure _
  | addressRegister number => exact gives_pure _
  | indirect number => exact gives_pure _
  | postIncrement number => exact gives_pure _
  | displaced number hword => exact (gives_word hword).map _
  | absolute hlong => exact (gives_long hlong).map _
  | pcDisplaced hword =>
      cases role with
      | source => exact (gives_word hword).map _
      | destination => exact absurd hlegal (by decide)
  | byteImmediate hwidth hword =>
      exact gives_immediateOperand (.byteImmediate hwidth hword) hlegal
  | wordImmediate hwidth hword =>
      exact gives_immediateOperand (.wordImmediate hwidth hword) hlegal
  | longImmediate hwidth hlong =>
      exact gives_immediateOperand (.longImmediate hwidth hlong) hlegal

theorem addressing?_of_illegal (hillegal : ¬ field.Legal role) :
    field.addressing? = none ∨
      role = .destination ∧
        (field.addressing? = some .pcDisplaced ∨
          field.addressing? = some .immediate) := by
  obtain ⟨mode, register⟩ := field
  revert mode register
  cases role <;> decide

theorem fails_operand_of_illegal (hillegal : ¬ field.Legal role) :
    Fails (operand role width field) bus place (role.unsupported field) := by
  have hfault : operand role width field = fault (role.unsupported field) := by
    unfold operand
    rcases addressing?_of_illegal hillegal with
      hnone | ⟨rfl, hpc | himmediate⟩
    · simp only [hnone]
    · simp only [hpc]
    · simp only [himmediate]
  rw [hfault]
  exact fails_fault _

theorem fails_immediate_of_word {fault : Fault} (hwidth : width ≠ .long)
    (hword : bus.wordAt place = .error fault) :
    Fails (immediate width) bus place fault := by
  cases width with
  | byte => exact (fails_word hword).bind _
  | word => exact (fails_word hword).bind _
  | long => exact absurd rfl hwidth

theorem fails_immediate_of_long {fault : Fault} (hwidth : width = .long)
    (hlong : bus.longAt place = .error fault) :
    Fails (immediate width) bus place fault := by
  subst hwidth
  exact fails_long hlong

theorem fails_immediate {fault : Fault}
    (hrefused : Refused bus place .source width .immediate fault) :
    Fails (immediate width) bus place fault := by
  cases hrefused with
  | source hillegal => exact absurd immediate_legal hillegal
  | destination hillegal => exact absurd immediate_legal hillegal
  | word hlegal htakes hword =>
      have hwidth : width ≠ .long := by
        simpa [OperandField.TakesWord, OperandField.immediate] using htakes
      exact fails_immediate_of_word hwidth hword
  | long hlegal htakes hlong =>
      have hwidth : width = .long := by
        simpa [OperandField.TakesLong, OperandField.immediate] using htakes
      exact fails_immediate_of_long hwidth hlong

theorem fails_operand_of_word {fault : Fault} (hlegal : field.Legal role)
    (htakes : field.TakesWord width)
    (hword : bus.wordAt place = .error fault) :
    Fails (operand role width field) bus place fault := by
  obtain ⟨mode, register⟩ := field
  obtain rfl | ⟨rfl, rfl | ⟨rfl, hwidth⟩⟩ := htakes
  · exact (fails_word hword).bind _
  · cases role with
    | source => exact (fails_word hword).bind _
    | destination => exact absurd hlegal (by decide)
  · cases role with
    | source => exact (fails_immediate_of_word hwidth hword).bind _
    | destination => exact absurd hlegal (by decide)

theorem fails_operand_of_long {fault : Fault} (hlegal : field.Legal role)
    (htakes : field.TakesLong width)
    (hlong : bus.longAt place = .error fault) :
    Fails (operand role width field) bus place fault := by
  obtain ⟨mode, register⟩ := field
  obtain ⟨rfl, rfl | ⟨rfl, rfl⟩⟩ := htakes
  · exact (fails_long hlong).bind _
  · cases role with
    | source => exact (fails_immediate_of_long rfl hlong).bind _
    | destination => exact absurd hlegal (by decide)

theorem fails_operand {fault : Fault}
    (hrefused : Refused bus place role width field fault) :
    Fails (operand role width field) bus place fault := by
  cases hrefused with
  | source hillegal hrole =>
      subst hrole
      exact fails_operand_of_illegal hillegal
  | destination hillegal hrole =>
      subst hrole
      exact fails_operand_of_illegal hillegal
  | word hlegal htakes hword => exact fails_operand_of_word hlegal htakes hword
  | long hlegal htakes hlong => exact fails_operand_of_long hlegal htakes hlong

end Operands

section Instructions

variable {opcode : Opcode}

theorem gives_branchTarget_of_short {short : Byte} (hshort : short ≠ 0) :
    Gives (branchTarget short) bus place
      (.branch (short.signExtend 16), .byte) 0 := by
  rw [branchTarget, if_neg hshort]
  exact gives_pure _

theorem gives_branchTarget_of_word {displacement : Word}
    (hword : bus.wordAt place = .ok displacement) :
    Gives (branchTarget 0) bus place (.branch displacement, .word) 1 := by
  rw [branchTarget, if_pos rfl]
  exact (gives_word hword).map _

theorem gives_branch (kind : BranchKind) {short : Byte} {target : Operand}
    {width : Width} {words : Nat}
    (htarget : Gives (branchTarget short) bus place (target, width) words) :
    Gives (instruction (.branch kind short)) bus place
      (kind.instruction target width) words := by
  cases kind with
  | notEqual => exact htarget.map fun found => Instruction.bne found.1 found.2
  | equal => exact htarget.map fun found => Instruction.beq found.1 found.2
  | subroutine => exact htarget.map fun found => Instruction.bsr found.1 found.2

theorem fails_branch (kind : BranchKind) {fault : Fault}
    (hword : bus.wordAt place = .error fault) :
    Fails (instruction (.branch kind 0)) bus place fault := by
  have htarget : Fails (branchTarget 0) bus place fault := by
    rw [branchTarget, if_pos rfl]
    exact (fails_word hword).bind _
  exact htarget.bind _

theorem gives_instruction {result : Instruction} {words : Nat}
    (hcompletes : Completes bus place opcode result words) :
    Gives (instruction opcode) bus place result words := by
  cases hcompletes with
  | nop => exact gives_pure _
  | rts => exact gives_pure _
  | stop hword => exact (gives_word hword).map _
  | moveToSr hword => exact (gives_word hword).map _
  | tst hlegal hsource => exact (gives_operand hlegal hsource).map _
  | move hlegal hsource hlegal' hdestination =>
      exact (gives_operand hlegal hsource).bind
        ((gives_operand hlegal' hdestination).map _)
  | shortBranch kind hshort =>
      exact gives_branch kind (gives_branchTarget_of_short hshort)
  | longBranch kind hword =>
      exact gives_branch kind (gives_branchTarget_of_word hword)
  | lea number hlegal hsource => exact (gives_operand hlegal hsource).map _
  | andi hvalue hlegal hdestination =>
      obtain ⟨number, rfl, hnumber⟩ := gives_immediate hvalue
      exact hnumber.bind ((gives_operand hlegal hdestination).map _)
  | dbcc condition number hword => exact (gives_word hword).map _
  | subq data hlegal hdestination =>
      exact (gives_operand hlegal hdestination).map _

theorem fails_instruction {fault : Fault}
    (hbreaks : Breaks bus place opcode fault) :
    Fails (instruction opcode) bus place fault := by
  cases hbreaks with
  | stop hword => exact (fails_word hword).bind _
  | moveToSr hword => exact (fails_word hword).bind _
  | tst hsource => exact (fails_operand hsource).bind _
  | moveSource hsource => exact (fails_operand hsource).bind _
  | moveDestination hlegal hsource hdestination =>
      exact (gives_operand hlegal hsource).bind_fails
        ((fails_operand hdestination).bind _)
  | longBranch kind hword => exact fails_branch kind hword
  | lea number hsource => exact (fails_operand hsource).bind _
  | andiValue hvalue => exact (fails_immediate hvalue).bind _
  | andiDestination hvalue hdestination =>
      obtain ⟨number, rfl, hnumber⟩ := gives_immediate hvalue
      exact hnumber.bind_fails ((fails_operand hdestination).bind _)
  | dbcc condition number hword => exact (fails_word hword).bind _
  | subq data hdestination => exact (fails_operand hdestination).bind _

end Instructions

end Fetch

namespace Bus

variable {bus : Bus} {pc : Address}

/-- The stream that decoding reads: an opcode and what it asks for. -/
def codeFetch : Fetch Instruction := do
  let word ← Fetch.word
  let opcode ← Fetch.ofExcept (Opcode.ofWord word)
  Fetch.instruction opcode

theorem decode_of_gives {result : Instruction} {words : Nat}
    (hgives : codeFetch.Gives bus pc result words) :
    (bus.decode pc).result =
      .ok ⟨result, BitVec.ofNat 32 (2 * words)⟩ := by
  have hlength : pc.skip words - pc = BitVec.ofNat 32 (2 * words) := by
    rw [Address.skip, BitVec.add_comm, BitVec.add_sub_cancel]
  rw [decode, Reply.bind_eq, Reply.result_andThen]
  change (codeFetch bus pc).result.bind _ = _
  rw [hgives, ← hlength]
  rfl

theorem decode_of_fails {fault : Fault}
    (hfails : codeFetch.Fails bus pc fault) :
    (bus.decode pc).result = .error fault := by
  rw [decode, Reply.bind_eq, Reply.result_andThen]
  change (codeFetch bus pc).result.bind _ = _
  rw [hfails]
  rfl

theorem decode_of_documented {decoded : Decoded}
    (hdocumented : Documented bus pc decoded) :
    (bus.decode pc).result = .ok decoded := by
  obtain ⟨hword, hmatches, hcompletes⟩ := hdocumented
  have hrest := Fetch.gives_instruction hcompletes
  refine decode_of_gives ((Fetch.gives_word hword).bind ?_)
  rw [Opcode.ofWord_of_matches hmatches]
  exact hrest

theorem decode_of_fault {fault : Fault}
    (hfault : DocumentedFault bus pc fault) :
    (bus.decode pc).result = .error fault := by
  apply decode_of_fails
  cases hfault with
  | unreadable hword => exact (Fetch.fails_word hword).bind _
  | unmatched hword hunmatched =>
      refine (Fetch.gives_word hword).bind_fails ?_
      rw [(Opcode.ofWord_eq_error_iff _ _).mpr hunmatched]
      exact (Fetch.fails_fault _).bind _
  | incomplete hword hmatches hbreaks =>
      refine (Fetch.gives_word hword).bind_fails ?_
      rw [Opcode.ofWord_of_matches hmatches]
      exact Fetch.fails_instruction hbreaks

theorem decode_eq_ok_iff (bus : Bus) (pc : Address) (decoded : Decoded) :
    (bus.decode pc).result = .ok decoded ↔ Documented bus pc decoded := by
  constructor
  · intro hdecode
    rcases documented_or_fault bus pc with
      ⟨found, hdocumented⟩ | ⟨fault, hfault⟩
    · rw [decode_of_documented hdocumented] at hdecode
      cases hdecode
      exact hdocumented
    · rw [decode_of_fault hfault] at hdecode
      cases hdecode
  · exact decode_of_documented

theorem decode_eq_error_iff (bus : Bus) (pc : Address) (fault : Fault) :
    (bus.decode pc).result = .error fault ↔ DocumentedFault bus pc fault := by
  constructor
  · intro hdecode
    rcases documented_or_fault bus pc with
      ⟨found, hdocumented⟩ | ⟨cause, hfault⟩
    · rw [decode_of_documented hdocumented] at hdecode
      cases hdecode
    · rw [decode_of_fault hfault] at hdecode
      cases hdecode
      exact hfault
  · exact decode_of_fault

/-- Decoding follows the documents: it succeeds exactly where they give an
instruction, with that instruction and length, and fails exactly where they
give a fault, with that fault. -/
theorem decode_follows_documents (bus : Bus) (pc : Address) :
    (∀ decoded,
      (bus.decode pc).result = .ok decoded ↔ Documented bus pc decoded) ∧
      ∀ fault,
        (bus.decode pc).result = .error fault ↔
          DocumentedFault bus pc fault := by
  constructor
  · intro decoded
    exact decode_eq_ok_iff bus pc decoded
  · intro fault
    exact decode_eq_error_iff bus pc fault

end Bus

end MegaDrive
