/-
Comparisons with zero.  What a condition says of a number with a sign is said
here without any flags.  Main statement: after a test or a masked byte each
condition holds exactly when it is so of the compared value, whatever the
status was before, and a branch on equality goes by whether that value is zero.
-/
import MegaDrive.Proofs.Executability

namespace MegaDrive

namespace Width

variable (width : Width) (value : Long)

/-- The low part of a value as a number with a sign. -/
def signed : Int :=
  (value.extractLsb' 0 width.bits).toInt

theorem isNegative_eq_msb :
    width.isNegative value = (value.extractLsb' 0 width.bits).msb := by
  have hsign : width.signBit = BitVec.twoPow 32 (width.bits - 1) := by
    cases width <;> rfl
  have hnonzero : BitVec.twoPow 32 (width.bits - 1) ≠ 0 := by
    cases width <;> decide
  have hinside : width.bits - 1 < width.bits := by cases width <;> decide
  rw [BitVec.msb_eq_getLsbD_last, BitVec.getLsbD_extractLsb', isNegative,
    hsign, BitVec.and_twoPow, Nat.zero_add, decide_eq_true hinside,
    Bool.true_and]
  cases value.getLsbD (width.bits - 1) with
  | true => simpa using hnonzero
  | false => simp

theorem signed_lt_zero_iff :
    width.signed value < 0 ↔ width.isNegative value = true := by
  rw [isNegative_eq_msb, BitVec.msb_eq_toInt, decide_eq_true_iff, signed]

theorem signed_eq_zero_iff :
    width.signed value = 0 ↔ width.truncate value = 0 := by
  have hfits : width.bits ≤ 32 := by cases width <;> decide
  rw [signed, ← BitVec.toInt_zero, BitVec.toInt_inj, truncate_eq_setWidth,
    ← BitVec.toNat_inj, ← BitVec.toNat_inj,
    BitVec.toNat_setWidth_of_le hfits]
  simp

/-- A mask leaves nothing above the width of what it masks. -/
theorem truncate_and_and (mask : Long) :
    width.truncate value &&& mask &&& width.mask =
      width.truncate value &&& mask := by
  rw [truncate, BitVec.and_assoc, BitVec.and_comm mask, ← BitVec.and_assoc,
    BitVec.and_assoc value, BitVec.and_self]

end Width

/-- What a condition says of a number when that number has been compared with
zero, a comparison that neither carries nor overflows. -/
def Condition.Says (condition : Condition) (number : Int) : Prop :=
  match condition with
  | .equal | .lowerOrSame => number = 0
  | .notEqual | .higher => number ≠ 0
  | .minus | .lessThan => number < 0
  | .plus | .greaterOrEqual => 0 ≤ number
  | .greaterThan => 0 < number
  | .lessOrEqual => number ≤ 0
  | .always | .carryClear | .overflowClear => True
  | .never | .carrySet | .overflowSet => False

namespace Status

variable (status : Status) (width : Width) (value : Long)

@[simp] theorem carry_compared :
    (status.compared width value).carry = false := by
  simp only [carry, compared, BitVec.getLsbD_append]
  simp

@[simp] theorem overflow_compared :
    (status.compared width value).overflow = false := by
  simp only [overflow, compared, BitVec.getLsbD_append]
  simp

@[simp] theorem zero_compared :
    (status.compared width value).zero = (width.truncate value == 0) := by
  simp only [zero, compared, BitVec.getLsbD_append]
  simp

@[simp] theorem negative_compared :
    (status.compared width value).negative = width.isNegative value := by
  simp only [negative, compared, BitVec.getLsbD_append]
  simp

/-- The flags of a comparison are those of the order of the numbers. -/
theorem holds_compared_iff (condition : Condition) :
    condition.holds (status.compared width value) = true ↔
      condition.Says (width.signed value) := by
  have hzero : (width.truncate value == 0) = true ↔ width.signed value = 0 := by
    rw [beq_iff_eq, Width.signed_eq_zero_iff]
  have hnegative := width.signed_lt_zero_iff value
  generalize width.signed value = number at hzero hnegative ⊢
  cases condition <;>
    simp only [Condition.holds, Condition.Says, carry_compared,
      overflow_compared, zero_compared, negative_compared] <;>
    grind

end Status

/-- What was just written is read, at the width of the write. -/
theorem RegisterFile.read_write_self (file : RegisterFile)
    (register : Register) (width : Width) (value : Long) :
    (file.write register width value).read register width =
      width.truncate value := by
  rw [read, write, get_set_self, Width.truncate_merge]

/-- An operand gives nothing above the width at which it is read. -/
theorem Operand.truncate_of_load {operand : Operand} {width : Width}
    {machine : Machine} {value : Long}
    (hload : (operand.load width machine).result = .ok value) :
    width.truncate value = value := by
  cases operand with
  | register name =>
      cases hload
      exact width.truncate_truncate _
  | absolute | indirect | displaced => exact Bus.truncate_of_read hload
  | immediate | pcDisplaced | branch => cases hload

namespace Instruction

/-- A machine has compared a value of this width with zero since it was
`before`. -/
structure ComparedWithZero (width : Width) (value : Long)
    (before after : Machine) : Prop where
  sized : width.truncate value = value
  conditions : ∀ condition : Condition,
    condition.holds after.sr = true ↔ condition.Says (width.signed value)
  /-- Above the four flags the status is as it was. -/
  system : after.sr.extractLsb' 4 12 = before.sr.extractLsb' 4 12
  /-- A branch that meets this status goes by the value. -/
  branches : ∀ next : Machine, next.sr = after.sr →
    ∀ (displacement : Word) (form : Width),
      let target := displace (if form = .byte then next.pc else next.pc - 2)
        displacement
      let equal := execute (.beq (.branch displacement) form) next
      let notEqual := execute (.bne (.branch displacement) form) next
      equal.result = .ok () ∧ notEqual.result = .ok () ∧
        equal.machine.pc = (if value = 0 then target else next.pc) ∧
        notEqual.machine.pc = (if value = 0 then next.pc else target)

theorem pc_executeBranch (condition : Condition) (displacement : Word)
    (form : Width) (machine : Machine) :
    (executeBranch condition (.branch displacement) form machine).machine.pc =
      if condition.holds machine.sr then
        displace (if form = .byte then machine.pc else machine.pc - 2)
          displacement
      else machine.pc := by
  obtain ⟨found, hfound, hmachine⟩ := of_executeBranch_ok
    (result_executeBranch condition displacement form machine)
  cases hfound
  rw [hmachine]

/-- The status of a comparison is all that matters of the machine after it. -/
theorem comparedWithZero_of_status {width : Width} {value : Long}
    {before after : Machine} (hsized : width.truncate value = value)
    (hstatus : after.sr = before.sr.compared width value) :
    ComparedWithZero width value before after := by
  have hconditions : ∀ condition : Condition,
      condition.holds after.sr = true ↔
        condition.Says (width.signed value) := by
    intro condition
    rw [hstatus]
    exact before.sr.holds_compared_iff width value condition
  have hzero : width.signed value = 0 ↔ value = 0 := by
    rw [Width.signed_eq_zero_iff, hsized]
  refine ⟨hsized, hconditions, ?_, ?_⟩
  · rw [hstatus, Status.compared]
    exact BitVec.extractLsb'_append_eq_left
  · intro next hnext displacement form target equal notEqual
    refine ⟨result_executeBranch .equal displacement form next,
      result_executeBranch .notEqual displacement form next, ?_, ?_⟩
    · refine (pc_executeBranch .equal displacement form next).trans ?_
      rw [hnext]
      simp only [hconditions .equal, Condition.Says, hzero]
      rfl
    · refine (pc_executeBranch .notEqual displacement form next).trans ?_
      rw [hnext]
      simp only [hconditions .notEqual, Condition.Says, hzero, ne_eq, ite_not]
      rfl

/-- A test that succeeds has compared its operand with zero, and an immediate
mask on the low byte of a register the byte it leaves there. -/
theorem flags_compare_with_zero (machine : Machine) :
    (∀ (target : Operand) (width : Width),
      (execute (.tst target width) machine).result = .ok () →
        ∃ value, (target.load width machine).result = .ok value ∧
          ComparedWithZero width value machine
            (execute (.tst target width) machine).machine) ∧
    (∀ source destination : Operand,
      (execute (.andi source destination .byte) machine).result = .ok () →
        let after := (execute (.andi source destination .byte) machine).machine
        ∃ mask name value, source = .immediate mask ∧
          destination = .register name ∧
          value = machine.registers.read name .byte &&& mask ∧
          after.registers.read name .byte = value ∧
          ComparedWithZero .byte value machine after) := by
  constructor
  · intro target width hresult
    obtain ⟨value, hvalue, hmachine⟩ := of_executeTst_ok hresult
    refine ⟨value, hvalue, comparedWithZero_of_status ?_ ?_⟩
    · exact Operand.truncate_of_load hvalue
    · exact congrArg Machine.sr hmachine
  · intro source destination hresult after
    obtain ⟨mask, name, result, rfl, rfl, -, hvalue, hmachine⟩ :=
      of_executeAndi_ok hresult
    have hsized : Width.byte.truncate result = result := by
      rw [hvalue]
      exact Width.byte.truncate_truncate _
    have hmasked : result = machine.registers.read name .byte &&& mask := by
      rw [hvalue, RegisterFile.read]
      exact Width.byte.truncate_and_and _ mask
    refine ⟨mask, name, result, rfl, rfl, hmasked, ?_,
      comparedWithZero_of_status hsized ?_⟩
    · rw [show after = _ from hmachine]
      exact (RegisterFile.read_write_self _ name .byte result).trans hsized
    · exact congrArg Machine.sr hmachine

end Instruction

namespace ComparisonWitness

open Instruction

/-- Every status bit is set, and in d0 the least of all words stands under bits
that are not part of it. -/
def cluttered : Machine :=
  { Machine.blank (Bus.powerOn ⟨#[0x4A, 0x40], by decide⟩ 0) with
    registers := RegisterFile.cleared.set (.data 0) 0x7FFF8000
    sr := 0xFFFF }

def test : Instruction := .tst (.register (.data 0)) .word

def mask : Instruction := .andi (.immediate 0xFF7F) (.register (.data 0)) .byte

theorem flags_compare_with_zero_cluttered :
    ((test.execute cluttered).result = .ok () ∧
      Condition.lessThan.holds (test.execute cluttered).machine.sr = true) ∧
    (mask.execute cluttered).result = .ok () ∧
      Condition.equal.holds (mask.execute cluttered).machine.sr = true := by
  have htest : (test.execute cluttered).result = .ok () := rfl
  have hmask : (mask.execute cluttered).result = .ok () := rfl
  refine ⟨⟨htest, ?_⟩, hmask, ?_⟩
  · obtain ⟨value, hvalue, hcompared⟩ :=
      (flags_compare_with_zero cluttered).1 _ _ htest
    cases hvalue
    exact (hcompared.conditions .lessThan).mpr
      (by decide : Width.word.signed 0x8000 < 0)
  · obtain ⟨_, _, value, hsource, hdestination, hvalue, -, hcompared⟩ :=
      (flags_compare_with_zero cluttered).2 _ _ hmask
    cases hsource
    cases hdestination
    rw [hvalue] at hcompared
    exact (hcompared.conditions .equal).mpr
      (by decide : Width.byte.signed 0 = 0)

end ComparisonWitness

end MegaDrive
