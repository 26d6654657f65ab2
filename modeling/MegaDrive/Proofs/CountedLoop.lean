/-
Loops that count a data register down.  A loop here is one word of body and the
branch behind it that counts and leads back.  What one pass keeps carries over
to a whole run by induction over the passes.  Main statement: a loop that
subtracts a number from another register subtracts it once more than the
counter says, unless the condition of its branch holds, in which case the
branch is refused.
-/
import MegaDrive.Proofs.CodeMemory
import MegaDrive.Proofs.ControlFlow
import MegaDrive.Proofs.Executability
import MegaDrive.Proofs.MoveFactoring
import MegaDrive.Proofs.OpcodeWord
import MegaDrive.Proofs.RegisterAccess

namespace MegaDrive

/-- A body of one word, and the counting branch back to it. -/
structure Bus.HoldsLoop (bus : Bus) (place : Address) (body : Opcode)
    (condition : Condition) (counter : BitVec 3) : Prop where
  first : bus.wordAt place = .ok body.word
  branch : bus.wordAt (place.skip 1) =
    .ok (Opcode.dbcc condition counter).word
  /-- The distance counts from its own place, two words behind the body. -/
  distance : bus.wordAt (place.skip 2) = .ok 0xFFFC

/-- How often a loop is passed that counts this register down. -/
def RegisterFile.passes (file : RegisterFile) (counter : Register) : Nat :=
  (file.read counter .word).toNat + 1

namespace Width

theorem toNat_truncate_word (value : Long) :
    (word.truncate value).toNat = value.toNat % 65536 :=
  word.toNat_truncate value

theorem merge_self (width : Width) (value : Long) :
    width.merge value value = value :=
  (width.merge_congr value (width.truncate_truncate value).symm).trans
    (width.merge_truncate value)

theorem merge_word (kept value : Long) :
    word.merge kept value =
      kept.extractLsb' 16 16 ++ value.extractLsb' 0 16 := by
  apply BitVec.eq_of_getLsbD_eq
  intro i hi
  rw [getLsbD_merge, BitVec.getLsbD_append]
  by_cases hlow : i < 16
  · simp [hlow, show i < word.bits from hlow]
  · simp [hlow, show ¬ i < word.bits from hlow, show i - 16 < 16 by omega,
      show 16 + (i - 16) = i by omega]

theorem toNat_truncate_word_sub (value : Long) (done : Nat) :
    (word.truncate (value - BitVec.ofNat 32 done)).toNat =
      (value.toNat + (4294967296 - done % 4294967296)) % 65536 := by
  rw [toNat_truncate_word, BitVec.toNat_sub, BitVec.toNat_ofNat]
  change (4294967296 - done % 4294967296 + value.toNat) % 4294967296 % 65536 = _
  omega

theorem truncate_sub_eq_zero_iff (value : Long) {done : Nat}
    (hdone : done ≤ (word.truncate value).toNat) :
    word.truncate (value - BitVec.ofNat 32 done) = 0 ↔
      done = (word.truncate value).toNat := by
  rw [toNat_truncate_word] at hdone ⊢
  rw [← BitVec.toNat_inj, toNat_truncate_word_sub]
  change _ = 0 ↔ _
  omega

/-- The counter of a branch goes down in its low word only, and by one each
time, so that its low word is that of the start less the number of times. -/
theorem truncate_pred_sub (value : Long) (done : Nat) :
    word.truncate (word.truncate (value - BitVec.ofNat 32 done) - 1) =
      word.truncate (value - BitVec.ofNat 32 (done + 1)) := by
  apply BitVec.eq_of_toNat_eq
  have hpred : ∀ low : Long, (word.truncate (low - 1)).toNat =
      (low.toNat + (4294967296 - 1 % 4294967296)) % 65536 :=
    fun low => toNat_truncate_word_sub low 1
  rw [hpred, toNat_truncate_word_sub, toNat_truncate_word_sub]
  omega

theorem truncate_sub_passes (value : Long) :
    word.truncate
        (value - BitVec.ofNat 32 ((word.truncate value).toNat + 1)) =
      word.truncate 0xFFFF := by
  apply BitVec.eq_of_toNat_eq
  rw [toNat_truncate_word_sub, toNat_truncate_word]
  change _ = 65535
  omega

end Width

namespace Machine

section Runs

theorem afterSteps_add (machine : Machine) (first second : Nat) :
    machine.afterSteps (first + second) =
      (machine.afterSteps first).afterSteps second := by
  induction first generalizing machine with
  | zero => rw [Nat.zero_add, afterSteps]
  | succ first ih =>
      rw [Nat.succ_add, afterSteps, ih]
      rfl

theorem performed_add (machine : Machine) (first second : Nat) :
    machine.performed (first + second) =
      machine.performed first ++
        (machine.afterSteps first).performed second := by
  induction first generalizing machine with
  | zero => rw [Nat.zero_add]; rfl
  | succ first ih =>
      rw [Nat.succ_add, performed, performed, ih]
      cases (step machine).result <;> rfl

/-- What every pass of a loop keeps is kept by all of them: an invariant that
knows how many passes are done, and the instructions of one pass. -/
theorem run_passes (pass : List Instruction)
    {invariant : Nat → Machine → Prop} {total : Nat}
    (hpass : ∀ done machine, done < total → invariant done machine →
      machine.performed pass.length = pass ∧
        invariant (done + 1) (machine.afterSteps pass.length))
    {machine : Machine} (hstart : invariant 0 machine) {done : Nat}
    (hdone : done ≤ total) :
    machine.performed (pass.length * done) =
        (List.replicate done pass).flatten ∧
      invariant done (machine.afterSteps (pass.length * done)) := by
  induction done with
  | zero => exact ⟨rfl, hstart⟩
  | succ done ih =>
      -- The new pass stands at the end, where the invariant of `done` holds.
      obtain ⟨hperformed, hinvariant⟩ := ih (Nat.le_of_succ_le hdone)
      obtain ⟨hlast, hnext⟩ := hpass done _ hdone hinvariant
      rw [Nat.mul_succ, performed_add, afterSteps_add, hperformed, hlast,
        List.replicate_succ', List.flatten_append]
      exact ⟨by simp, hnext⟩

end Runs

section Held

variable {machine : Machine} {opcode : Opcode} {instruction : Instruction}
  {words : Nat}

/-- The machine on which the instruction at the program counter runs, by the
words that it is written with. -/
def reaching (machine : Machine) (opcode : Opcode) (instruction : Instruction)
    (words : Nat) : Machine :=
  machine.begun opcode.word ⟨instruction, BitVec.ofNat 32 (2 * (1 + words))⟩

theorem pc_reaching :
    (machine.reaching opcode instruction words).pc =
      machine.pc.skip (1 + words) := rfl

variable (hword : machine.bus.wordAt machine.pc = .ok opcode.word)
  (hcompletes : Completes machine.bus (machine.pc.skip 1) opcode instruction
    words)

include hword hcompletes

theorem step_of_completes
    (hexecute : (instruction.execute
      (machine.reaching opcode instruction words)).result = .ok ()) :
    (step machine).result = .ok instruction ∧
      (step machine).machine =
        (instruction.execute
          (machine.reaching opcode instruction words)).machine.recorded
            machine.pc := by
  have hdecode := Bus.decode_of_documented
    (.intro hword (Opcode.matches_word opcode) hcompletes)
  obtain ⟨value, hread, hvalue⟩ := (map_eq_ok_iff _ _ _).mp hword
  rw [reaching, ← hvalue] at hexecute
  rw [step_of_ok hread hdecode hexecute, hvalue]
  exact ⟨rfl, rfl⟩

theorem step_of_completes_fault {fault : Fault}
    (hexecute : (instruction.execute
      (machine.reaching opcode instruction words)).result = .error fault) :
    (step machine).result = .error fault := by
  have hdecode := Bus.decode_of_documented
    (.intro hword (Opcode.matches_word opcode) hcompletes)
  obtain ⟨value, hread, hvalue⟩ := (map_eq_ok_iff _ _ _).mp hword
  rw [reaching, ← hvalue] at hexecute
  rw [step_of_executeFault hread hdecode hexecute]

end Held

/-- A counting branch whose condition does not hold. -/
theorem step_dbcc {machine : Machine} {condition : Condition}
    {counter : BitVec 3} {displacement : Word}
    (hword : machine.bus.wordAt machine.pc =
      .ok (Opcode.dbcc condition counter).word)
    (hdisplacement : machine.bus.wordAt (machine.pc.skip 1) =
      .ok displacement)
    (hends : condition.holds machine.sr = false) :
    let name := Register.data (counter.setWidth 8)
    (step machine).result = .ok (.dbcc condition name displacement) ∧
      (step machine).machine =
        { machine.fetched (Opcode.dbcc condition counter).word with
          registers := machine.registers.write name .word
            (machine.registers.read name .word - 1)
          pc := if machine.registers.read name .word = 0 then machine.pc.skip 2
            else displace (machine.pc.skip 1) displacement }.recorded
              machine.pc := by
  intro name
  have hcompletes : Completes machine.bus (machine.pc.skip 1)
      (.dbcc condition counter) (.dbcc condition name displacement) 1 :=
    .dbcc condition counter hdisplacement
  have hexecute := Instruction.result_executeDbcc condition name displacement
    (machine.reaching (.dbcc condition counter)
      (.dbcc condition name displacement) 1)
  rw [show (machine.reaching (.dbcc condition counter)
    (.dbcc condition name displacement) 1).sr = machine.sr from rfl, hends,
    if_neg Bool.false_ne_true] at hexecute
  obtain ⟨hresult, hmachine⟩ :=
    step_of_completes hword hcompletes hexecute
  refine ⟨hresult, hmachine.trans (congrArg (recorded · machine.pc) ?_)⟩
  obtain ⟨count, -, rfl, hafter⟩ := Instruction.of_executeDbcc_ok hexecute
  have hbase : machine.pc.skip 2 - 2 = machine.pc.skip 1 := by
    simp only [Address.skip]
    bv_omega
  refine hafter.trans ?_
  rw [pc_reaching]
  simp only [RegisterFile.read, truncate_pred_eq_iff, hbase]
  rfl

/-- Two words back from the distance stands the body. -/
theorem displace_back (place : Address) :
    displace (place.skip 2) 0xFFFC = place := by
  rw [displace, Address.skip,
    show BitVec.signExtend 32 (0xFFFC : Word) = 0xFFFFFFFC from rfl]
  bv_omega

/-- A loop of which so many passes are done.  The counter has gone down once
with each, and the program counter is back at the body, or behind the loop when
that was the last. -/
structure Looping (start : Machine) (counter : Register) (done : Nat)
    (machine : Machine) : Prop where
  pc : machine.pc =
    if done = start.registers.passes counter then start.pc.skip 3
    else start.pc
  status : machine.sr = start.sr
  counted : machine.registers.get counter =
    Width.word.merge (start.registers.get counter)
      (start.registers.get counter - BitVec.ofNat 32 done)

section Passes

variable {start machine : Machine} {condition : Condition} {body : Opcode}
  {counter : BitVec 3} {done : Nat}

theorem looping_start (machine : Machine) (counter : Register) :
    machine.Looping counter 0 machine where
  pc := (if_neg (Nat.zero_ne_add_one _)).symm
  status := rfl
  counted := by
    rw [show BitVec.ofNat 32 0 = 0#32 from rfl, BitVec.sub_zero,
      Width.merge_self]

theorem Looping.pc_of_lt {name : Register}
    (hlooping : start.Looping name done machine)
    (hdone : done < start.registers.passes name) :
    machine.pc = start.pc := by
  rw [hlooping.pc, if_neg hdone.ne]

/-- The counter at the end of a loop. -/
theorem Looping.counter_of_end {name : Register}
    (hlooping : start.Looping name (start.registers.passes name) machine) :
    machine.registers.get name =
      (start.registers.get name).extractLsb' 16 16 ++ 0xFFFF#16 := by
  rw [hlooping.counted, RegisterFile.passes, RegisterFile.read,
    Width.merge_congr _ _ (Width.truncate_sub_passes _), Width.merge_word]
  rfl

/-- A body that keeps the status, the counter and the code of the loop is
followed by the branch, which ends the pass. -/
theorem Looping.next {instruction : Instruction}
    (hlooping : start.Looping (.data (counter.setWidth 8)) done machine)
    (hdone : done < start.registers.passes (.data (counter.setWidth 8)))
    (hends : condition.holds start.sr = false)
    (hbody : (step machine).result = .ok instruction)
    (hpc : (step machine).machine.pc = start.pc.skip 1)
    (hstatus : (step machine).machine.sr = machine.sr)
    (hcounter : (step machine).machine.registers.get
      (.data (counter.setWidth 8)) =
        machine.registers.get (.data (counter.setWidth 8)))
    (hholds : (step machine).machine.bus.HoldsLoop start.pc body condition
      counter) :
    machine.performed 2 =
        [instruction, .dbcc condition (.data (counter.setWidth 8)) 0xFFFC] ∧
      start.Looping (.data (counter.setWidth 8)) (done + 1)
        (machine.afterSteps 2) ∧
      (machine.afterSteps 2).bus = (step machine).machine.bus ∧
      ∀ other, ¬ (Register.data (counter.setWidth 8)).Same other →
        (machine.afterSteps 2).registers.get other =
          (step machine).machine.registers.get other := by
  generalize hbetween : (step machine).machine = between at *
  have hbranch : between.bus.wordAt between.pc =
      .ok (Opcode.dbcc condition counter).word := by
    rw [hpc]
    exact hholds.branch
  have hdistance : between.bus.wordAt (between.pc.skip 1) = .ok 0xFFFC := by
    rw [hpc, Address.skip_add]
    exact hholds.distance
  have hfalse : condition.holds between.sr = false := by
    rw [hstatus, hlooping.status, hends]
  obtain ⟨hresult, hmachine⟩ := step_dbcc hbranch hdistance hfalse
  have hafter : machine.afterSteps 2 = (step between).machine := by
    rw [← hbetween]
    rfl
  generalize Register.data (counter.setWidth 8) = name at *
  have hread : between.registers.read name .word =
      Width.word.truncate
        (start.registers.get name - BitVec.ofNat 32 done) := by
    rw [RegisterFile.read, hcounter, hlooping.counted, Width.truncate_merge]
  refine ⟨?_, ⟨?_, ?_, ?_⟩, ?_, fun other hother => ?_⟩
  · simp only [performed, hbody, hbetween, hresult]
  -- The branch leaves the loop exactly when this pass is the last.
  · have hlast : between.registers.read name .word = 0 ↔
        done + 1 = start.registers.passes name := by
      rw [hread, Width.truncate_sub_eq_zero_iff _ (Nat.le_of_lt_succ hdone)]
      exact Nat.succ_inj.symm
    rw [hafter, hmachine]
    change (if between.registers.read name .word = 0 then between.pc.skip 2
      else displace (between.pc.skip 1) 0xFFFC) = _
    rw [hpc, Address.skip_add, Address.skip_add, displace_back]
    simp only [hlast]
  · rw [hafter, hmachine]
    exact hstatus.trans hlooping.status
  · rw [hafter, hmachine]
    change (between.registers.write name .word _).get name = _
    rw [RegisterFile.get_write, if_pos (Register.same_refl name), hread,
      hcounter, hlooping.counted, Width.merge_merge (Nat.le_refl _)]
    exact Width.merge_congr _ _ (Width.truncate_pred_sub _ _)
  · rw [hafter, hmachine]
    rfl
  · rw [hafter, hmachine]
    change (between.registers.write name .word _).get other = _
    rw [RegisterFile.get_write, if_neg hother]

end Passes

/-- The number that three bits of an opcode stand for in a subtraction. -/
theorem quick_ofNat {amount : Nat} (hpositive : 1 ≤ amount)
    (hquick : amount ≤ 8) :
    (if BitVec.ofNat 3 amount = 0 then 8
      else (BitVec.ofNat 3 amount).setWidth 32 : Long) =
      BitVec.ofNat 32 amount := by
  have hall : ∀ amount ≤ 8, 1 ≤ amount →
      (if BitVec.ofNat 3 amount = 0 then 8
        else (BitVec.ofNat 3 amount).setWidth 32 : Long) =
        BitVec.ofNat 32 amount := by
    decide
  exact hall amount hquick hpositive

theorem same_data_iff (number other : BitVec 3) :
    (Register.data (number.setWidth 8)).Same
      (.data (other.setWidth 8)) ↔ number = other := by
  revert number other
  decide

/-- A subtraction from a whole data register. -/
theorem step_subq {machine : Machine} {data number : BitVec 3}
    (hword : machine.bus.wordAt machine.pc =
      .ok (Opcode.subq data .long ⟨0, number⟩).word) :
    let name := Register.data (number.setWidth 8)
    let amount : Long := if data = 0 then 8 else data.setWidth 32
    (step machine).result =
        .ok (.subq (.immediate amount) (.register name) .long) ∧
      (step machine).machine =
        { machine.fetched (Opcode.subq data .long ⟨0, number⟩).word with
          registers := machine.registers.write name .long
            (machine.registers.read name .long - amount)
          pc := machine.pc.skip 1 }.recorded machine.pc := by
  intro name amount
  have hcompletes : Completes machine.bus (machine.pc.skip 1)
      (.subq data .long ⟨0, number⟩)
      (.subq (.immediate amount) (.register name) .long) 0 :=
    .subq data (.inl rfl) (.dataRegister number)
  exact step_of_completes hword hcompletes rfl

/-- A loop that subtracts, after so many passes. -/
structure Subtracting (start : Machine) (target counter : Register)
    (amount done : Nat) (machine : Machine) : Prop
    extends Looping start counter done machine where
  bus : machine.bus = start.bus
  subtracted : machine.registers.get target =
    start.registers.get target - BitVec.ofNat 32 (amount * done)
  others : ∀ other, ¬ target.Same other → ¬ counter.Same other →
    machine.registers.get other = start.registers.get other

section Subtraction

variable {start machine : Machine} {condition : Condition}
  {amount done : Nat} {m n : BitVec 3}

theorem subtracting_start (machine : Machine) (target counter : Register)
    (amount : Nat) : machine.Subtracting target counter amount 0 machine where
  toLooping := looping_start machine counter
  bus := rfl
  subtracted := by
    rw [Nat.mul_zero, show BitVec.ofNat 32 0 = 0#32 from rfl, BitVec.sub_zero]
  others _ _ _ := rfl

/-- What the subtraction at the beginning of a pass does. -/
theorem step_subtraction (hpositive : 1 ≤ amount) (hquick : amount ≤ 8)
    (hword : machine.bus.wordAt machine.pc =
      .ok (Opcode.subq (BitVec.ofNat 3 amount) .long ⟨0, m⟩).word) :
    let target := Register.data (m.setWidth 8)
    let between := (step machine).machine
    (step machine).result =
        .ok (.subq (.immediate (BitVec.ofNat 32 amount)) (.register target)
          .long) ∧
      between.pc = machine.pc.skip 1 ∧ between.sr = machine.sr ∧
      between.bus = machine.bus ∧
      ∀ other, between.registers.get other =
        if target.Same other then
          machine.registers.get other - BitVec.ofNat 32 amount
        else machine.registers.get other := by
  intro target between
  obtain ⟨hresult, hmachine⟩ := step_subq hword
  rw [quick_ofNat hpositive hquick] at hresult hmachine
  rw [show between = _ from hmachine]
  refine ⟨hresult, rfl, rfl, rfl, fun other => ?_⟩
  change (machine.registers.write target .long _).get other = _
  rw [RegisterFile.get_write, Width.merge_long]
  by_cases hsame : target.Same other
  · have hwhole : machine.registers.read target .long =
        machine.registers.get target := BitVec.and_allOnes
    rw [if_pos hsame, if_pos hsame, hwhole,
      machine.registers.get_of_same hsame]
  · rw [if_neg hsame, if_neg hsame]

/-- One pass: the subtraction leaves the counter alone and the branch the
target, since the two registers are not the same. -/
theorem Subtracting.pass (hpositive : 1 ≤ amount) (hquick : amount ≤ 8)
    (hdistinct : m ≠ n)
    (hholds : start.bus.HoldsLoop start.pc
      (.subq (BitVec.ofNat 3 amount) .long ⟨0, m⟩) condition n)
    (hends : condition.holds start.sr = false)
    (hsubtracting : start.Subtracting (.data (m.setWidth 8))
      (.data (n.setWidth 8)) amount done machine)
    (hdone : done < start.registers.passes (.data (n.setWidth 8))) :
    machine.performed 2 =
        [.subq (.immediate (BitVec.ofNat 32 amount))
            (.register (.data (m.setWidth 8))) .long,
          .dbcc condition (.data (n.setWidth 8)) 0xFFFC] ∧
      start.Subtracting (.data (m.setWidth 8)) (.data (n.setWidth 8)) amount
        (done + 1) (machine.afterSteps 2) := by
  have hpc := hsubtracting.pc_of_lt hdone
  have hword : machine.bus.wordAt machine.pc =
      .ok (Opcode.subq (BitVec.ofNat 3 amount) .long ⟨0, m⟩).word := by
    rw [hsubtracting.bus, hpc]
    exact hholds.first
  obtain ⟨hresult, hskip, hstatus, hbus, hregisters⟩ :=
    step_subtraction hpositive hquick hword
  have hapart := mt (same_data_iff m n).mp hdistinct
  have hapart' := mt (same_data_iff n m).mp hdistinct.symm
  have hcounter := (hregisters (.data (n.setWidth 8))).trans (if_neg hapart)
  obtain ⟨hperformed, hlooping, hsamebus, hkept⟩ :=
    hsubtracting.next hdone hends hresult (hskip.trans (by rw [hpc])) hstatus
      hcounter (by rw [hbus, hsubtracting.bus]; exact hholds)
  refine ⟨hperformed, hlooping, ?_, ?_, fun other htarget hother => ?_⟩
  · rw [hsamebus, hbus, hsubtracting.bus]
  · rw [hkept _ hapart', hregisters, if_pos (Register.same_refl _),
      hsubtracting.subtracted, Nat.mul_succ, BitVec.ofNat_add,
      sub_add_eq_sub_sub]
  · rw [hkept _ hother, hregisters, if_neg htarget,
      hsubtracting.others _ htarget hother]

/-- A counting branch is refused while its condition holds. -/
theorem step_dbcc_of_holds {counter : BitVec 3} {displacement : Word}
    (hword : machine.bus.wordAt machine.pc =
      .ok (Opcode.dbcc condition counter).word)
    (hdisplacement : machine.bus.wordAt (machine.pc.skip 1) =
      .ok displacement)
    (hholds : condition.holds machine.sr = true) :
    (step machine).result =
      .error
        (.unsupportedInstruction (Opcode.dbcc condition counter).word) := by
  refine step_of_completes_fault hword
    (.dbcc condition counter hdisplacement) ?_
  exact (Instruction.result_executeDbcc _ _ _ _).trans (if_pos hholds)

/-- A loop that subtracts a small number from a data register and counts
another one down.  It runs once more than the low word of the counter says, or
stops at its branch in the first pass when the condition of that holds. -/
theorem loop_subtracts (hpositive : 1 ≤ amount) (hquick : amount ≤ 8)
    (hdistinct : m ≠ n)
    (hholds : machine.bus.HoldsLoop machine.pc
      (.subq (BitVec.ofNat 3 amount) .long ⟨0, m⟩) condition n) :
    let target := Register.data (m.setWidth 8)
    let counter := Register.data (n.setWidth 8)
    let subtraction := Instruction.subq (.immediate (BitVec.ofNat 32 amount))
      (.register target) .long
    let passes := (machine.registers.read counter .word).toNat + 1
    (condition.holds machine.sr = false →
      let after := machine.afterSteps (2 * passes)
      machine.performed (2 * passes) =
          (List.replicate passes
            [subtraction, .dbcc condition counter 0xFFFC]).flatten ∧
        after.pc = machine.pc + 6 ∧
        after.registers.get target =
          machine.registers.get target - BitVec.ofNat 32 (amount * passes) ∧
        after.registers.get counter =
          (machine.registers.get counter).extractLsb' 16 16 ++ 0xFFFF#16 ∧
        (∀ other, ¬ target.Same other → ¬ counter.Same other →
          after.registers.get other = machine.registers.get other) ∧
        after.sr = machine.sr ∧ after.bus = machine.bus) ∧
    (condition.holds machine.sr = true →
      (step machine).result = .ok subtraction ∧
        (step (step machine).machine).result =
          .error (.unsupportedInstruction (Opcode.dbcc condition n).word) ∧
        (machine.afterSteps 2).registers.get counter =
          machine.registers.get counter) := by
  intro target counter subtraction passes
  constructor
  · intro hends after
    obtain ⟨hperformed, hend⟩ := run_passes
      [subtraction, .dbcc condition counter 0xFFFC]
      (fun done machine hdone hsubtracting =>
        hsubtracting.pass hpositive hquick hdistinct hholds hends hdone)
      (subtracting_start machine target counter amount) (Nat.le_refl passes)
    exact ⟨hperformed, hend.pc.trans (if_pos rfl), hend.subtracted,
      hend.counter_of_end, hend.others, hend.status, hend.bus⟩
  · intro htrue
    obtain ⟨hresult, hskip, hstatus, hbus, hregisters⟩ :=
      step_subtraction hpositive hquick hholds.first
    have hfault : (step (step machine).machine).result =
        .error (.unsupportedInstruction (Opcode.dbcc condition n).word) := by
      apply step_dbcc_of_holds
      · rw [hbus, hskip]
        exact hholds.branch
      · rw [hbus, hskip, Address.skip_add]
        exact hholds.distance
      · rw [hstatus, htrue]
    refine ⟨hresult, hfault, ?_⟩
    obtain ⟨opcode, hfetched⟩ := exists_fetched_of_error hfault
    change (step (step machine).machine).machine.registers.get counter = _
    rw [hfetched]
    exact (hregisters counter).trans
      (if_neg (mt (same_data_iff m n).mp hdistinct))

end Subtraction

end Machine

namespace CountedLoopWitness

/-- Eight is subtracted from the second data register until the first has been
counted down or the zero flag is set. -/
def code : Bus :=
  Bus.powerOn ⟨#[0x51, 0x81, 0x57, 0xC8, 0xFF, 0xFC], by decide⟩ 0

theorem holdsLoop_code :
    code.HoldsLoop 0 (.subq (BitVec.ofNat 3 8) .long ⟨0, 1⟩) .equal 0 :=
  ⟨rfl, rfl, rfl⟩

/-- The counter says two below a word that does not count. -/
def ready (status : Status) : Machine :=
  { Machine.blank code with
    registers := RegisterFile.cleared.set (.data 0) 0xABCD0002
    sr := status }

theorem loop_subtracts_thrice :
    (((ready 0).afterSteps 6).pc = 6 ∧
      ((ready 0).afterSteps 6).registers.get (.data 1) = 0xFFFFFFE8 ∧
      ((ready 0).afterSteps 6).registers.get (.data 0) = 0xABCDFFFF) ∧
    (Machine.step (Machine.step (ready 4)).machine).result =
      .error (.unsupportedInstruction 0x57C8) := by
  have hholds : ∀ status, (ready status).bus.HoldsLoop (ready status).pc
      (.subq (BitVec.ofNat 3 8) .long ⟨0, 1⟩) .equal 0 :=
    fun _ => holdsLoop_code
  have hruns := (Machine.loop_subtracts (by decide) (by decide) (by decide)
    (hholds 0)).1 rfl
  have hrefused := (Machine.loop_subtracts (by decide) (by decide) (by decide)
    (hholds 4)).2 rfl
  exact ⟨⟨hruns.2.1, hruns.2.2.1, hruns.2.2.2.1⟩, hrefused.2.1⟩

end CountedLoopWitness

end MegaDrive
