/-
Where a step leads.  The distance of a branch or a loop counts from the word
behind the opcode in every form of the code, and its text shows the distance
from the opcode itself.  Main statement: what a step that has succeeded makes
of the program counter, for every instruction.
-/
import MegaDrive.Numeral.Reader
import MegaDrive.Proofs.DecodeFormat
import MegaDrive.Proofs.Effects
import MegaDrive.Proofs.RegisterAccess

namespace MegaDrive

namespace Numeral

/-- Read a number that begins with its sign. -/
def readSigned? (bound : Nat) : List Char → Option Int
  | '+' :: digit :: rest =>
      (readDigits 10 bound 0 (digit :: rest)).toOption.map fun n => (n : Int)
  | '-' :: digit :: rest =>
      (readDigits 10 bound 0 (digit :: rest)).toOption.map fun n => -(n : Int)
  | _ => none

/-- Reading is a left inverse of writing with a sign. -/
theorem readSigned?_explicitlySigned {bound : Nat} {i : Int}
    (hi : i.natAbs < bound) :
    readSigned? bound (explicitlySigned i).toList = some i := by
  have hread := readDigits_toDigits (by decide : 1 < 10) (by decide) hi
  have hdigits := toList_decimal i.natAbs
  obtain ⟨digit, rest, hsome⟩ := List.exists_cons_of_ne_nil
    (List.ne_nil_of_length_pos (@Nat.length_toDigits_pos 10 i.natAbs))
  rw [hsome] at hread hdigits
  have hminus : "-".toList = ['-'] := rfl
  have hplus : "+".toList = ['+'] := rfl
  by_cases hsign : i < 0
  · rw [explicitlySigned, if_pos hsign, String.toList_append, hdigits, hminus,
      List.singleton_append, readSigned?, hread]
    exact congrArg some (by omega : -(i.natAbs : Int) = i)
  · rw [explicitlySigned, if_neg hsign, String.toList_append, hdigits, hplus,
      List.singleton_append, readSigned?, hread]
    exact congrArg some (by omega : (i.natAbs : Int) = i)

theorem star_not_mem_decimal (n : Nat) : '*' ∉ (decimal n).toList := by
  intro hmem
  rw [toList_decimal] at hmem
  have hdigit := Nat.isDigit_of_mem_toDigits (by decide) (by decide) hmem
  cases hdigit

end Numeral

/-- The text behind the first star. -/
def afterStar (text : List Char) : List Char :=
  (text.dropWhile (· ≠ '*')).drop 1

theorem afterStar_append {front : List Char} (hfront : '*' ∉ front)
    (rest : List Char) : afterStar (front ++ '*' :: rest) = rest := by
  have hpass : ∀ c ∈ front, decide (c ≠ '*') = true := by
    intro c hc
    exact decide_eq_true fun hstar => hfront (hstar ▸ hc)
  rw [afterStar, List.dropWhile_append_of_pos hpass]
  rfl

namespace Instruction

/-- The instruction leads away from what follows it, with these flags and
registers. -/
def Redirects (status : Status) (registers : RegisterFile) :
    Instruction → Prop
  | .bsr _ _ => True
  | .bne _ _ => status.zero = false
  | .beq _ _ => status.zero = true
  | .dbcc _ counter _ => registers.read counter .word ≠ 0
  | .nop | .moveToSr _ | .tst .. | .lea .. | .move .. | .andi .. | .rts
  | .subq .. | .stop _ => False

/-- The distance that a branch or a loop carries. -/
def displacement? : Instruction → Option Word
  | .bsr (.branch displacement) _ => some displacement
  | .bne (.branch displacement) _ => some displacement
  | .beq (.branch displacement) _ => some displacement
  | .dbcc _ _ displacement => some displacement
  | _ => none

/-- The number in the text of an instruction behind its star. -/
def shownDistance? (instruction : Instruction) : Option Int :=
  Numeral.readSigned? 0x10000 (afterStar instruction.text.toList)

theorem star_not_mem_counter (counter : Register) :
    '*' ∉ counter.text.toList := by
  cases counter with
  | data number =>
      simp [Register.text, Numeral.star_not_mem_decimal]
  | address number =>
      rw [Register.text]
      split
      · decide
      · simp [Numeral.star_not_mem_decimal]

/-- A distance stands at the end of the text, behind the only star. -/
theorem exists_text_of_displacement? {instruction : Instruction}
    {displacement : Word}
    (hdisplacement : instruction.displacement? = some displacement) :
    ∃ front, '*' ∉ front ∧
      instruction.text.toList =
        front ++ (Operand.branchText displacement).toList := by
  have hsuffix : ∀ width, '*' ∉ (branchSuffix width).toList := by
    intro width
    cases width <;> decide
  have hmnemonic : ∀ condition : Condition,
      '*' ∉ condition.mnemonic.toList := by
    intro condition
    cases condition <;> decide
  unfold displacement? at hdisplacement
  split at hdisplacement <;> cases hdisplacement
  all_goals simp only [text, Operand.text, String.toList_append]
  all_goals refine ⟨_, ?_, rfl⟩
  · simp [hsuffix]
  · simp [hsuffix]
  · simp [hsuffix]
  · simp [hmnemonic, star_not_mem_counter]

/-- The text counts from the opcode, two bytes before the word from which the
distance counts. -/
theorem shownDistance?_of_displacement? {instruction : Instruction}
    {displacement : Word}
    (hdisplacement : instruction.displacement? = some displacement) :
    instruction.shownDistance? = some (displacement.toInt + 2) := by
  have hlow := BitVec.le_toInt displacement
  have hhigh := BitVec.toInt_lt (x := displacement)
  obtain ⟨front, hfront, htext⟩ := exists_text_of_displacement? hdisplacement
  have hstar : (Operand.branchText displacement).toList =
      '*' :: (Numeral.explicitlySigned (displacement.toInt + 2)).toList := by
    rw [Operand.branchText, String.toList_append]
    rfl
  rw [shownDistance?, htext, hstar, afterStar_append hfront]
  exact Numeral.readSigned?_explicitlySigned (by omega)

end Instruction

/-- The words behind the opcode of an instruction whose operand is relative to
the code. -/
def Instruction.relativeWords? : Instruction → Option Nat
  | .bne _ width | .beq _ width | .bsr _ width =>
      some (if width = .byte then 0 else 1)
  | .dbcc .. => some 1
  | .lea (.pcDisplaced _) _ => some 1
  | _ => none

theorem Completes.words_of_relative {bus : Bus} {place : Address}
    {opcode : Opcode} {instruction : Instruction} {words relative : Nat}
    (hcompletes : Completes bus place opcode instruction words)
    (hrelative : instruction.relativeWords? = some relative) :
    words = relative := by
  cases hcompletes with
  | shortBranch kind hshort => cases kind <;> cases hrelative <;> rfl
  | longBranch kind hword => cases kind <;> cases hrelative <;> rfl
  | dbcc condition number hword =>
      cases hrelative
      rfl
  | lea number hlegal hsource =>
      cases hsource <;> cases hrelative
      rfl
  | nop | rts | stop | moveToSr | tst | move | andi | subq => cases hrelative

namespace Bus

variable {bus : Bus} {pc : Address} {length : Long}
  {instruction : Instruction}

theorem length_of_relative {words : Nat}
    (hdecode : (bus.decode pc).result = .ok ⟨instruction, length⟩)
    (hrelative : instruction.relativeWords? = some words) :
    length = BitVec.ofNat 32 (2 * (1 + words)) := by
  obtain ⟨hword, hmatches, hcompletes⟩ := (decode_eq_ok_iff _ _ _).mp hdecode
  rw [hcompletes.words_of_relative hrelative]

/-- Whichever form the code has, a displacement counts from the word behind
the opcode. -/
theorem base_of_branch {width : Width}
    (hdecode : (bus.decode pc).result = .ok ⟨instruction, length⟩)
    (hrelative : instruction.relativeWords? =
      some (if width = .byte then 0 else 1)) :
    (if width = .byte then pc + length else pc + length - 2) = pc + 2 := by
  rw [length_of_relative hdecode hrelative]
  split <;> bv_omega

theorem base_of_word
    (hdecode : (bus.decode pc).result = .ok ⟨instruction, length⟩)
    (hrelative : instruction.relativeWords? = some 1) :
    pc + length - 2 = pc + 2 := by
  rw [length_of_relative hdecode hrelative]
  bv_omega

end Bus

namespace Instruction

/-- What a step from one machine to another has made of the program counter,
where the instruction takes `length` bytes of code. -/
structure Leads (instruction : Instruction) (length : Long)
    (before after : Machine) : Prop where
  /-- The text shows how far the counter has gone. -/
  redirected : instruction.Redirects before.sr before.registers →
    ∃ displacement distance,
      instruction.displacement? = some displacement ∧
      after.pc = before.pc + 2 + BitVec.ofInt 32 displacement.toInt ∧
      instruction.shownDistance? = some distance ∧
      after.pc - before.pc = BitVec.ofInt 32 distance
  returned : instruction = .rts →
    (before.bus.read before.registers.stackPointer .long).result =
      .ok after.pc
  passed : ¬ instruction.Redirects before.sr before.registers →
    instruction ≠ .rts → after.pc = before.pc + length
  pushed : ∀ target width, instruction = .bsr target width →
    after.registers.stackPointer = before.registers.stackPointer - 4 ∧
      (before.bus.write after.registers.stackPointer .long
        (before.pc + length)).result = .ok after.bus
  loaded : ∀ displacement destination,
    instruction = .lea (.pcDisplaced displacement) destination →
      after.registers.get destination =
        before.pc + 2 + BitVec.ofInt 32 displacement.toInt

end Instruction

namespace Machine

open Instruction

variable {machine : Machine} {word : Word} {length : Long}
  {instruction : Instruction}

/-- A low word counts down past zero from zero alone. -/
theorem truncate_pred_eq_iff (value : Long) :
    Width.word.truncate (Width.word.truncate value - 1) = 0xFFFF ↔
      Width.word.truncate value = 0 := by
  have hlow : ∀ long : Long,
      (Width.word.truncate long).toNat = long.toNat % 65536 :=
    Width.word.toNat_truncate
  rw [← BitVec.toNat_inj, ← BitVec.toNat_inj, hlow, BitVec.toNat_sub, hlow]
  change (4294967296 - 1 + value.toNat % 65536) % 4294967296 % 65536 = 65535 ↔
    value.toNat % 65536 = 0
  omega

/-- The distance from the opcode is two bytes more than from the word behind
it. -/
theorem displace_sub (pc : Address) (displacement : Word) :
    displace (pc + 2) displacement - pc =
      BitVec.ofInt 32 (displacement.toInt + 2) := by
  rw [BitVec.ofInt_add, displace, BitVec.signExtend,
    show BitVec.ofInt 32 2 = 2 from rfl]
  generalize BitVec.ofInt 32 displacement.toInt = distance
  bv_omega

/-- A call pushes the address behind it. -/
theorem pushed_of_bsr {target : Operand} {width : Width}
    (hexecute : (executeBsr target width
      (machine.begun word ⟨instruction, length⟩)).result = .ok ()) :
    let after := (executeBsr target width
      (machine.begun word ⟨instruction, length⟩)).machine
    after.registers.stackPointer = machine.registers.stackPointer - 4 ∧
      (machine.bus.write after.registers.stackPointer .long
        (machine.pc + length)).result = .ok after.bus := by
  intro after
  obtain ⟨displacement, bus, -, hwrite, hafter⟩ := of_executeBsr_ok hexecute
  have hpointer : after.registers.stackPointer =
      machine.registers.stackPointer - 4 := by
    rw [show after = _ from hafter]
    exact RegisterFile.get_set_self machine.registers .stackPointer _
  refine ⟨hpointer, ?_⟩
  rw [hpointer, show after = _ from hafter]
  exact hwrite

section Counters

variable (hdecode : (machine.bus.decode machine.pc).result =
  .ok ⟨instruction, length⟩)

include hdecode

theorem pc_of_branch {condition : Condition} {target : Operand}
    {width : Width}
    (hrelative : instruction.relativeWords? =
      some (if width = .byte then 0 else 1))
    (hexecute : (executeBranch condition target width
      (machine.begun word ⟨instruction, length⟩)).result = .ok ()) :
    ∃ displacement, target = .branch displacement ∧
      (executeBranch condition target width
        (machine.begun word ⟨instruction, length⟩)).machine.pc =
        if condition.holds machine.sr then
          displace (machine.pc + 2) displacement
        else machine.pc + length := by
  obtain ⟨displacement, htarget, hmachine⟩ := of_executeBranch_ok hexecute
  refine ⟨displacement, htarget, ?_⟩
  rw [← Bus.base_of_branch hdecode hrelative, hmachine]
  rfl

theorem pc_of_bsr {target : Operand} {width : Width}
    (hrelative : instruction.relativeWords? =
      some (if width = .byte then 0 else 1))
    (hexecute : (executeBsr target width
      (machine.begun word ⟨instruction, length⟩)).result = .ok ()) :
    ∃ displacement, target = .branch displacement ∧
      (executeBsr target width
        (machine.begun word ⟨instruction, length⟩)).machine.pc =
        displace (machine.pc + 2) displacement := by
  obtain ⟨displacement, bus, htarget, -, hmachine⟩ :=
    of_executeBsr_ok hexecute
  refine ⟨displacement, htarget, ?_⟩
  rw [← Bus.base_of_branch hdecode hrelative, hmachine]
  rfl

theorem pc_of_dbcc {condition : Condition} {counter : Register}
    {displacement : Word} (hrelative : instruction.relativeWords? = some 1)
    (hexecute : (executeDbcc condition counter displacement
      (machine.begun word ⟨instruction, length⟩)).result = .ok ()) :
    (executeDbcc condition counter displacement
        (machine.begun word ⟨instruction, length⟩)).machine.pc =
      if machine.registers.read counter .word = 0 then machine.pc + length
      else displace (machine.pc + 2) displacement := by
  obtain ⟨count, -, hcount, hmachine⟩ := of_executeDbcc_ok hexecute
  have hpassed : Width.word.truncate count = 0xFFFF ↔
      machine.registers.read counter .word = 0 := by
    rw [hcount]
    exact truncate_pred_eq_iff _
  rw [← Bus.base_of_word hdecode hrelative, hmachine]
  simp only [hpassed]
  rfl

/-- An instruction that redirects has a distance, and goes that far from the
word behind its opcode. -/
theorem pc_of_redirects
    (hexecute : (instruction.execute
      (machine.begun word ⟨instruction, length⟩)).result = .ok ())
    (hredirects : instruction.Redirects machine.sr machine.registers) :
    ∃ displacement, instruction.displacement? = some displacement ∧
      (instruction.execute
        (machine.begun word ⟨instruction, length⟩)).machine.pc =
        displace (machine.pc + 2) displacement := by
  cases instruction with
  | bne target width =>
      have hholds : Condition.notEqual.holds machine.sr = true :=
        congrArg not hredirects
      obtain ⟨displacement, rfl, hpc⟩ := pc_of_branch hdecode rfl hexecute
      exact ⟨displacement, rfl, hpc.trans (if_pos hholds)⟩
  | beq target width =>
      have hholds : Condition.equal.holds machine.sr = true := hredirects
      obtain ⟨displacement, rfl, hpc⟩ := pc_of_branch hdecode rfl hexecute
      exact ⟨displacement, rfl, hpc.trans (if_pos hholds)⟩
  | bsr target width =>
      obtain ⟨displacement, rfl, hpc⟩ := pc_of_bsr hdecode rfl hexecute
      exact ⟨displacement, rfl, hpc⟩
  | dbcc condition counter displacement =>
      have hpc := pc_of_dbcc hdecode rfl hexecute
      exact ⟨displacement, rfl, hpc.trans (if_neg hredirects)⟩
  | nop | moveToSr | tst | lea | move | andi | rts | subq | stop =>
      exact hredirects.elim

/-- All instructions but the return that do not redirect go on with the code
behind them. -/
theorem pc_of_passing
    (hexecute : (instruction.execute
      (machine.begun word ⟨instruction, length⟩)).result = .ok ())
    (hpasses : ¬ instruction.Redirects machine.sr machine.registers)
    (hreturns : instruction ≠ .rts) :
    (instruction.execute
      (machine.begun word ⟨instruction, length⟩)).machine.pc =
      machine.pc + length := by
  cases instruction with
  | bne target width =>
      have hholds : ¬ Condition.notEqual.holds machine.sr = true := by
        intro hholds
        exact hpasses ((Bool.not_eq_true' _).mp hholds)
      obtain ⟨displacement, -, hpc⟩ := pc_of_branch hdecode rfl hexecute
      exact hpc.trans (if_neg hholds)
  | beq target width =>
      have hholds : ¬ Condition.equal.holds machine.sr = true := hpasses
      obtain ⟨displacement, -, hpc⟩ := pc_of_branch hdecode rfl hexecute
      exact hpc.trans (if_neg hholds)
  | bsr target width => exact absurd trivial hpasses
  | dbcc condition counter displacement =>
      have hzero : machine.registers.read counter .word = 0 :=
        Decidable.not_not.mp hpasses
      exact (pc_of_dbcc hdecode rfl hexecute).trans (if_pos hzero)
  | rts => exact absurd rfl hreturns
  | tst target width =>
      obtain ⟨value, -, hmachine⟩ := of_executeTst_ok hexecute
      exact congrArg Machine.pc hmachine
  | lea target destination =>
      obtain ⟨address, -, hmachine⟩ := of_executeLea_ok hexecute
      exact congrArg Machine.pc hmachine
  | move source destination width =>
      obtain ⟨value, -, hmoved⟩ := of_executeMove_ok hexecute
      rcases hmoved with ⟨address, bus, -, -, hmachine⟩ | ⟨name, -, hmachine⟩
      · exact congrArg Machine.pc hmachine
      · exact congrArg Machine.pc hmachine
  | andi source destination width =>
      obtain ⟨mask, name, result, -, -, -, -, hmachine⟩ :=
        of_executeAndi_ok hexecute
      exact congrArg Machine.pc hmachine
  | subq data destination width =>
      obtain ⟨amount, name, -, -, -, hmachine⟩ := of_executeSubq_ok hexecute
      exact congrArg Machine.pc hmachine
  | nop | moveToSr | stop => rfl

theorem loaded_of_lea {displacement : Word} {destination : Register}
    (hrelative : instruction.relativeWords? = some 1)
    (hexecute : (executeLea (.pcDisplaced displacement) destination
      (machine.begun word ⟨instruction, length⟩)).result = .ok ()) :
    (executeLea (.pcDisplaced displacement) destination
      (machine.begun word ⟨instruction, length⟩)).machine.registers.get
        destination = displace (machine.pc + 2) displacement := by
  have hsame : destination.Same destination := by cases destination <;> rfl
  obtain ⟨address, haddress, hafter⟩ := of_executeLea_ok hexecute
  cases haddress
  rw [hafter, ← Bus.base_of_word hdecode hrelative]
  change (RegisterFile.write _ destination .long _).get destination = _
  rw [RegisterFile.get_write, if_pos hsame, Width.merge_long]
  rfl

end Counters

/-- The step that has been decoded leads where its instruction says, and its
text says the same. -/
theorem step_leads (hstep : (step machine).result = .ok instruction) :
    ∃ length,
      (machine.bus.decode machine.pc).result = .ok ⟨instruction, length⟩ ∧
        instruction.Leads length machine (step machine).machine := by
  obtain ⟨word, ⟨found, length⟩, -, hdecode, rfl, hexecute, hmachine⟩ :=
    exists_of_step_ok hstep
  refine ⟨length, hdecode, ?_⟩
  rw [hmachine]
  constructor
  · intro hredirects
    obtain ⟨displacement, hdisplacement, hpc⟩ :=
      pc_of_redirects hdecode hexecute hredirects
    refine ⟨displacement, displacement.toInt + 2, hdisplacement, hpc,
      shownDistance?_of_displacement? hdisplacement, ?_⟩
    exact (congrArg (· - machine.pc) hpc).trans
      (displace_sub machine.pc displacement)
  · rintro rfl
    obtain ⟨destination, hread, hafter⟩ := of_executeRts_ok hexecute
    exact hread.trans (congrArg Except.ok (congrArg Machine.pc hafter).symm)
  · exact pc_of_passing hdecode hexecute
  · rintro target width rfl
    exact pushed_of_bsr hexecute
  · rintro displacement destination rfl
    exact loaded_of_lea hdecode rfl hexecute

end Machine

namespace ControlFlowWitness

open Machine

/-- A loop as far back as a word can say, at the lowest address of all. -/
def loop : Instruction := .dbcc .never (.data 0) 0x8000

def looping : Machine :=
  { blank (Bus.powerOn ⟨#[0x51, 0xC8, 0x80, 0x00], by decide⟩ 0) with
    registers := RegisterFile.cleared.set (.data 0) 1 }

/-- An address is loaded, and a subroutine called that does nothing. -/
def image : Array Byte :=
  #[0x00, 0xFF, 0x00, 0x10, 0x00, 0x00, 0x00, 0x08,
    0x41, 0xFA, 0x00, 0x0A, 0x61, 0x04, 0x4E, 0x72, 0x27, 0x00, 0x4E, 0x75]

def loading : Machine :=
  (blank (Bus.powerOn ⟨image, by decide⟩ 0)).restarted 0xFF0010 8

def calling : Machine := (step loading).machine

def returning : Machine := (step calling).machine

theorem step_leads_wrapping :
    ((step looping).result = .ok loop ∧
      (step looping).machine.pc = 0xFFFF8002 ∧
      loop.text = "dbf d0,*-32766" ∧
      (step looping).machine.pc - looping.pc = BitVec.ofInt 32 (-32766)) ∧
    ((step loading).result = .ok (.lea (.pcDisplaced 10) (.address 0)) ∧
      calling.registers.get (.address 0) = 0x14) ∧
    ((step calling).result = .ok (.bsr (.branch 4) .byte) ∧
      returning.pc = 0x12 ∧ returning.registers.stackPointer = 0xFF000C ∧
      returning.bus.read 0xFF000C .long = .quiet (.ok 0x0E)) ∧
    (step returning).result = .ok .rts ∧
      (step returning).machine.pc = 0x0E := by
  have hloop : (step looping).result = .ok loop := rfl
  have hlea : (step loading).result =
      .ok (.lea (.pcDisplaced 10) (.address 0)) := rfl
  have hbsr : (step calling).result = .ok (.bsr (.branch 4) .byte) := rfl
  have hrts : (step returning).result = .ok .rts := by decide +kernel
  obtain ⟨_, -, hlooped⟩ := step_leads hloop
  obtain ⟨_, -, hloaded⟩ := step_leads hlea
  obtain ⟨length, hdecode, hcalled⟩ := step_leads hbsr
  obtain ⟨_, -, hreturned⟩ := step_leads hrts
  have hagain : loop.Redirects looping.sr looping.registers := by
    change looping.registers.read (.data 0) .word ≠ 0
    decide
  obtain ⟨displacement, distance, hdisplacement, hpc, hshown, hdistance⟩ :=
    hlooped.redirected hagain
  have hnumber : loop.shownDistance? = some (-32766) := by decide
  cases hdisplacement
  cases hshown.symm.trans hnumber
  obtain ⟨displacement, _, hdisplacement, hcall, -, -⟩ :=
    hcalled.redirected trivial
  cases hdisplacement
  have hlength : (calling.bus.decode calling.pc).result =
      .ok ⟨.bsr (.branch 4) .byte, 2⟩ := rfl
  cases hdecode.symm.trans hlength
  obtain ⟨hpointer, hpushed⟩ := hcalled.pushed _ _ rfl
  -- What the call has pushed is what the return finds on the stack.
  have hstack : returning.bus.read 0xFF000C .long = .quiet (.ok 0x0E) :=
    Bus.read_of_write_long (by decide) (by decide) (by decide) hpushed
  have hback := hreturned.returned rfl
  rw [show returning.registers.stackPointer = 0xFF000C from hpointer,
    hstack] at hback
  exact ⟨⟨hloop, hpc, by decide, hdistance⟩,
    ⟨hlea, hloaded.loaded _ _ rfl⟩, ⟨hbsr, hcall, hpointer, hstack⟩, hrts,
    (Except.ok.inj hback).symm⟩

end ControlFlowWitness

end MegaDrive
