/-
The reports of a session read back from its log.  The summary tells how many
steps were taken, a trace begins with the place of its instruction, and behind
a fault stand the places of the latest ones.  Main statement: these three are
read from their lines as they were reported, and the summary and the places
from no other line.
-/
import Mathlib.Data.List.Basic
import MegaDrive.Command.Report
import MegaDrive.Proofs.NumeralText

namespace MegaDrive

open Numeral

/-- Read an address in hexadecimal. -/
def shownAddress? (text : List Char) : Option Address :=
  (readBelow? 16 0x100000000 text).map (BitVec.ofNat 32)

theorem shownAddress?_upperHex (columns : Nat) (address : Address) :
    shownAddress? (upperHex columns address.toNat).toList = some address := by
  rw [shownAddress?, readBelow?, readDigits_upperHex address.isLt]
  exact congrArg some (BitVec.ofNat_toNat 32 address)

theorem blank_not_mem_decimal (n : Nat) : ' ' ∉ (decimal n).toList := by
  rw [decimal, String.toList_ofList]
  exact not_mem_digits (by decide) (by decide) (by decide)

namespace Record

/-- The number of steps in the line that sums a session up. -/
def steps? (record : Record) : Option Nat :=
  match record.level with
  | .info => do
      let summary ← "pc=".toList.isPrefixOf? record.message.toList
      match summary.splitOn ' ' with
      | [_, _, steps] => do
          let digits ← "steps=".toList.isPrefixOf? steps
          readBelow? 10 UInt64.size digits
      | _ => none
  | _ => none

/-- The place at the front of a line that traces a step. -/
def traced? (record : Record) : Option Address :=
  match record.level with
  | .trace => shownAddress? (record.message.toList.takeWhile (· ≠ ' '))
  | _ => none

/-- The place in a line that tells what ran before a fault. -/
def ranBefore? (record : Record) : Option Address :=
  match record.level with
  | .error => do
      let digits ← "  after ".toList.isPrefixOf? record.message.toList
      shownAddress? digits
  | _ => none

end Record

namespace Report

def steps? : Report → Option Nat
  | .summary _ _ steps => some steps.toNat
  | _ => none

/-- The place of an instruction that ran before a fault. -/
def ranBefore? : Report → Option Address
  | .ranBefore pc => some pc
  | _ => none

theorem level_record (report : Report) : report.record.level = report.level :=
  rfl

theorem steps?_summary (pc : Address) (status : Status) (steps : StepCount) :
    (summary pc status steps).record.steps? = some steps.toNat := by
  let parts := [(upperHex 8 pc.toNat).toList,
    "sr=".toList ++ (upperHex 4 status.toNat).toList,
    "steps=".toList ++ (decimal steps.toNat).toList]
  have hline : "pc=".toList.isPrefixOf?
      (summary pc status steps).record.message.toList =
        some ([' '].intercalate parts) := by
    unfold record message
    simp [List.isPrefixOf?_eq_some_iff_append_eq, parts]
  -- No part has a blank in it, so that the line falls apart at its blanks.
  have hparts : ([' '].intercalate parts).splitOn ' ' = parts := by
    apply List.splitOn_intercalate ' '
    · simp [parts, blank_not_mem_upperHex, blank_not_mem_decimal]
    · simp [parts]
  have hsteps : "steps=".toList.isPrefixOf?
      ("steps=".toList ++ (decimal steps.toNat).toList) =
        some (decimal steps.toNat).toList := by
    rw [List.isPrefixOf?_eq_some_iff_append_eq]
  have hread : readBelow? 10 UInt64.size (decimal steps.toNat).toList =
      some steps.toNat := by
    rw [decimal, String.toList_ofList]
    exact readBelow?_digits (by decide) (by decide) steps.isLt 1
  simp only [Record.steps?, level_record, level]
  rw [hline, Option.bind_eq_bind, Option.bind_some, hparts]
  dsimp only [parts]
  rw [hsteps, Option.bind_some, hread]

theorem steps?_record (report : Report) :
    report.record.steps? = report.steps? := by
  cases report with
  | summary pc status steps => exact steps?_summary pc status steps
  | noted event => cases event <;> rfl
  | _ =>
      unfold Record.steps? record level message
      simp [steps?, List.isPrefixOf?]

theorem traced?_executed (pc : Address) (instruction : Instruction) :
    (executed pc instruction).record.traced? = some pc := by
  have hfront : (executed pc instruction).record.message.toList.takeWhile
      (· ≠ ' ') = (upperHex 6 pc.toNat).toList := by
    have hblank : ∀ c ∈ (upperHex 6 pc.toNat).toList,
        decide (c ≠ ' ') = true := by
      intro c hc
      refine decide_eq_true ?_
      rintro rfl
      exact blank_not_mem_upperHex 6 pc.toNat hc
    unfold record message
    simp only [String.toList_append, List.append_assoc]
    rw [List.takeWhile_append_of_pos hblank]
    simp
  simp only [Record.traced?, level_record, level]
  rw [hfront, shownAddress?_upperHex]

theorem ranBefore?_ranBefore (pc : Address) :
    (ranBefore pc).record.ranBefore? = some pc := by
  have hline : "  after ".toList.isPrefixOf?
      (ranBefore pc).record.message.toList =
        some (upperHex 6 pc.toNat).toList := by
    unfold record message
    simp
  simp only [Record.ranBefore?, level_record, level]
  rw [hline, Option.bind_eq_bind, Option.bind_some, shownAddress?_upperHex]

/-- Only lines that begin with a blank tell what ran before a fault. -/
theorem ranBefore?_of_head {record : Record}
    (hhead : record.message.toList.head? ≠ some ' ') :
    record.ranBefore? = none := by
  have hline : "  after ".toList.isPrefixOf? record.message.toList = none := by
    cases htext : record.message.toList with
    | nil => rfl
    | cons c rest =>
        have hc : c ≠ ' ' := by simpa [htext] using hhead
        simp [List.isPrefixOf?, hc.symm]
  unfold Record.ranBefore?
  rw [hline]
  cases record.level <;> rfl

/-- No text of a fault begins with a blank. -/
theorem head_faulted (cause : Fault) (pc : Address) (opcode : Word) :
    (faulted cause pc opcode).record.message.toList.head? ≠ some ' ' := by
  unfold record message Fault.message
  cases cause <;> simp

theorem ranBefore?_record (report : Report) :
    report.record.ranBefore? = report.ranBefore? := by
  cases report with
  | ranBefore pc => exact ranBefore?_ranBefore pc
  | noted event =>
      simp only [Record.ranBefore?, level_record, level]
      cases event <;> rfl
  | faulted cause pc opcode =>
      exact ranBefore?_of_head (head_faulted cause pc opcode)
  | invalidController cause =>
      refine ranBefore?_of_head ?_
      unfold record message InvalidHex.message
      simp
  | noPath | unreadable | startFailed =>
      refine ranBefore?_of_head ?_
      unfold record message
      simp
  | _ => rfl

/-- What is read from each line as it was reported is so from all of them. -/
theorem filterMap_record {α : Type} {read : Record → Option α}
    {told : Report → Option α}
    (hread : ∀ report : Report, read report.record = told report)
    (reports : List Report) :
    (reports.map record).filterMap read = reports.filterMap told := by
  rw [List.filterMap_map]
  exact congrArg (List.filterMap · reports) (funext hread)

end Report

end MegaDrive
