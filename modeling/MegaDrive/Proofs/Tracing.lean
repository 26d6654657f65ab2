/-
What tracing adds to a session.  The records of a step are those of its events
and, in a traced session, one more; the addresses that a fault reports come
from the history of the machine.  Main statement: the records of a traced
session agree with each other and with those of the same session without a
trace.
-/
import MegaDrive.Command
import MegaDrive.Proofs.Restart
import MegaDrive.Proofs.RunComposition
import MegaDrive.Proofs.ReportText

namespace MegaDrive

namespace Machine

/-- The steps that a run has executed are the first steps of its machine. -/
theorem getElem_executed (limit : Nat) (machine : Machine) {i : Nat}
    (hi : i < (run limit machine).executed.length) :
    ∃ instruction, (step (machine.afterSteps i)).result = .ok instruction ∧
      (run limit machine).executed[i] =
        ⟨(machine.afterSteps i).pc, instruction,
          (step (machine.afterSteps i)).events⟩ := by
  induction limit, machine using run_induction generalizing i with
  | halted limit machine hstate =>
      rw [run_of_halted hstate] at hi
      cases hi
  | limited machine hstate =>
      rw [run_zero hstate] at hi
      cases hi
  | faulted limit machine cause hstate hstep =>
      rw [run_succ_of_error hstate hstep] at hi
      cases hi
  | stepped limit machine instruction hstate hstep ih =>
      simp only [run_succ_of_ok hstate hstep] at hi ⊢
      cases i with
      | zero => exact ⟨instruction, hstep, rfl⟩
      | succ i => exact ih (Nat.lt_of_succ_lt_succ hi)

/-- A run adds the place of each of its steps to the history, in order. -/
theorem history_run (limit : Nat) (machine : Machine) :
    (run limit machine).machine.history =
      ((run limit machine).executed.map Executed.pc).foldl History.push
        machine.history := by
  induction limit, machine using run_induction with
  | halted limit machine hstate =>
      rw [run_of_halted hstate]
      rfl
  | limited machine hstate =>
      rw [run_zero hstate]
      rfl
  | faulted limit machine cause hstate hstep =>
      obtain ⟨opcode, hmachine⟩ := exists_fetched_of_error hstep
      rw [run_succ_of_error hstate hstep, hmachine]
      rfl
  | stepped limit machine instruction hstate hstep ih =>
      obtain ⟨-, hhistory, -⟩ := machine_of_step_ok hstep
      rw [run_succ_of_ok hstate hstep]
      refine ih.trans ?_
      rw [hhistory]
      rfl

/-- The history is that of the start with the places of all steps put behind
it, as far as it is kept. -/
theorem recent_run (limit : Nat) (machine : Machine) :
    (run limit machine).machine.history.recent =
      History.latest (machine.history.recent ++
        (run limit machine).executed.map Executed.pc) := by
  rw [history_run, History.recent_foldl_push]

end Machine

/-- What names a level in the setting of a log. -/
def Level.setting : Level → String
  | .error => "error"
  | .warn => "warn"
  | .info => "info"
  | .debug => "debug"
  | .trace => "trace"

/-- The settings that are about all reports alike. -/
def plainSettings : List String :=
  ["off", "error", "warn", "info", "debug", "trace"]

/-- What is documented of a log.  Without a setting it shows what is assumed;
a level that the program asks for counts for all reports from then on. -/
structure Library.Documented (library : Library) : Prop where
  shows_assumed (level : Level) (report : Report) :
    library.shows none level.setting none report =
      decide (report.level.rank ≤ level.rank)
  shows_asked {setting : Option String}
    (hsetting : ∀ text ∈ setting, text ∈ plainSettings)
    (assumed level : Level) (report : Report) :
    library.shows setting assumed.setting (some level) report =
      decide (report.level.rank ≤ level.rank)

/-- The same is found on both lines, but a trace is asked for on one. -/
structure Found.Traces (traced plain : Found) : Prop where
  absent : plain.present "trace" = false
  present : traced.present "trace" = true
  value?_eq : ∀ name, traced.value? name = plain.value? name

/-- The arguments differ in the trace alone. -/
theorem Found.Traces.arguments {traced plain : Found} {arguments : Arguments}
    (htraced : traced.Traces plain)
    (hplain : Arguments.ofFound plain = .ok arguments) :
    arguments.trace = false ∧
      Arguments.ofFound traced = .ok { arguments with trace := true } := by
  simp only [Arguments.ofFound, htraced.value?_eq, htraced.absent,
    htraced.present] at hplain ⊢
  cases hpath : plain.value? "ROM" with
  | none =>
      rw [hpath] at hplain
      cases hplain
  | some path =>
      simp only [hpath] at hplain ⊢
      split at hplain
      · cases hplain
      · cases hplain
        exact ⟨rfl, rfl⟩

namespace Report

/-- No event of the console is as unimportant as a trace. -/
theorem level_noted_ne (event : Event) :
    (noted event).level ≠ .trace := by
  cases event <;> simp [level, Event.level]

/-- The levels that a log shows when it is told nothing. -/
def ordinary (report : Report) : Bool :=
  report.level ∈ [Level.error, .warn, .info]

theorem rank_le_info (report : Report) :
    decide (report.level.rank ≤ Level.info.rank) = report.ordinary := by
  unfold ordinary
  cases report.level <;> rfl

theorem rank_le_trace (report : Report) :
    report.level.rank ≤ Level.trace.rank := by
  cases report.level <;> decide

theorem filter_record (p : Level → Bool) (reports : List Report) :
    (reports.map record).filter (p ·.level) =
      (reports.filter (p ·.level)).map record := by
  rw [List.filter_map]
  rfl

end Report

namespace Library.Documented

variable {library : Library} (hlibrary : library.Documented)

include hlibrary

theorem shows_ordinary :
    library.shows none Command.standardSetting none = Report.ordinary :=
  funext fun report =>
    (hlibrary.shows_assumed .info report).trans report.rank_le_info

theorem shows_all {setting : Option String}
    (hsetting : ∀ text ∈ setting, text ∈ plainSettings) (report : Report) :
    library.shows setting Command.standardSetting (some .trace) report =
      true :=
  (hlibrary.shows_asked hsetting .info .trace report).trans
    (decide_eq_true report.rank_le_trace)

end Library.Documented

namespace Session

open Machine Report

/-- A step shows the same with a trace and without. -/
theorem ordinary_stepReports (trace : Bool) (step : Executed) :
    (stepReports trace step).filter ordinary =
      (step.events.map noted).filter ordinary := by
  cases trace with
  | false => rw [stepReports, if_neg Bool.false_ne_true, List.append_nil]
  | true =>
      rw [stepReports, if_pos rfl, List.filter_append]
      exact List.append_nil _

theorem ordinary_runReports (run : Run) :
    (runReports false run).filter ordinary =
      (runReports true run).filter ordinary := by
  simp only [runReports, List.filter_append, List.filter_flatMap,
    ordinary_stepReports]

/-- A run reports its events and its steps. -/
theorem of_mem_runReports {trace : Bool} {run : Run} {report : Report}
    (hreport : report ∈ runReports trace run) :
    (∃ event, report = .noted event) ∨
      ∃ pc instruction, report = .executed pc instruction := by
  rw [runReports, List.mem_append, List.mem_flatMap] at hreport
  rcases hreport with ⟨step, -, hstep⟩ | hlast
  · rcases List.mem_append.mp hstep with hevent | htrace
    · obtain ⟨event, -, rfl⟩ := List.mem_map.mp hevent
      exact .inl ⟨event, rfl⟩
    · split at htrace
      · exact .inr ⟨_, _, List.mem_singleton.mp htrace⟩
      · cases htrace
  · obtain ⟨event, -, rfl⟩ := List.mem_map.mp hlast
    exact .inl ⟨event, rfl⟩

/-- What only the end of a session reports is not reported by its run. -/
theorem filterMap_runReports {α : Type} {pick : Report → Option α}
    (hnoted : ∀ event, pick (.noted event) = none)
    (hexecuted : ∀ pc instruction, pick (.executed pc instruction) = none)
    (trace : Bool) (run : Run) :
    (runReports trace run).filterMap pick = [] := by
  rw [List.filterMap_eq_nil_iff]
  intro report hreport
  rcases of_mem_runReports hreport with ⟨event, rfl⟩ | ⟨pc, instruction, rfl⟩
  · exact hnoted event
  · exact hexecuted pc instruction

theorem traces_notes (events : List Event) :
    (events.map noted).filter (·.level = .trace) = [] := by
  rw [List.filter_eq_nil_iff]
  intro report hreport
  obtain ⟨event, -, rfl⟩ := List.mem_map.mp hreport
  simpa using level_noted_ne event

/-- The traces of a run are those of its steps, one for each. -/
theorem traces_runReports (run : Run) :
    (runReports true run).filter (·.level = .trace) =
      run.executed.map fun step => .executed step.pc step.instruction := by
  have hstep : ∀ step, (stepReports true step).filter (·.level = .trace) =
      [.executed step.pc step.instruction] := by
    intro step
    rw [stepReports, if_pos rfl, List.filter_append, traces_notes]
    rfl
  simp only [runReports, List.filter_append, List.filter_flatMap, hstep,
    traces_notes, List.append_nil]
  exact List.map_eq_flatMap.symm

section Endings

variable (ending : Ending) (machine : Machine) (steps : StepCount)

theorem closing_fault (cause : Fault) :
    closing (.fault cause) machine steps =
      .faulted cause machine.pc machine.ir ::
        (machine.history.recent.map .ranBefore ++
          .summary machine.pc machine.sr steps ::
            registerReports machine.registers) := rfl

theorem traces_closing :
    (closing ending machine steps).filter (·.level = .trace) = [] := by
  cases ending with
  | halted => rfl
  | limit => rfl
  | fault cause =>
      have hrecent : (machine.history.recent.map ranBefore).filter
          (·.level = .trace) = [] := by
        simp [List.filter_eq_nil_iff, level]
      rw [closing_fault, List.filter_cons_of_neg (by simp [level]),
        List.filter_append, hrecent]
      rfl

theorem steps_closing :
    (closing ending machine steps).filterMap steps? = [steps.toNat] := by
  cases ending with
  | halted => rfl
  | limit => rfl
  | fault cause =>
      have hrecent : (machine.history.recent.map ranBefore).filterMap steps? =
          [] := by
        simp [List.filterMap_map, List.filterMap_eq_nil_iff, steps?]
      rw [closing_fault, List.filterMap_cons_none rfl, List.filterMap_append,
        hrecent]
      rfl

theorem ranBefore_closing (cause : Fault) :
    (closing (.fault cause) machine steps).filterMap ranBefore? =
      machine.history.recent := by
  have hrecent : (machine.history.recent.map ranBefore).filterMap ranBefore? =
      machine.history.recent := by
    rw [List.filterMap_map]
    exact List.filterMap_some
  rw [closing_fault, List.filterMap_cons_none rfl, List.filterMap_append,
    hrecent]
  exact List.append_nil _

end Endings

/-- All reports of a session that has run to its end. -/
def reports (arguments : Arguments) (image : Array Byte) (run : Run) :
    List Report :=
  (opening arguments (.ok image)).reports ++ runReports arguments.trace run ++
    closing run.ending run.machine (BitVec.ofNat 64 run.executed.length)

/-- The lines of all reports. -/
def log (arguments : Arguments) (image : Array Byte) (run : Run) :
    List Record :=
  (reports arguments image run).map record

/-- What a session without a trace shows when the log is told nothing. -/
theorem ordinary_reports {arguments : Arguments}
    (htrace : arguments.trace = false) (image : Array Byte) (run : Run) :
    ((reports arguments image run).filter ordinary).map record =
      (log { arguments with trace := true } image run).filter
        (·.level ∈ [Level.error, .warn, .info]) := by
  have hsame : (reports arguments image run).filter ordinary =
      (reports { arguments with trace := true } image run).filter ordinary := by
    simp only [reports, List.filter_append, htrace, ordinary_runReports]
    rfl
  rw [hsame]
  exact (filter_record (· ∈ [Level.error, .warn, .info]) _).symm

section Booted

variable {arguments : Arguments} {image : Array Byte} {machine : Machine}
  (hboot : (boot image arguments.controller).result = .ok machine)

include hboot

/-- A session that boots runs to its end, within the bound if it has no limit
of its own. -/
theorem complete?_of_boot {bound : StepCount}
    (hends : arguments.maxSteps = none →
      (machine.run bound.toNat).ending ≠ .limit) :
    let run := machine.run (arguments.maxSteps.getD bound).toNat
    complete? bound arguments (.ok image) =
      some (exitStatus run.ending, reports arguments image run) := by
  intro run
  have hopened : (opening arguments (.ok image)).machine = some machine := by
    simp only [opening, hboot]
  have hended : ¬ (run.ending = .limit ∧ arguments.maxSteps = none) := by
    rintro ⟨hlimit, hnone⟩
    refine hends hnone ?_
    rwa [← Option.getD_none (a := bound), ← hnone]
  simp only [complete?, hopened]
  exact if_neg hended

theorem of_mem_opening {report : Report}
    (hreport : report ∈ (opening arguments (.ok image)).reports) :
    (∃ path size, report = .loaded path size) ∨
      (∃ event, report = .noted event) ∨
      ∃ pc stackPointer, report = .started pc stackPointer := by
  simp only [opening, hboot, List.mem_append, List.mem_cons, List.mem_map,
    List.not_mem_nil, or_false] at hreport
  rcases hreport with (rfl | ⟨event, -, rfl⟩) | rfl
  · exact .inl ⟨_, _, rfl⟩
  · exact .inr (.inl ⟨event, rfl⟩)
  · exact .inr (.inr ⟨_, _, rfl⟩)

theorem traces_reports (htrace : arguments.trace = true) (run : Run) :
    (reports arguments image run).filter (·.level = .trace) =
      run.executed.map fun step => .executed step.pc step.instruction := by
  have hopening : (opening arguments (.ok image)).reports.filter
      (·.level = .trace) = [] := by
    rw [List.filter_eq_nil_iff]
    intro report hreport
    rcases of_mem_opening hboot hreport with
      ⟨path, size, rfl⟩ | ⟨event, rfl⟩ | ⟨pc, stackPointer, rfl⟩
    · simp [level]
    · simpa using level_noted_ne event
    · simp [level]
  rw [reports, List.filter_append, List.filter_append, hopening, htrace,
    traces_runReports, traces_closing, List.append_nil, List.nil_append]

/-- What neither the opening nor the run reports is reported at the end. -/
theorem filterMap_reports {α : Type} {pick : Report → Option α}
    (hloaded : ∀ path size, pick (.loaded path size) = none)
    (hstarted : ∀ pc stackPointer, pick (.started pc stackPointer) = none)
    (hnoted : ∀ event, pick (.noted event) = none)
    (hexecuted : ∀ pc instruction, pick (.executed pc instruction) = none)
    (run : Run) :
    (reports arguments image run).filterMap pick =
      (closing run.ending run.machine
        (BitVec.ofNat 64 run.executed.length)).filterMap pick := by
  have hopening : (opening arguments (.ok image)).reports.filterMap pick =
      [] := by
    rw [List.filterMap_eq_nil_iff]
    intro report hreport
    rcases of_mem_opening hboot hreport with
      ⟨path, size, rfl⟩ | ⟨event, rfl⟩ | ⟨pc, stackPointer, rfl⟩
    · exact hloaded path size
    · exact hnoted event
    · exact hstarted pc stackPointer
  rw [reports, List.filterMap_append, List.filterMap_append, hopening,
    filterMap_runReports hnoted hexecuted, List.nil_append, List.nil_append]

/-- The traces in the log are those of the steps. -/
theorem traces_log (htrace : arguments.trace = true) (run : Run) :
    (log arguments image run).filter (·.level = .trace) =
      run.executed.map fun step =>
        (executed step.pc step.instruction).record := by
  have hfilter : (log arguments image run).filter (·.level = .trace) =
      ((reports arguments image run).filter (·.level = .trace)).map record :=
    filter_record (· = .trace) _
  rw [hfilter, traces_reports hboot htrace, List.map_map]
  rfl

theorem getElem?_traces (htrace : arguments.trace = true) {limit i : Nat}
    (hi : i < (machine.run limit).executed.length) :
    ∃ instruction, (step (machine.afterSteps i)).result = .ok instruction ∧
      ((log arguments image (machine.run limit)).filter
        (·.level = .trace))[i]? =
          some (executed (machine.afterSteps i).pc instruction).record := by
  obtain ⟨instruction, hstep, hexecuted⟩ := getElem_executed limit machine hi
  refine ⟨instruction, hstep, ?_⟩
  rw [traces_log hboot htrace, List.getElem?_map, List.getElem?_eq_getElem hi,
    hexecuted]
  rfl

/-- A machine that has been booted has run nothing yet. -/
theorem recent_of_boot : machine.history.recent = [] := by
  obtain ⟨stackPointer, pc, -, -, hmachine⟩ := of_boot_ok hboot
  rw [hmachine]
  rfl

/-- The number of steps fits the count, because their limit does. -/
theorem steps_log (limit : StepCount) :
    (log arguments image (machine.run limit.toNat)).filterMap Record.steps? =
      [(machine.run limit.toNat).executed.length] := by
  have hsteps : (machine.run limit.toNat).executed.length < 2 ^ 64 :=
    Nat.lt_of_le_of_lt (length_executed_le machine limit.toNat) limit.isLt
  rw [log, filterMap_record steps?_record, filterMap_reports hboot
    (fun _ _ => rfl) (fun _ _ => rfl) (fun _ => rfl) (fun _ _ => rfl),
    steps_closing, BitVec.toNat_ofNat, Nat.mod_eq_of_lt hsteps]

/-- A fault reports the places of the last steps. -/
theorem places_log {limit : Nat} {cause : Fault}
    (hfault : (machine.run limit).ending = .fault cause) :
    (log arguments image (machine.run limit)).filterMap Record.ranBefore? =
      ((machine.run limit).executed.map Executed.pc).drop
        ((machine.run limit).executed.length - 16) := by
  rw [log, filterMap_record ranBefore?_record, filterMap_reports hboot
    (fun _ _ => rfl) (fun _ _ => rfl) (fun _ => rfl) (fun _ _ => rfl), hfault,
    ranBefore_closing, recent_run, recent_of_boot hboot, List.nil_append,
    History.latest, List.length_map]

/-- They are the places of the last traces. -/
theorem ranBefore_log (htrace : arguments.trace = true) {limit : Nat}
    {cause : Fault} (hfault : (machine.run limit).ending = .fault cause) :
    let steps := (machine.run limit).executed.length
    let lines := log arguments image (machine.run limit)
    (lines.filterMap Record.ranBefore?).map some =
      ((lines.filter (·.level = .trace)).drop (steps - min 16 steps)).map
        Record.traced? := by
  intro steps lines
  have hlast : steps - min 16 steps = steps - 16 := by omega
  have hplaces : ∀ step : Executed,
      (executed step.pc step.instruction).record.traced? = some step.pc := by
    intro step
    exact traced?_executed step.pc step.instruction
  rw [places_log hboot hfault, traces_log hboot htrace, hlast, ← List.map_drop,
    ← List.map_drop, List.map_map, List.map_map]
  simp only [Function.comp_def, hplaces]
  rfl

end Booted

end Session

namespace Command

open Machine Session Report

section Outputs

variable {library : Library} {bound : StepCount} {line : List String}
  {found : Found} {readFile : String → Except String (Array Byte)}
  {arguments : Arguments} {image : Array Byte} {machine : Machine}

/-- The output of a command that boots. -/
theorem output?_of_boot (hline : library.parse description line = .ok found)
    (harguments : Arguments.ofFound found = .ok arguments)
    (hfile : readFile arguments.path = .ok image)
    (hboot : (boot image arguments.controller).result = .ok machine)
    (hends : arguments.maxSteps = none →
      (machine.run bound.toNat).ending ≠ .limit)
    (setting : Option String) :
    let run := machine.run (arguments.maxSteps.getD bound).toNat
    output? library bound line setting readFile =
      some ⟨exitStatus run.ending, "", "",
        ((reports arguments image run).filter
          (library.shows setting standardSetting
            (askedLevel found))).map record⟩ := by
  intro run
  simp only [output?, session?, hline, harguments, hfile,
    complete?_of_boot hboot hends]
  rfl

/-- Without a trace a command shows what is ordinary. -/
theorem output?_of_absent (hlibrary : library.Documented)
    (hline : library.parse description line = .ok found)
    (habsent : found.present "trace" = false)
    (harguments : Arguments.ofFound found = .ok arguments)
    (hfile : readFile arguments.path = .ok image)
    (hboot : (boot image arguments.controller).result = .ok machine)
    (hends : arguments.maxSteps = none →
      (machine.run bound.toNat).ending ≠ .limit) :
    let run := machine.run (arguments.maxSteps.getD bound).toNat
    output? library bound line none readFile =
      some ⟨exitStatus run.ending, "", "",
        ((reports arguments image run).filter ordinary).map record⟩ := by
  intro run
  rw [output?_of_boot hline harguments hfile hboot hends, askedLevel, habsent,
    if_neg Bool.false_ne_true, hlibrary.shows_ordinary]

/-- A command that traces shows all, whatever one level its log is set to. -/
theorem output?_of_present (hlibrary : library.Documented)
    (hline : library.parse description line = .ok found)
    (hpresent : found.present "trace" = true)
    (harguments : Arguments.ofFound found = .ok arguments)
    (hfile : readFile arguments.path = .ok image)
    (hboot : (boot image arguments.controller).result = .ok machine)
    (hends : arguments.maxSteps = none →
      (machine.run bound.toNat).ending ≠ .limit)
    {setting : Option String}
    (hsetting : ∀ text ∈ setting, text ∈ plainSettings) :
    let run := machine.run (arguments.maxSteps.getD bound).toNat
    output? library bound line setting readFile =
      some ⟨exitStatus run.ending, "", "", log arguments image run⟩ := by
  intro run
  have hshown : (reports arguments image run).filter
      (library.shows setting standardSetting (askedLevel found)) =
        reports arguments image run := by
    refine List.filter_eq_self.mpr fun report _ => ?_
    rw [askedLevel, hpresent, if_pos rfl]
    exact hlibrary.shows_all hsetting report
  rw [output?_of_boot hline harguments hfile hboot hends setting, hshown]
  rfl

end Outputs

theorem exitStatus_eq_zero_iff (ending : Ending) :
    exitStatus ending = 0 ↔ ending = .halted ∨ ending = .limit := by
  cases ending <;> simp [exitStatus]

/-- The lines of a traced session agree with each other: there is a trace for
each successful step, in order, with the place where it began; the last of them
are the places that a fault tells; and the summary counts them.  The session
without the trace ends alike and shows the same but for what is less important
than `INFO`. -/
theorem tracing_changes_nothing {library : Library} {bound : StepCount}
    {line tracing : List String} {plain traced : Found}
    {readFile : String → Except String (Array Byte)}
    {arguments : Arguments} {image : Array Byte} {machine : Machine}
    (hlibrary : library.Documented)
    (hline : library.parse description line = .ok plain)
    (htracing : library.parse description tracing = .ok traced)
    (htraced : traced.Traces plain)
    (harguments : Arguments.ofFound plain = .ok arguments)
    (hfile : readFile arguments.path = .ok image)
    (hboot : (boot image arguments.controller).result = .ok machine)
    (hends : arguments.maxSteps = none →
      (machine.run bound.toNat).ending ≠ .limit) :
    ∃ quiet loud : Output,
      output? library bound line none readFile = some quiet ∧
      (∀ setting : Option String, (∀ text ∈ setting, text ∈ plainSettings) →
        output? library bound tracing setting readFile = some loud) ∧
      let run := machine.run (arguments.maxSteps.getD bound).toNat
      let steps := run.executed.length
      let traces := loud.log.filter (·.level = .trace)
      loud.log.filterMap Record.steps? = [steps] ∧ traces.length = steps ∧
        (∀ i < steps, ∃ instruction,
          (step (machine.afterSteps i)).result = .ok instruction ∧
            traces[i]? = some ⟨.trace,
              Numeral.upperHex 6 (machine.afterSteps i).pc.toNat ++ "  " ++
                instruction.text⟩ ∧
            (traces.map Record.traced?)[i]? =
              some (some (machine.afterSteps i).pc)) ∧
        (∀ cause, run.ending = .fault cause →
          (loud.log.filterMap Record.ranBefore?).map some =
            (traces.drop (steps - min 16 steps)).map Record.traced?) ∧
        (loud.status = 0 ↔ run.ending = .halted ∨ run.ending = .limit) ∧
        quiet.status = loud.status ∧
        quiet.log =
          loud.log.filter (·.level ∈ [Level.error, .warn, .info]) := by
  obtain ⟨htrace, hasked⟩ := htraced.arguments harguments
  let asked := { arguments with trace := true }
  have hstarts : (boot image asked.controller).result = .ok machine := hboot
  refine ⟨_, _, output?_of_absent hlibrary hline htraced.absent harguments
      hfile hboot hends,
    fun setting hsetting => output?_of_present hlibrary htracing
      htraced.present hasked hfile hstarts hends hsetting,
    steps_log hstarts _, ?_, fun i hi => ?_,
    fun cause hfault => ranBefore_log hstarts rfl hfault,
    exitStatus_eq_zero_iff _, rfl, ordinary_reports htrace image _⟩
  · rw [traces_log hstarts rfl, List.length_map]
  · obtain ⟨instruction, hstep, hline⟩ := getElem?_traces hstarts rfl hi
    refine ⟨instruction, hstep, hline, ?_⟩
    rw [List.getElem?_map]
    exact (congrArg (Option.map Record.traced?) hline).trans
      (congrArg some (traced?_executed _ instruction))

end Command

namespace TracingWitness

open Command Machine

/-- Two waits, and a word that begins no instruction. -/
def image : Array Byte :=
  #[0x00, 0xFF, 0x10, 0x00, 0x00, 0x00, 0x00, 0x08,
    0x4E, 0x71, 0x4E, 0x71, 0xFF, 0xFF]

def start : Machine :=
  (blank (Bus.powerOn ⟨image, by decide⟩ 0xFFFFFFFF)).restarted 0xFF1000 8

def readFile (_ : String) : Except String (Array Byte) :=
  .ok image

/-- A path, with the trace or without, and what stands for the controller. -/
def found (trace : Bool) : Found where
  present name := name = "ROM" || name = "controller" || trace && name = "trace"
  value? name :=
    if name = "ROM" then some "a.bin"
    else if name = "controller" then some standardController
    else none

/-- A library that knows two lines, and settings that name a level. -/
def library : Library where
  parse _ line :=
    if line = ["a.bin"] then .ok (found false)
    else if line = ["a.bin", "-t"] then .ok (found true)
    else .error ⟨1, "", "error"⟩
  shows setting assumed asked report :=
    let named := [Level.error, .warn, .info, .debug, .trace].find?
      (·.setting = setting.getD assumed)
    match asked.or named with
    | some level => report.level.rank ≤ level.rank
    | none => false

theorem documented_library : library.Documented where
  shows_assumed level report := by cases level <;> rfl
  shows_asked _ _ _ _ := rfl

theorem traces_found : (found true).Traces (found false) where
  absent := rfl
  present := rfl
  value?_eq _ := rfl

theorem tracing_changes_nothing_stuck :
    (library.parse description ["a.bin"] = .ok (found false) ∧
      library.parse description ["a.bin", "-t"] = .ok (found true) ∧
      Arguments.ofFound (found false) =
        .ok ⟨"a.bin", false, none, 0xFFFFFFFF⟩ ∧
      (Session.boot image 0xFFFFFFFF).result = .ok start ∧
      (start.run 5).ending = .fault (.unsupportedInstruction 0xFFFF)) ∧
    ∃ quiet loud : Output,
      output? library 5 ["a.bin"] none readFile = some quiet ∧
        output? library 5 ["a.bin", "-t"] (some "off") readFile = some loud ∧
        quiet.status = loud.status ∧ loud.status ≠ 0 ∧
        loud.log.filterMap Record.steps? = [2] ∧
        (loud.log.filter (·.level = .trace)).length = 2 ∧
        (loud.log.filter (·.level = .trace))[1]? =
          some ⟨.trace, "00000A  nop"⟩ ∧
        (loud.log.filterMap Record.ranBefore?).map some =
          (loud.log.filter (·.level = .trace)).map Record.traced? := by
  have hline : library.parse description ["a.bin"] = .ok (found false) := rfl
  have htracing : library.parse description ["a.bin", "-t"] =
      .ok (found true) := rfl
  have harguments : Arguments.ofFound (found false) =
      .ok ⟨"a.bin", false, none, 0xFFFFFFFF⟩ := rfl
  have hfile : readFile "a.bin" = .ok image := rfl
  have hboot : (Session.boot image 0xFFFFFFFF).result = .ok start := rfl
  have hending : (start.run 5).ending =
      .fault (.unsupportedInstruction 0xFFFF) := rfl
  have hends : (start.run (5 : StepCount).toNat).ending ≠ .limit := by
    change (start.run 5).ending ≠ .limit
    rw [hending]
    exact nofun
  obtain ⟨quiet, loud, hquiet, hloud, hsteps, hlength, htraces, hlast, hstatus,
    hsame, -⟩ := tracing_changes_nothing documented_library hline htracing
      traces_found harguments hfile hboot fun _ => hends
  have hfailed : loud.status ≠ 0 := by
    intro hzero
    rcases hstatus.mp hzero with hhalted | hlimit
    · exact absurd (hending.symm.trans hhalted) nofun
    · exact hends hlimit
  obtain ⟨instruction, hstep, htrace, -⟩ := htraces 1 (by decide)
  have hnop : instruction = .nop := by
    cases hstep
    rfl
  subst hnop
  exact ⟨⟨hline, htracing, harguments, hboot, hending⟩, quiet, loud, hquiet,
    hloud (some "off") (by decide), hsame, hfailed, hsteps, hlength, htrace,
    hlast _ hending⟩

end TracingWitness

end MegaDrive
