/-
Runs in parts.  A run has one equation for each way in which it can begin, and
from them it splits at any number of steps.  Main statement: a run and another
run from where it ended are together the run with both limits added, however
the first of them ended.
-/
import MegaDrive.Machine.Run
import MegaDrive.Proofs.Atomicity

namespace MegaDrive

/-- A run with steps put before its own. -/
def Run.behind (executed : List Executed) (run : Run) : Run :=
  { run with executed := executed ++ run.executed }

theorem Run.behind_behind (first second : List Executed) (run : Run) :
    (run.behind second).behind first = run.behind (first ++ second) := by
  simp only [behind, List.append_assoc]

namespace Machine

section Beginnings

variable {machine : Machine}

theorem runAfter_eq_behind (done : List Executed) (limit : Nat)
    (machine : Machine) :
    runAfter done limit machine = (run limit machine).behind done.reverse := by
  induction limit generalizing done machine with
  | zero =>
      unfold run runAfter
      split <;> simp [Run.behind]
  | succ limit ih =>
      unfold run runAfter
      split
      · simp [Run.behind]
      · dsimp only
        split
        · rw [ih, ih [_], Run.behind_behind, List.reverse_cons,
            List.reverse_singleton]
        · simp [Run.behind]

theorem run_of_halted (hstate : machine.state = .halted) (limit : Nat) :
    run limit machine = ⟨machine, [], .halted, []⟩ := by
  cases limit <;> rw [run, runAfter, if_pos hstate, List.reverse_nil]

theorem run_zero (hstate : machine.state = .running) :
    run 0 machine = ⟨machine, [], .limit, []⟩ := by
  rw [run, runAfter, hstate, if_neg (by decide), List.reverse_nil]

theorem run_succ_of_ok (hstate : machine.state = .running)
    {instruction : Instruction}
    (hstep : (step machine).result = .ok instruction) (limit : Nat) :
    run (limit + 1) machine =
      (run limit (step machine).machine).behind
        [⟨machine.pc, instruction, (step machine).events⟩] := by
  rw [run, runAfter, hstate, if_neg (by decide)]
  simp only [hstep]
  rw [runAfter_eq_behind, List.reverse_singleton]

theorem run_succ_of_error (hstate : machine.state = .running)
    {cause : Fault} (hstep : (step machine).result = .error cause)
    (limit : Nat) :
    run (limit + 1) machine =
      ⟨(step machine).machine, [], .fault cause, (step machine).events⟩ := by
  rw [run, runAfter, hstate, if_neg (by decide)]
  simp only [hstep, List.reverse_nil]

/-- Induction on a run by the way in which it begins. -/
@[elab_as_elim]
theorem run_induction {motive : Nat → Machine → Prop}
    (halted : ∀ limit machine, machine.state = .halted →
      motive limit machine)
    (limited : ∀ machine, machine.state = .running → motive 0 machine)
    (faulted : ∀ limit machine cause, machine.state = .running →
      (step machine).result = .error cause → motive (limit + 1) machine)
    (stepped : ∀ limit machine instruction, machine.state = .running →
      (step machine).result = .ok instruction →
        motive limit (step machine).machine → motive (limit + 1) machine)
    (limit : Nat) (machine : Machine) : motive limit machine := by
  induction limit generalizing machine with
  | zero =>
      cases hstate : machine.state with
      | halted => exact halted 0 machine hstate
      | running => exact limited machine hstate
  | succ limit ih =>
      cases hstate : machine.state with
      | halted => exact halted _ machine hstate
      | running =>
          cases hstep : (step machine).result with
          | error cause => exact faulted limit machine cause hstate hstep
          | ok instruction =>
              exact stepped limit machine instruction hstate hstep
                (ih (step machine).machine)

end Beginnings

section Retries

variable {machine : Machine}

/-- A step does not read the instruction register that an earlier one left. -/
theorem step_fetched {word : Long}
    (hread : (machine.bus.read machine.pc .word).result = .ok word)
    (opcode : Word) : step (machine.fetched opcode) = step machine := by
  have hread' : ((machine.fetched opcode).bus.read
      (machine.fetched opcode).pc .word).result = .ok word := hread
  rw [step_of_readable hread, step_of_readable hread']
  rfl

/-- A step that faulted can be tried again and does the same. -/
theorem step_step_of_error {cause : Fault}
    (hstep : (step machine).result = .error cause) :
    step (step machine).machine = step machine := by
  cases hread : (machine.bus.read machine.pc .word).result with
  | error fault => rw [step_machine_of_unreadable hread]
  | ok word => rw [step_machine_of_fault hread hstep, step_fetched hread]

theorem afterSteps_of_error {cause : Fault}
    (hstep : (step machine).result = .error cause) (tries : Nat) :
    machine.afterSteps (tries + 1) = (step machine).machine := by
  induction tries with
  | zero => rfl
  | succ tries ih => rw [afterSteps_succ, ih, step_step_of_error hstep]

/-- A fault does not stop the processor. -/
theorem state_of_error {cause : Fault}
    (hstep : (step machine).result = .error cause) :
    (step machine).machine.state = machine.state := by
  obtain ⟨opcode, hmachine⟩ := exists_fetched_of_error hstep
  rw [hmachine]
  rfl

end Retries

/-- The induction is on the first run, and each way in which it begins leaves
the second one where the whole run goes on.  A second limit of zero would hide
a fault, which takes one step to happen again. -/
theorem run_add_succ (machine : Machine) (first second : Nat) :
    run (first + (second + 1)) machine =
      (run (second + 1) (run first machine).machine).behind
        (run first machine).executed := by
  induction first, machine using run_induction with
  | halted first machine hstate =>
      rw [run_of_halted hstate, run_of_halted hstate, run_of_halted hstate]
      rfl
  | limited machine hstate =>
      rw [Nat.zero_add, run_zero hstate]
      rfl
  | faulted first machine cause hstate hstep =>
      have hagain := step_step_of_error hstep
      have hresult : (step (step machine).machine).result = .error cause := by
        rw [hagain, hstep]
      rw [Nat.succ_add, run_succ_of_error hstate hstep,
        run_succ_of_error hstate hstep,
        run_succ_of_error ((state_of_error hstep).trans hstate) hresult,
        hagain]
      rfl
  | stepped first machine instruction hstate hstep ih =>
      rw [Nat.succ_add, run_succ_of_ok hstate hstep,
        run_succ_of_ok hstate hstep, ih, Run.behind_behind]
      rfl

theorem length_executed_le (machine : Machine) (limit : Nat) :
    (run limit machine).executed.length ≤ limit := by
  induction limit, machine using run_induction with
  | halted limit machine hstate =>
      rw [run_of_halted hstate]
      exact Nat.zero_le limit
  | limited machine hstate =>
      rw [run_zero hstate]
      exact Nat.le_refl 0
  | faulted limit machine cause hstate hstep =>
      rw [run_succ_of_error hstate hstep]
      exact Nat.zero_le _
  | stepped limit machine instruction hstate hstep ih =>
      rw [run_succ_of_ok hstate hstep]
      exact Nat.succ_le_succ ih

/-- A run that was cut short has done all its steps and could go on. -/
theorem of_ending_limit {machine : Machine} {limit : Nat}
    (hending : (run limit machine).ending = .limit) :
    (run limit machine).machine.state = .running ∧
      (run limit machine).executed.length = limit := by
  induction limit, machine using run_induction with
  | halted limit machine hstate =>
      rw [run_of_halted hstate] at hending
      cases hending
  | limited machine hstate =>
      rw [run_zero hstate]
      exact ⟨hstate, rfl⟩
  | faulted limit machine cause hstate hstep =>
      rw [run_succ_of_error hstate hstep] at hending
      cases hending
  | stepped limit machine instruction hstate hstep ih =>
      rw [run_succ_of_ok hstate hstep] at hending ⊢
      obtain ⟨hreached, hlength⟩ := ih hending
      exact ⟨hreached, congrArg (· + 1) hlength⟩

theorem halted_of_stop {machine : Machine} {value : Word}
    (hstep : (step machine).result = .ok (.stop value)) :
    (step machine).machine.state = .halted := by
  obtain ⟨word, decoded, -, -, -, -, hmachine⟩ := exists_of_step_ok hstep
  rw [hmachine]
  rfl

/-- The stop that uses up the limit is seen before the limit is. -/
theorem run_succ_of_stop {machine : Machine} {limit : Nat}
    (hending : (run limit machine).ending = .limit) {value : Word}
    (hstep : (step (run limit machine).machine).result =
      .ok (.stop value)) :
    (run (limit + 1) machine).ending = .halted ∧
      (run (limit + 1) machine).executed.length = limit + 1 := by
  obtain ⟨hstate, hlength⟩ := of_ending_limit hending
  rw [run_add_succ machine limit 0, run_succ_of_ok hstate hstep,
    run_of_halted (halted_of_stop hstep)]
  simp [Run.behind, hlength]

/-- A run of `first` steps and then one of `second` from the machine that it
left are the run of both together: the same machine, step counts and traces
that add up, and the same ending.  A step that faulted does the same whenever
it is tried again, no run does more than its limit, and a stop as the last step
allowed halts the run. -/
theorem runs_compose (machine : Machine) (first second : Nat)
    (hsecond : 0 < second) :
    (let earlier := run first machine
      let later := run second earlier.machine
      let whole := run (first + second) machine
      later.machine = whole.machine ∧
        earlier.executed.length + later.executed.length =
          whole.executed.length ∧
        earlier.executed ++ later.executed = whole.executed ∧
        later.ending = whole.ending) ∧
    (∀ cause, (step machine).result = .error cause → ∀ tries,
      machine.afterSteps (tries + 1) = (step machine).machine ∧
        (step (machine.afterSteps (tries + 1))).result = .error cause) ∧
    (∀ limit, (run limit machine).executed.length ≤ limit) ∧
    (∀ limit value, (run limit machine).ending = .limit →
      (step (run limit machine).machine).result = .ok (.stop value) →
        (run (limit + 1) machine).ending = .halted ∧
          (run (limit + 1) machine).executed.length = limit + 1) := by
  obtain ⟨second, rfl⟩ := Nat.exists_eq_succ_of_ne_zero (Nat.ne_of_gt hsecond)
  refine ⟨?_, ?_, length_executed_le machine, ?_⟩
  · dsimp only
    rw [Nat.succ_eq_add_one, run_add_succ machine first second]
    exact ⟨rfl, (List.length_append).symm, rfl, rfl⟩
  · intro cause hstep tries
    rw [afterSteps_of_error hstep, step_step_of_error hstep]
    exact ⟨rfl, hstep⟩
  · intro limit value hending hstep
    exact run_succ_of_stop hending hstep

end Machine

namespace RunCompositionWitness

open Machine

/-- A wait and a stop behind it. -/
def pausing : Machine :=
  blank (Bus.powerOn ⟨#[0x4E, 0x71, 0x4E, 0x72, 0x27, 0x00], by decide⟩ 0)

/-- A word that begins no instruction. -/
def stuck : Machine :=
  blank (Bus.powerOn ⟨#[0xFF, 0xFF], by decide⟩ 0)

theorem runs_compose_pausing :
    (0 < 1 ∧ (run 1 (run 1 pausing).machine).machine =
        (run 2 pausing).machine ∧
      (run 1 (run 1 pausing).machine).ending = (run 2 pausing).ending) ∧
    ((run 1 pausing).ending = .limit ∧
      (step (run 1 pausing).machine).result = .ok (.stop 0x2700) ∧
      (run 2 pausing).ending = .halted) ∧
    ((step stuck).result = .error (.unsupportedInstruction 0xFFFF) ∧
      (step (stuck.afterSteps 3)).result =
        .error (.unsupportedInstruction 0xFFFF)) := by
  have hlimit : (run 1 pausing).ending = .limit := rfl
  have hstop :
      (step (run 1 pausing).machine).result = .ok (.stop 0x2700) := rfl
  have hstuck :
      (step stuck).result = .error (.unsupportedInstruction 0xFFFF) := rfl
  obtain ⟨⟨hmachine, -, -, hending⟩, -, -, hhalt⟩ :=
    runs_compose pausing 1 1 (by decide)
  refine ⟨⟨by decide, hmachine, hending⟩, ⟨hlimit, hstop, ?_⟩, hstuck, ?_⟩
  · exact (hhalt 1 _ hlimit hstop).1
  · exact ((runs_compose stuck 1 1 (by decide)).2.1 _ hstuck 2).2

end RunCompositionWitness

end MegaDrive
