/-
Requests that reach a machine from outside, one after the other, and what the
machine remembers of them.  Main statement: whatever was asked for and however
it was answered, the history holds the addresses of the latest sixteen steps
since the last restart, and the processor is halted exactly when a stop has run
since then.
-/
import Mathlib.Data.List.DropRight
import MegaDrive.Proofs.StepFrame

namespace MegaDrive

inductive Request
  | step
  /-- Run an instruction that does not come from memory. -/
  | execute (instruction : Instruction)
  | reset
  | write (address : Address) (width : Width) (value : Long)
  /-- Set what stands open to everyone. -/
  | alter (registers : RegisterFile) (pc : Address) (sr : Status) (ir : Word)

/-- Do what is asked for, and tell which instruction ran. -/
def Request.perform : Request → Exec (Option Instruction)
  | .step => do
      let instruction ← Machine.step
      return some instruction
  | .execute instruction => do
      instruction.execute
      return some instruction
  | .reset => do
      Machine.reset
      return none
  | .write address width value => do
      Exec.writeMemory address width value
      return none
  | .alter registers pc sr ir => do
      Exec.update fun machine =>
        { machine with registers := registers, pc := pc, sr := sr, ir := ir }
      return none

/-- A request, where the program counter stood when it came, and how it was
answered. -/
structure Answered where
  request : Request
  pc : Address
  result : Except Fault (Option Instruction)

namespace Answered

/-- The instruction that ran to its end. -/
def ran? (answered : Answered) : Option Instruction :=
  match answered.result with
  | .ok instruction => instruction
  | .error _ => none

/-- The address of a step that succeeded. -/
def visited? (answered : Answered) : Option Address :=
  match answered.request, answered.result with
  | .step, .ok _ => some answered.pc
  | _, _ => none

/-- A stop ran to its end. -/
def Stops (answered : Answered) : Prop :=
  ∃ value, answered.ran? = some (.stop value)

/-- Whether a reset succeeded. -/
def restarts (answered : Answered) : Bool :=
  match answered.request, answered.result with
  | .reset, .ok _ => true
  | _, _ => false

end Answered

/-- What was answered after the last reset that succeeded, or all of it when
none did. -/
def sinceRestart (answered : List Answered) : List Answered :=
  answered.rtakeWhile fun answer => !answer.restarts

namespace Machine

def answer (machine : Machine) (request : Request) : Answered :=
  ⟨request, machine.pc, (request.perform machine).result⟩

/-- The machine after these requests, whether or not some of them fault. -/
def afterRequests (machine : Machine) : List Request → Machine
  | [] => machine
  | request :: rest => afterRequests (request.perform machine).machine rest

/-- The answers to these requests, in order. -/
def answers (machine : Machine) : List Request → List Answered
  | [] => []
  | request :: rest =>
      machine.answer request :: answers (request.perform machine).machine rest

theorem afterRequests_concat (machine : Machine) (requests : List Request)
    (request : Request) :
    machine.afterRequests (requests ++ [request]) =
      (request.perform (machine.afterRequests requests)).machine := by
  induction requests generalizing machine with
  | nil => rfl
  | cons first rest ih => exact ih (first.perform machine).machine

theorem answers_concat (machine : Machine) (requests : List Request)
    (request : Request) :
    machine.answers (requests ++ [request]) =
      machine.answers requests ++
        [(machine.afterRequests requests).answer request] := by
  induction requests generalizing machine with
  | nil => rfl
  | cons first rest ih =>
      exact congrArg (machine.answer first :: ·)
        (ih (first.perform machine).machine)

end Machine

namespace Exec

variable {α β : Type} {activity : Exec α} {answer : α → β} {machine : Machine}

/-- To put an answer behind an activity changes nothing about its faults. -/
theorem of_answering_error {fault : Fault}
    (hresult : ((activity >>= fun value => pure (answer value)) machine).result =
      .error fault) :
    (activity machine).result = .error fault ∧
      ((activity >>= fun value => pure (answer value)) machine).machine =
        (activity machine).machine := by
  cases hactivity : (activity machine).result with
  | ok value =>
      rw [bind_apply, Outcome.andThen_of_ok hactivity] at hresult
      cases hresult
  | error cause =>
      rw [bind_apply, Outcome.andThen_of_error hactivity] at hresult ⊢
      cases hresult
      exact ⟨rfl, rfl⟩

theorem of_answering_ok {done : β}
    (hresult : ((activity >>= fun value => pure (answer value)) machine).result =
      .ok done) :
    ∃ value, (activity machine).result = .ok value ∧ done = answer value ∧
      ((activity >>= fun value => pure (answer value)) machine).machine =
        (activity machine).machine := by
  obtain ⟨value, hvalue, hdone, hmachine⟩ := exists_of_bind_ok hresult
  cases hdone
  exact ⟨value, hvalue, rfl, hmachine⟩

end Exec

/-- What becomes of a bus in one request: it is written to once, or not. -/
inductive Bus.Became (before : Bus) : Bus → Prop
  | unwritten : before.Became before
  | written {after : Bus} {address : Address} {width : Width} {value : Long}
      (hwrite : (before.write address width value).result = .ok after) :
      before.Became after

namespace Instruction

/-- An instruction that succeeds writes to the bus once at most, leaves the
instruction register and the history alone, and a stop alone touches the run
state. -/
theorem machine_of_execute_ok {machine : Machine} {instruction : Instruction}
    (hresult : (instruction.execute machine).result = .ok ()) :
    ∃ bus registers pc sr,
      machine.bus.Became bus ∧
      (instruction.execute machine).machine =
        { machine with
          bus := bus
          registers := registers
          pc := pc
          sr := sr
          state := if instruction.stopped?.isSome then .halted
            else machine.state } := by
  cases instruction with
  | nop | moveToSr | stop => exact ⟨_, _, _, _, .unwritten, rfl⟩
  | tst target width =>
      obtain ⟨value, -, hmachine⟩ := of_executeTst_ok hresult
      exact ⟨_, _, _, _, .unwritten, hmachine⟩
  | bne target width | beq target width =>
      obtain ⟨displacement, -, hmachine⟩ := of_executeBranch_ok hresult
      exact ⟨_, _, _, _, .unwritten, hmachine⟩
  | bsr target width =>
      obtain ⟨displacement, bus, -, hwrite, hmachine⟩ :=
        of_executeBsr_ok hresult
      exact ⟨_, _, _, _, .written hwrite, hmachine⟩
  | lea target destination =>
      obtain ⟨address, -, hmachine⟩ := of_executeLea_ok hresult
      exact ⟨_, _, _, _, .unwritten, hmachine⟩
  | move source destination width =>
      obtain ⟨value, -, ⟨_, _, -, hwrite, hmachine⟩ | ⟨_, -, hmachine⟩⟩ :=
        of_executeMove_ok hresult
      · exact ⟨_, _, _, _, .written hwrite, hmachine⟩
      · exact ⟨_, _, _, _, .unwritten, hmachine⟩
  | andi source destination width =>
      obtain ⟨mask, name, result, -, -, -, -, hmachine⟩ :=
        of_executeAndi_ok hresult
      exact ⟨_, _, _, _, .unwritten, hmachine⟩
  | dbcc condition counter displacement =>
      obtain ⟨count, -, -, hmachine⟩ := of_executeDbcc_ok hresult
      exact ⟨_, _, _, _, .unwritten, hmachine⟩
  | rts =>
      obtain ⟨destination, -, hmachine⟩ := of_executeRts_ok hresult
      exact ⟨_, _, _, _, .unwritten, hmachine⟩
  | subq data destination width =>
      obtain ⟨amount, name, -, -, -, hmachine⟩ := of_executeSubq_ok hresult
      exact ⟨_, _, _, _, .unwritten, hmachine⟩

end Instruction

namespace Machine

variable {machine : Machine}

theorem machine_of_step_ok {instruction : Instruction}
    (hstep : (step machine).result = .ok instruction) :
    machine.bus.Became (step machine).machine.bus ∧
      (step machine).machine.history = machine.history.push machine.pc ∧
      (step machine).machine.state =
        if instruction.stopped?.isSome then .halted else machine.state := by
  obtain ⟨word, decoded, -, -, rfl, hexecute, hmachine⟩ :=
    exists_of_step_ok hstep
  obtain ⟨bus, registers, pc, sr, hbus, hreached⟩ :=
    Instruction.machine_of_execute_ok hexecute
  rw [hmachine, hreached]
  exact ⟨hbus, rfl, rfl⟩

/-- A reset needs two addresses and does nothing when it does not get them. -/
theorem atomic_reset : Exec.Atomic reset := by
  have hpointer : Exec.Steady (Exec.ask Bus.initialStackPointer) := fun _ => rfl
  have hpc : Exec.Steady (Exec.ask Bus.initialPc) := fun _ => rfl
  refine hpointer.bind_atomic fun stackPointer => ?_
  refine hpc.bind_atomic fun pc => ?_
  exact (Exec.settles_update _).atomic

/-- A request that faults leaves nothing behind but an opcode. -/
theorem exists_fetched_of_refused {request : Request} {fault : Fault}
    (hresult : (request.perform machine).result = .error fault) :
    ∃ opcode, (request.perform machine).machine = machine.fetched opcode := by
  cases request with
  | step =>
      obtain ⟨hfault, hmachine⟩ := Exec.of_answering_error hresult
      obtain ⟨opcode, hfetched⟩ := exists_fetched_of_error hfault
      exact ⟨opcode, hmachine.trans hfetched⟩
  | execute instruction =>
      obtain ⟨hfault, hmachine⟩ := Exec.of_answering_error hresult
      exact ⟨machine.ir, hmachine.trans
        (instruction.atomic_execute machine fault hfault)⟩
  | reset =>
      obtain ⟨hfault, hmachine⟩ := Exec.of_answering_error hresult
      exact ⟨machine.ir, hmachine.trans (atomic_reset machine fault hfault)⟩
  | write address width value =>
      obtain ⟨hfault, hmachine⟩ := Exec.of_answering_error hresult
      exact ⟨machine.ir, hmachine.trans
        (Exec.atomic_writeMemory address width value machine fault hfault)⟩
  | alter => cases hresult

theorem halted_if_stopped_iff (instruction : Instruction) (state : RunState) :
    (if instruction.stopped?.isSome then .halted else state) = .halted ↔
      state = .halted ∨ ∃ value, instruction = .stop value := by
  cases instruction <;> simp [Instruction.stopped?]

theorem record_of_restart {request : Request}
    (hrestarts : (machine.answer request).restarts = true) :
    (request.perform machine).machine.history = .empty ∧
      (request.perform machine).machine.state = .running := by
  cases request with
  | reset =>
      cases hresult : (Request.reset.perform machine).result with
      | error fault => simp [Answered.restarts, answer, hresult] at hrestarts
      | ok done =>
          obtain ⟨_, hreset, -, hmachine⟩ := Exec.of_answering_ok hresult
          obtain ⟨stackPointer, pc, -, -, hrestarted⟩ := of_reset_ok hreset
          rw [show (Request.reset.perform machine).machine = _ from
            hmachine.trans hrestarted]
          exact ⟨rfl, rfl⟩
  | step | execute | write | alter => cases hrestarts

/-- What an answer that is no restart adds to the record. -/
theorem record_of_answer {request : Request}
    (hrestarts : (machine.answer request).restarts = false) :
    (request.perform machine).machine.history =
        (machine.answer request).visited?.elim machine.history
          machine.history.push ∧
      ((request.perform machine).machine.state = .halted ↔
        machine.state = .halted ∨ (machine.answer request).Stops) := by
  cases hresult : (request.perform machine).result with
  | error fault =>
      obtain ⟨opcode, hmachine⟩ := exists_fetched_of_refused hresult
      rw [hmachine]
      constructor
      · cases request <;> simp [Answered.visited?, answer, hresult, fetched]
      · simp [Answered.Stops, Answered.ran?, answer, hresult, fetched]
  | ok done =>
      cases request with
      | step =>
          obtain ⟨instruction, hstep, rfl, hmachine⟩ :=
            Exec.of_answering_ok hresult
          obtain ⟨-, hhistory, hstate⟩ := machine_of_step_ok hstep
          rw [show (Request.step.perform machine).machine = _ from hmachine,
            hhistory, hstate, halted_if_stopped_iff]
          simp [Answered.visited?, Answered.Stops, Answered.ran?, answer,
            hresult]
      | execute instruction =>
          obtain ⟨_, hexecute, rfl, hmachine⟩ :=
            Exec.of_answering_ok hresult
          obtain ⟨bus, registers, pc, sr, -, hreached⟩ :=
            Instruction.machine_of_execute_ok hexecute
          rw [show ((Request.execute instruction).perform machine).machine = _
            from hmachine.trans hreached, halted_if_stopped_iff]
          simp [Answered.visited?, Answered.Stops, Answered.ran?, answer,
            hresult]
      | reset => simp [Answered.restarts, answer, hresult] at hrestarts
      | write address width value =>
          obtain ⟨_, hwrite, rfl, hmachine⟩ := Exec.of_answering_ok hresult
          obtain ⟨bus, -, hstored⟩ := Exec.exists_of_writeMemory_ok hwrite
          rw [show ((Request.write address width value).perform machine).machine =
            _ from hmachine.trans hstored]
          simp [Answered.visited?, Answered.Stops, Answered.ran?, answer,
            hresult]
      | alter registers pc sr ir =>
          cases hresult
          simp [Answered.visited?, Answered.Stops, Answered.ran?, answer,
            Request.perform]

/-- What a machine remembers of answers since its last restart. -/
structure Remembers (machine : Machine) (answered : List Answered) : Prop where
  recent : machine.history.recent =
    History.latest (answered.filterMap Answered.visited?)
  halted : machine.state = .halted ↔ ∃ answer ∈ answered, answer.Stops

theorem remembers_perform {answered : List Answered}
    (hmachine : machine.Remembers (sinceRestart answered)) (request : Request) :
    (request.perform machine).machine.Remembers
      (sinceRestart (answered ++ [machine.answer request])) := by
  rw [sinceRestart, List.rtakeWhile_concat]
  cases hrestarts : (machine.answer request).restarts with
  | true =>
      obtain ⟨hhistory, hstate⟩ := record_of_restart hrestarts
      rw [if_neg (by decide)]
      constructor
      · rw [hhistory]
        rfl
      · simp [hstate]
  | false =>
      obtain ⟨hhistory, hstate⟩ := record_of_answer hrestarts
      rw [if_pos (by decide), ← sinceRestart]
      constructor
      · rw [hhistory, List.filterMap_append]
        cases hvisited : (machine.answer request).visited? with
        | none => simp [hvisited, hmachine.recent]
        | some pc =>
            simp [hvisited, History.recent_push, hmachine.recent,
              History.latest_append_latest]
      · rw [hstate, hmachine.halted]
        simp [or_and_right, exists_or]

theorem remembers_afterRequests (hmachine : machine.Remembers [])
    (requests : List Request) :
    (machine.afterRequests requests).Remembers
      (sinceRestart (machine.answers requests)) := by
  induction requests using List.reverseRecOn with
  | nil => exact hmachine
  | append_singleton earlier request ih =>
      rw [afterRequests_concat, answers_concat]
      exact remembers_perform ih request

theorem remembers_of_ofBus {bus : Bus}
    (hstart : (ofBus bus).result = .ok machine) : machine.Remembers [] := by
  cases hreset : (reset (blank bus)).result with
  | error fault =>
      simp only [ofBus, hreset, Except.map] at hstart
      cases hstart
  | ok done =>
      obtain ⟨stackPointer, pc, -, -, hrestarted⟩ := of_reset_ok hreset
      simp only [ofBus, hreset, Except.map] at hstart
      cases hstart
      rw [hrestarted]
      exact ⟨rfl, by simp [restarted, blank]⟩

theorem latest_suffix (addresses : List Address) :
    History.latest addresses <:+ addresses := List.drop_suffix _ _

theorem length_latest (addresses : List Address) :
    (History.latest addresses).length = min 16 addresses.length := by
  rw [History.latest, List.length_drop]
  omega

/-- Whatever is asked of a machine that has come out of reset, its history
holds the addresses of the latest sixteen steps since the last restart, oldest
first, and it is halted exactly when a stop has run since then. -/
theorem remembers_latest_steps {bus : Bus}
    (hstart : (ofBus bus).result = .ok machine) (requests : List Request) :
    let answered := sinceRestart (machine.answers requests)
    let visited := answered.filterMap Answered.visited?
    let reached := machine.afterRequests requests
    reached.history.recent <:+ visited ∧
      reached.history.recent.length = min 16 visited.length ∧
      (reached.state = .halted ↔ ∃ answer ∈ answered, answer.Stops) := by
  intro answered visited reached
  have hreached : reached.Remembers answered :=
    remembers_afterRequests (remembers_of_ofBus hstart) requests
  rw [hreached.recent]
  exact ⟨latest_suffix visited, length_latest visited, hreached.halted⟩

end Machine

namespace RequestsWitness

open Machine

/-- Two waits and a stop, where the processor starts. -/
def bus : Bus :=
  Bus.powerOn ⟨#[0x00, 0xFF, 0x10, 0x00, 0x00, 0x00, 0x00, 0x08,
    0x4E, 0x71, 0x4E, 0x71, 0x4E, 0x72, 0x27, 0x00], by decide⟩ 0

def started : Machine :=
  (blank bus).restarted 0xFF1000 8

/-- A stop that is forgotten with the reset behind it, and then two steps and
a write that is refused. -/
def requests : List Request :=
  [.step, .execute (.stop 0), .reset, .step, .step, .write 0 .byte 0]

theorem remembers_latest_steps_restarted :
    (ofBus bus).result = .ok started ∧
      (started.afterRequests requests).history.recent <:+ [8, 10] ∧
      (started.afterRequests requests).history.recent.length = 2 ∧
      (started.afterRequests requests).state ≠ .halted := by
  have hstart : (ofBus bus).result = .ok started := rfl
  have hvisited : (sinceRestart (started.answers requests)).filterMap
      Answered.visited? = [8, 10] := rfl
  have hran : (sinceRestart (started.answers requests)).filterMap
      Answered.ran? = [.nop, .nop] := rfl
  obtain ⟨hsuffix, hlength, hhalted⟩ :=
    remembers_latest_steps hstart requests
  rw [hvisited] at hsuffix hlength
  refine ⟨hstart, hsuffix, hlength, fun hstate => ?_⟩
  obtain ⟨answer, hanswer, value, hstops⟩ := hhalted.mp hstate
  have hstop : .stop value ∈ (sinceRestart (started.answers requests)).filterMap
      Answered.ran? := List.mem_filterMap.mpr ⟨answer, hanswer, hstops⟩
  rw [hran] at hstop
  simp at hstop

end RequestsWitness

end MegaDrive
