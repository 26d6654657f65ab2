/-
The four ways in which a step can go: its opcode cannot be read, it cannot be
decoded, its instruction faults, or it succeeds.  Each is said once as the
whole outcome, and a step goes in one of them.  Steps in a row follow.
-/
import MegaDrive.Machine.Step

namespace MegaDrive

namespace Exec

variable {α : Type}

theorem repairing_of_ok {body : Exec α} {machine : Machine} {value : α}
    (hbody : (body machine).result = .ok value)
    (repair : Machine → Machine) :
    body.repairing repair machine = body machine := by
  simp only [repairing, hbody]

theorem repairing_of_error {body : Exec α} {machine : Machine}
    {cause : Fault} (hbody : (body machine).result = .error cause)
    (repair : Machine → Machine) :
    body.repairing repair machine =
      ⟨.error cause, repair (body machine).machine, (body machine).events⟩ := by
  simp only [repairing, hbody]

end Exec

namespace Machine

/-- The machine once the opcode has been read and before it is decoded. -/
def fetched (machine : Machine) (opcode : Word) : Machine :=
  { machine with ir := opcode }

/-- The machine on which a decoded instruction runs: the program counter has
passed it already. -/
def begun (machine : Machine) (opcode : Word) (decoded : Decoded) : Machine :=
  { machine.fetched opcode with pc := machine.pc + decoded.length }

/-- The machine after an instruction that succeeded, with the step in its
history. -/
def recorded (machine : Machine) (start : Address) : Machine :=
  { machine with history := machine.history.push start }

section Steps

variable {machine : Machine}

theorem step_of_unreadable {cause : Fault}
    (hread : (machine.bus.read machine.pc .word).result = .error cause) :
    step machine =
      ⟨.error cause, machine,
        (machine.bus.read machine.pc .word).events⟩ := by
  simp only [step, Exec.bind_apply, Exec.current_apply, Outcome.andThen_ok,
    Outcome.after_nil, Exec.readMemory_apply, hread, Outcome.andThen_error]

/-- A step whose opcode was read goes on with decoding. -/
theorem step_of_readable {word : Long}
    (hread : (machine.bus.read machine.pc .word).result = .ok word) :
    step machine =
      ((Outcome.mk (machine.bus.decode machine.pc).result
          (machine.fetched (word.setWidth 16))
          (machine.bus.decode machine.pc).events).andThen fun decoded => do
        Exec.jump (machine.pc + decoded.length)
        Exec.repairing decoded.instruction.execute fun reached =>
          { reached with pc := machine.pc }
        Exec.update fun reached => reached.recorded machine.pc
        return decoded.instruction).after
          (machine.bus.read machine.pc .word).events := by
  simp only [step, Exec.bind_apply, Exec.current_apply, Outcome.andThen_ok,
    Outcome.after_nil, Exec.readMemory_apply, hread, Exec.update_apply, decode,
    Exec.ask_apply]
  rfl

theorem step_of_undecodable {word : Long} {cause : Fault}
    (hread : (machine.bus.read machine.pc .word).result = .ok word)
    (hdecode : (machine.bus.decode machine.pc).result = .error cause) :
    step machine =
      ⟨.error cause, machine.fetched (word.setWidth 16),
        (machine.bus.read machine.pc .word).events ++
          (machine.bus.decode machine.pc).events⟩ := by
  rw [step_of_readable hread, hdecode, Outcome.andThen_error,
    Outcome.after_mk]

theorem step_of_executeFault {word : Long} {decoded : Decoded}
    {cause : Fault}
    (hread : (machine.bus.read machine.pc .word).result = .ok word)
    (hdecode : (machine.bus.decode machine.pc).result = .ok decoded)
    (hexecute : (decoded.instruction.execute
      (machine.begun (word.setWidth 16) decoded)).result = .error cause) :
    step machine =
      ⟨.error cause,
        { (decoded.instruction.execute
            (machine.begun (word.setWidth 16) decoded)).machine with
          pc := machine.pc },
        (machine.bus.read machine.pc .word).events ++
          ((machine.bus.decode machine.pc).events ++
            (decoded.instruction.execute
              (machine.begun (word.setWidth 16) decoded)).events)⟩ := by
  have hrun := Exec.repairing_of_error hexecute
    fun reached => { reached with pc := machine.pc }
  rw [step_of_readable hread, hdecode, Outcome.andThen_ok, Exec.bind_apply,
    Exec.jump_apply, Outcome.andThen_ok, Outcome.after_nil, Exec.bind_apply]
  change (((Exec.repairing decoded.instruction.execute _
    (machine.begun (word.setWidth 16) decoded)).andThen _).after _).after _ = _
  rw [hrun, Outcome.andThen_error, Outcome.after_mk, Outcome.after_mk]

theorem step_of_ok {word : Long} {decoded : Decoded}
    (hread : (machine.bus.read machine.pc .word).result = .ok word)
    (hdecode : (machine.bus.decode machine.pc).result = .ok decoded)
    (hexecute : (decoded.instruction.execute
      (machine.begun (word.setWidth 16) decoded)).result = .ok ()) :
    step machine =
      ⟨.ok decoded.instruction,
        (decoded.instruction.execute
          (machine.begun (word.setWidth 16) decoded)).machine.recorded
            machine.pc,
        (machine.bus.read machine.pc .word).events ++
          ((machine.bus.decode machine.pc).events ++
            (decoded.instruction.execute
              (machine.begun (word.setWidth 16) decoded)).events)⟩ := by
  have hrun := Exec.repairing_of_ok hexecute
    fun reached => { reached with pc := machine.pc }
  rw [step_of_readable hread, hdecode, Outcome.andThen_ok, Exec.bind_apply,
    Exec.jump_apply, Outcome.andThen_ok, Outcome.after_nil, Exec.bind_apply]
  change (((Exec.repairing decoded.instruction.execute _
    (machine.begun (word.setWidth 16) decoded)).andThen _).after _).after _ = _
  rw [hrun, Outcome.andThen_of_ok hexecute]
  simp only [Exec.bind_apply, Exec.update_apply, Outcome.andThen_ok,
    Exec.pure_apply, Outcome.after_mk, List.append_nil]

/-- What a step that succeeded has done. -/
theorem exists_of_step_ok {instruction : Instruction}
    (hstep : (step machine).result = .ok instruction) :
    ∃ (word : Long) (decoded : Decoded),
      (machine.bus.read machine.pc .word).result = .ok word ∧
      (machine.bus.decode machine.pc).result = .ok decoded ∧
      decoded.instruction = instruction ∧
      (instruction.execute
        (machine.begun (word.setWidth 16) decoded)).result = .ok () ∧
      (step machine).machine =
        (instruction.execute
          (machine.begun (word.setWidth 16) decoded)).machine.recorded
            machine.pc := by
  cases hread : (machine.bus.read machine.pc .word).result with
  | error cause =>
      rw [step_of_unreadable hread] at hstep
      cases hstep
  | ok word =>
      cases hdecode : (machine.bus.decode machine.pc).result with
      | error cause =>
          rw [step_of_undecodable hread hdecode] at hstep
          cases hstep
      | ok decoded =>
          cases hexecute : (decoded.instruction.execute
              (machine.begun (word.setWidth 16) decoded)).result with
          | error cause =>
              rw [step_of_executeFault hread hdecode hexecute] at hstep
              cases hstep
          | ok done =>
              have hwhole := step_of_ok hread hdecode hexecute
              rw [hwhole] at hstep
              cases hstep
              exact ⟨word, decoded, rfl, rfl, rfl, hexecute,
                congrArg Outcome.machine hwhole⟩

end Steps

/-- The machine after this many steps, whether or not some of them fault. -/
def afterSteps (machine : Machine) : Nat → Machine
  | 0 => machine
  | n + 1 => afterSteps (step machine).machine n

/-- The instructions that succeed among so many steps, in order. -/
def performed (machine : Machine) : Nat → List Instruction
  | 0 => []
  | n + 1 =>
      let later := performed (step machine).machine n
      match (step machine).result with
      | .ok instruction => instruction :: later
      | .error _ => later

theorem afterSteps_succ (machine : Machine) (n : Nat) :
    machine.afterSteps (n + 1) = (step (machine.afterSteps n)).machine := by
  induction n generalizing machine with
  | zero => rfl
  | succ n ih => exact ih (step machine).machine

end Machine

end MegaDrive
