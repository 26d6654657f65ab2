/-
Activities of the machine: each may change the machine, note events and end in
a fault.  A fault does not undo what was done before it, so that an activity
leaves nothing behind is a property to be shown of it.
-/
import MegaDrive.Machine

namespace MegaDrive

/-- What an activity comes to: its result, the machine it leaves whether it
succeeds or not, and the events it noted. -/
structure Outcome (α : Type) where
  result : Except Fault α
  machine : Machine
  events : List Event

def Exec (α : Type) : Type := Machine → Outcome α

namespace Outcome

variable {α β : Type}

/-- The same outcome with events before its own. -/
def after (earlier : List Event) (outcome : Outcome α) : Outcome α :=
  { outcome with events := earlier ++ outcome.events }

/-- Go on after a success with the machine it left; a fault ends the work. -/
def andThen (first : Outcome α) (next : α → Exec β) : Outcome β :=
  match first.result with
  | .ok value => (next value first.machine).after first.events
  | .error fault => ⟨.error fault, first.machine, first.events⟩

@[simp] theorem result_after (earlier : List Event) (outcome : Outcome α) :
    (outcome.after earlier).result = outcome.result := rfl

@[simp] theorem machine_after (earlier : List Event) (outcome : Outcome α) :
    (outcome.after earlier).machine = outcome.machine := rfl

@[simp] theorem events_after (earlier : List Event) (outcome : Outcome α) :
    (outcome.after earlier).events = earlier ++ outcome.events := rfl

@[simp] theorem after_nil (outcome : Outcome α) :
    outcome.after [] = outcome := rfl

@[simp] theorem after_mk (earlier : List Event) (result : Except Fault α)
    (machine : Machine) (events : List Event) :
    after earlier ⟨result, machine, events⟩ =
      ⟨result, machine, earlier ++ events⟩ := rfl

@[simp] theorem andThen_ok (value : α) (machine : Machine)
    (events : List Event) (next : α → Exec β) :
    andThen ⟨.ok value, machine, events⟩ next =
      (next value machine).after events := rfl

@[simp] theorem andThen_error (fault : Fault) (machine : Machine)
    (events : List Event) (next : α → Exec β) :
    andThen ⟨.error fault, machine, events⟩ next =
      ⟨.error fault, machine, events⟩ := rfl

theorem andThen_of_ok {first : Outcome α} {value : α}
    (hfirst : first.result = .ok value) (next : α → Exec β) :
    first.andThen next = (next value first.machine).after first.events := by
  simp only [andThen, hfirst]

theorem andThen_of_error {first : Outcome α} {fault : Fault}
    (hfirst : first.result = .error fault) (next : α → Exec β) :
    first.andThen next = ⟨.error fault, first.machine, first.events⟩ := by
  simp only [andThen, hfirst]

end Outcome

namespace Exec

variable {α β : Type}

instance : Monad Exec where
  pure value := fun machine => ⟨.ok value, machine, []⟩
  bind first next := fun machine => (first machine).andThen next

@[simp] theorem pure_apply (value : α) (machine : Machine) :
    (pure value : Exec α) machine = ⟨.ok value, machine, []⟩ := rfl

@[simp] theorem bind_apply (first : Exec α) (next : α → Exec β)
    (machine : Machine) :
    (first >>= next) machine = (first machine).andThen next := rfl

def fault (cause : Fault) : Exec α :=
  fun machine => ⟨.error cause, machine, []⟩

/-- The machine as it is. -/
def current : Exec Machine :=
  fun machine => ⟨.ok machine, machine, []⟩

def update (change : Machine → Machine) : Exec Unit :=
  fun machine => ⟨.ok (), change machine, []⟩

def note (event : Event) : Exec Unit :=
  fun machine => ⟨.ok (), machine, [event]⟩

/-- Ask the bus something that does not change it. -/
def ask (question : Bus → Reply α) : Exec α :=
  fun machine =>
    let reply := question machine.bus
    ⟨reply.result, machine, reply.events⟩

def readMemory (address : Address) (width : Width) : Exec Long :=
  ask fun bus => bus.read address width

def writeMemory (address : Address) (width : Width) (value : Long) :
    Exec Unit :=
  fun machine =>
    let written := machine.bus.written address width value
    ⟨written.result, { machine with bus := written.bus }, written.events⟩

def updateRegisters (change : RegisterFile → RegisterFile) : Exec Unit :=
  update fun machine => { machine with registers := change machine.registers }

def readRegister (register : Register) (width : Width) : Exec Long :=
  fun machine => ⟨.ok (machine.registers.read register width), machine, []⟩

def writeRegister (register : Register) (width : Width) (value : Long) :
    Exec Unit :=
  updateRegisters fun registers => registers.write register width value

def jump (destination : Address) : Exec Unit :=
  update fun machine => { machine with pc := destination }

def setStatus (change : Status → Status) : Exec Unit :=
  update fun machine => { machine with sr := change machine.sr }

/-- The fault of an instruction that cannot run with these operands. -/
def unsupported : Exec α :=
  fun machine => ⟨.error (.unsupportedInstruction machine.ir), machine, []⟩

/-- After a fault of `body`, repair the machine it left. -/
def repairing (body : Exec α) (repair : Machine → Machine) : Exec α :=
  fun machine =>
    let reached := body machine
    match reached.result with
    | .ok _ => reached
    | .error _ => { reached with machine := repair reached.machine }

@[simp] theorem fault_apply (cause : Fault) (machine : Machine) :
    (fault cause : Exec α) machine = ⟨.error cause, machine, []⟩ := rfl

@[simp] theorem current_apply (machine : Machine) :
    current machine = ⟨.ok machine, machine, []⟩ := rfl

@[simp] theorem update_apply (change : Machine → Machine)
    (machine : Machine) :
    update change machine = ⟨.ok (), change machine, []⟩ := rfl

@[simp] theorem note_apply (event : Event) (machine : Machine) :
    note event machine = ⟨.ok (), machine, [event]⟩ := rfl

@[simp] theorem ask_apply (question : Bus → Reply α) (machine : Machine) :
    ask question machine =
      ⟨(question machine.bus).result, machine,
        (question machine.bus).events⟩ := rfl

@[simp] theorem readMemory_apply (address : Address) (width : Width)
    (machine : Machine) :
    readMemory address width machine =
      ⟨(machine.bus.read address width).result, machine,
        (machine.bus.read address width).events⟩ := rfl

@[simp] theorem updateRegisters_apply (change : RegisterFile → RegisterFile)
    (machine : Machine) :
    updateRegisters change machine =
      ⟨.ok (), { machine with registers := change machine.registers }, []⟩ :=
  rfl

@[simp] theorem readRegister_apply (register : Register) (width : Width)
    (machine : Machine) :
    readRegister register width machine =
      ⟨.ok (machine.registers.read register width), machine, []⟩ := rfl

@[simp] theorem writeRegister_apply (register : Register) (width : Width)
    (value : Long) (machine : Machine) :
    writeRegister register width value machine =
      ⟨.ok (),
        { machine with
          registers := machine.registers.write register width value }, []⟩ :=
  rfl

@[simp] theorem jump_apply (destination : Address) (machine : Machine) :
    jump destination machine =
      ⟨.ok (), { machine with pc := destination }, []⟩ := rfl

@[simp] theorem setStatus_apply (change : Status → Status)
    (machine : Machine) :
    setStatus change machine =
      ⟨.ok (), { machine with sr := change machine.sr }, []⟩ := rfl

@[simp] theorem unsupported_apply (machine : Machine) :
    (unsupported : Exec α) machine =
      ⟨.error (.unsupportedInstruction machine.ir), machine, []⟩ := rfl

theorem writeMemory_of_ok {machine : Machine} {address : Address}
    {width : Width} {value : Long} {bus : Bus}
    (hwrite : (machine.bus.write address width value).result = .ok bus) :
    writeMemory address width value machine =
      ⟨.ok (), { machine with bus := bus },
        (machine.bus.write address width value).events⟩ := by
  obtain ⟨hresult, hbus⟩ := Bus.of_write_ok hwrite
  rw [writeMemory, hresult, hbus]
  rfl

theorem writeMemory_of_error {machine : Machine} {address : Address}
    {width : Width} {value : Long} {cause : Fault}
    (hwrite : (machine.bus.write address width value).result = .error cause) :
    writeMemory address width value machine =
      ⟨.error cause, machine,
        (machine.bus.write address width value).events⟩ := by
  obtain ⟨hresult, hbus⟩ := Bus.of_write_error hwrite
  rw [writeMemory, hresult, hbus]
  rfl

end Exec

end MegaDrive
