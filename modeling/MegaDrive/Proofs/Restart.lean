/-
Coming out of reset, the first time and again.  The two addresses that a
machine starts from stand in the cartridge, and no request touches that.  Main
statement: an image starts a machine exactly when it has room for the two
addresses and fits the console, and whatever is asked of that machine
afterwards, a reset brings back all but the bus.
-/
import MegaDrive.Command.Session
import MegaDrive.Proofs.CodeMemory
import MegaDrive.Proofs.Requests

namespace MegaDrive

theorem Cartridge.ext_image {left right : Cartridge}
    (himage : left.image = right.image) : left = right := by
  cases left
  cases right
  cases himage
  rfl

section Vectors

variable (cartridge : Cartridge) {address : Address} {width : Width}

theorem Cartridge.load_of_pastEnd (haligned : ¬ Misaligned address width)
    (hend : cartridge.image.size < address.toNat + width.bytes) :
    cartridge.load address width = .error (.pastEnd address) :=
  Storage.load_of_pastEnd _ haligned hend

theorem Cartridge.exists_load (address : Address) (width : Width)
    (haligned : ¬ Misaligned address width)
    (hfits : address.toNat + width.bytes ≤ cartridge.image.size) :
    ∃ value, cartridge.load address width = .ok value := by
  have hload := mt (BigEndian.load?_eq_none_iff cartridge.image.toVector
    address.toNat width).mp (Nat.not_lt.mpr hfits)
  obtain ⟨value, hvalue⟩ := Option.ne_none_iff_exists'.mp hload
  exact ⟨value, Storage.load_of_some _ haligned hvalue⟩

end Vectors

namespace Bus

theorem initialStackPointer_eq (bus : Bus) :
    bus.initialStackPointer = .quiet (bus.cartridge.load 0 .long) :=
  bus.read_cartridge .long rfl

theorem initialPc_eq (bus : Bus) :
    bus.initialPc = .quiet (bus.cartridge.load 4 .long) :=
  bus.read_cartridge .long rfl

/-- A write never gets into the cartridge. -/
theorem Became.cartridge {before after : Bus} (hbecame : before.Became after) :
    after.cartridge = before.cartridge := by
  cases hbecame with
  | unwritten => rfl
  | written hwrite =>
      exact Cartridge.ext_image (sameOutside_of_write hwrite).cartridge

end Bus

namespace Machine

variable {machine : Machine}

section Resets

variable {stackPointer pc : Long}

/-- What a reset comes to, by the two addresses that it reads. -/
theorem reset_of_loads
    (hpointer : machine.bus.cartridge.load 0 .long = .ok stackPointer)
    (hpc : machine.bus.cartridge.load 4 .long = .ok pc) :
    reset machine = ⟨.ok (), machine.restarted stackPointer pc, []⟩ := by
  simp only [reset, Exec.bind_apply, Exec.ask_apply, Exec.update_apply,
    Bus.initialStackPointer_eq, Bus.initialPc_eq, Reply.result_quiet,
    Reply.events_quiet, hpointer, hpc, Outcome.andThen_ok, Outcome.after_nil]

theorem reset_of_noStackPointer {fault : Fault}
    (hpointer : machine.bus.cartridge.load 0 .long = .error fault) :
    reset machine = ⟨.error fault, machine, []⟩ := by
  simp only [reset, Exec.bind_apply, Exec.ask_apply,
    Bus.initialStackPointer_eq, Reply.result_quiet, Reply.events_quiet,
    hpointer, Outcome.andThen_error]

theorem reset_of_noPc {fault : Fault}
    (hpointer : machine.bus.cartridge.load 0 .long = .ok stackPointer)
    (hpc : machine.bus.cartridge.load 4 .long = .error fault) :
    reset machine = ⟨.error fault, machine, []⟩ := by
  simp only [reset, Exec.bind_apply, Exec.ask_apply,
    Bus.initialStackPointer_eq, Bus.initialPc_eq, Reply.result_quiet,
    Reply.events_quiet, hpointer, hpc, Outcome.andThen_ok, Outcome.after_nil,
    Outcome.andThen_error]

/-- A reset succeeds exactly when the image holds both addresses. -/
theorem result_reset (machine : Machine) :
    (reset machine).result =
      if machine.bus.cartridge.image.size < 4 then .error (.pastEnd 0)
      else if machine.bus.cartridge.image.size < 8 then .error (.pastEnd 4)
      else .ok () := by
  split
  next hshort =>
    rw [reset_of_noStackPointer
      (Cartridge.load_of_pastEnd _ (by decide) hshort)]
  next hpointer =>
    obtain ⟨stackPointer, hload⟩ := machine.bus.cartridge.exists_load 0 .long
      (by decide) (Nat.le_of_not_lt hpointer)
    split
    next hshort =>
      rw [reset_of_noPc hload (Cartridge.load_of_pastEnd _ (by decide) hshort)]
    next hpc =>
      obtain ⟨pc, hload'⟩ := machine.bus.cartridge.exists_load 4 .long
        (by decide) (Nat.le_of_not_lt hpc)
      rw [reset_of_loads hload hload']

end Resets

/-- A request leaves the bus alone or writes to it once. -/
theorem became_perform (machine : Machine) (request : Request) :
    machine.bus.Became (request.perform machine).machine.bus := by
  cases hresult : (request.perform machine).result with
  | error fault =>
      obtain ⟨opcode, hmachine⟩ := exists_fetched_of_refused hresult
      rw [hmachine]
      exact .unwritten
  | ok done =>
      cases request with
      | step =>
          obtain ⟨instruction, hstep, -, hmachine⟩ :=
            Exec.of_answering_ok hresult
          rw [show (Request.step.perform machine).machine = _ from hmachine]
          exact (machine_of_step_ok hstep).1
      | execute instruction =>
          obtain ⟨_, hexecute, -, hmachine⟩ := Exec.of_answering_ok hresult
          obtain ⟨bus, registers, pc, sr, hbecame, hreached⟩ :=
            Instruction.machine_of_execute_ok hexecute
          rw [show ((Request.execute instruction).perform machine).machine = _
            from hmachine.trans hreached]
          exact hbecame
      | reset =>
          obtain ⟨_, hreset, -, hmachine⟩ := Exec.of_answering_ok hresult
          obtain ⟨stackPointer, pc, -, -, hrestarted⟩ := of_reset_ok hreset
          rw [show (Request.reset.perform machine).machine = _ from
            hmachine.trans hrestarted]
          exact .unwritten
      | write address width value =>
          obtain ⟨_, hwrite, -, hmachine⟩ := Exec.of_answering_ok hresult
          obtain ⟨bus, hbus, hstored⟩ := Exec.exists_of_writeMemory_ok hwrite
          rw [show ((Request.write address width value).perform machine).machine =
            _ from hmachine.trans hstored]
          exact .written hbus
      | alter registers pc sr ir => exact .unwritten

theorem cartridge_afterRequests (machine : Machine)
    (requests : List Request) :
    (machine.afterRequests requests).bus.cartridge = machine.bus.cartridge := by
  induction requests generalizing machine with
  | nil => rfl
  | cons request rest ih =>
      exact (ih _).trans (machine.became_perform request).cartridge

end Machine

namespace Session

open Machine

variable {image : Array Byte} {controller : Long}

/-- To boot an image that fits is a reset on a bus at power-on. -/
theorem result_boot_of_fits (hsize : image.size ≤ Region.cartridge.length) :
    (boot image controller).result =
      let outcome := reset (blank (Bus.powerOn ⟨image, hsize⟩ controller))
      outcome.result.map fun _ => outcome.machine := by
  rw [boot, Bus.ofImage_of_fits hsize]
  rfl

theorem boot_of_tooLarge (hsize : 0x400000 < image.size) :
    boot image controller = .quiet (.error (.imageTooLarge image.size)) := by
  have hlarge : ¬ image.size ≤ Region.cartridge.length := Nat.not_le.mpr hsize
  rw [boot, Bus.ofImage, Cartridge.ofImage, dif_neg hlarge]
  rfl

/-- A machine that has been booted has started from the two addresses that its
cartridge holds. -/
theorem of_boot_ok {machine : Machine}
    (hboot : (boot image controller).result = .ok machine) :
    ∃ stackPointer pc, machine.bus.cartridge.load 0 .long = .ok stackPointer ∧
      machine.bus.cartridge.load 4 .long = .ok pc ∧
      machine = (blank machine.bus).restarted stackPointer pc := by
  by_cases hsize : image.size ≤ Region.cartridge.length
  · rw [result_boot_of_fits hsize] at hboot
    obtain ⟨_, hreset, hmachine⟩ := (map_eq_ok_iff _ _ _).mp hboot
    obtain ⟨stackPointer, pc, hpointer, hpc, hrestarted⟩ := of_reset_ok hreset
    rw [Bus.initialStackPointer_eq] at hpointer
    rw [Bus.initialPc_eq] at hpc
    rw [hrestarted] at hmachine
    subst hmachine
    exact ⟨stackPointer, pc, hpointer, hpc, rfl⟩
  · rw [boot_of_tooLarge (Nat.lt_of_not_le hsize)] at hboot
    cases hboot

theorem result_boot (image : Array Byte) (controller : Long) :
    (boot image controller).result.map (fun _ => ()) =
      if 0x400000 < image.size then .error (.imageTooLarge image.size)
      else if image.size < 4 then .error (.pastEnd 0)
      else if image.size < 8 then .error (.pastEnd 4)
      else .ok () := by
  split
  next hlarge => rw [boot_of_tooLarge hlarge]; rfl
  next hfits =>
    have hsize : image.size ≤ 0x400000 := Nat.le_of_not_lt hfits
    rw [result_boot_of_fits hsize]
    dsimp only
    rw [result_reset]
    change Except.map _ (Except.map _ (if image.size < 4 then _ else
      if image.size < 8 then _ else _)) = _
    split_ifs <;> rfl

/-- An image starts a machine exactly when it holds the two addresses that the
machine starts from and fits the console; otherwise it is refused for what it
lacks.  Whatever is asked of the machine afterwards, a reset succeeds and
brings back all that the machine started with except the bus, which stays, so
that a second reset changes nothing. -/
theorem boots_and_restarts (image : Array Byte) (controller : Long) :
    ((∃ start, (boot image controller).result = .ok start) ↔
      8 ≤ image.size ∧ image.size ≤ 0x400000) ∧
    (∀ fault, (boot image controller).result = .error fault ↔
      0x400000 < image.size ∧ fault = .imageTooLarge image.size ∨
      image.size < 4 ∧ fault = .pastEnd 0 ∨
      4 ≤ image.size ∧ image.size < 8 ∧ fault = .pastEnd 4) ∧
    (∀ start, (boot image controller).result = .ok start →
      ∀ requests,
        let reached := start.afterRequests requests
        let renewed := (reset reached).machine
        (reset reached).result = .ok () ∧
          renewed = { start with bus := reached.bus } ∧
          (reset renewed).result = .ok () ∧
          (reset renewed).machine = renewed) := by
  have hboot := result_boot image controller
  refine ⟨?_, ?_, ?_⟩
  · have hok : (∃ start, (boot image controller).result = .ok start) ↔
        (boot image controller).result.map (fun _ => ()) = .ok () := by
      cases (boot image controller).result <;> simp [Except.map]
    rw [hok, hboot]
    split_ifs <;> simp <;> omega
  · intro fault
    have herror : (boot image controller).result = .error fault ↔
        (boot image controller).result.map (fun _ => ()) = .error fault := by
      cases (boot image controller).result <;> simp [Except.map]
    rw [herror, hboot]
    split_ifs <;> grind
  · intro start hstart requests reached renewed
    obtain ⟨stackPointer, pc, hpointer, hpc, hrestarted⟩ := of_boot_ok hstart
    have hcartridge := start.cartridge_afterRequests requests
    rw [← hcartridge] at hpointer hpc
    have hreset : reset reached = _ := reset_of_loads hpointer hpc
    have hagain : reset (reached.restarted stackPointer pc) = _ :=
      reset_of_loads hpointer hpc
    have hrenewed : renewed = reached.restarted stackPointer pc :=
      congrArg Outcome.machine hreset
    rw [hrenewed, hreset, hagain, hrestarted]
    exact ⟨rfl, rfl, rfl, rfl⟩

end Session

namespace RestartWitness

open Session Machine

/-- The two addresses, and a wait where the processor starts. -/
def image : Array Byte :=
  #[0x00, 0xFF, 0x10, 0x00, 0x00, 0x00, 0x00, 0x08, 0x4E, 0x71]

def start : Machine :=
  (blank (Bus.powerOn ⟨image, by decide⟩ 5)).restarted 0xFF1000 8

/-- The latch is written, and the processor waits and halts. -/
def requests : List Request :=
  [.write 0xA14000 .long 0x53454741, .step, .write 0 .byte 1,
    .execute (.stop 0x2700)]

theorem boots_and_restarts_halted :
    (boot image 5).result = .ok start ∧
      ((start.afterRequests requests).state = .halted ∧
        (start.afterRequests requests).history.recent = [8]) ∧
      (reset (start.afterRequests requests)).result = .ok () ∧
      (reset (start.afterRequests requests)).machine.state = .running ∧
      (reset (start.afterRequests requests)).machine.history.recent = [] ∧
      (reset (start.afterRequests requests)).machine.bus.latch =
        0x53454741 := by
  have hboot : (boot image 5).result = .ok start := rfl
  have hhalted : (start.afterRequests requests).state = .halted ∧
      (start.afterRequests requests).history.recent = [8] := ⟨rfl, rfl⟩
  have hlatch : (start.afterRequests requests).bus.latch = 0x53454741 := rfl
  obtain ⟨hresult, hrenewed, -, -⟩ :=
    (boots_and_restarts image 5).2.2 start hboot requests
  rw [hrenewed]
  exact ⟨hboot, hhalted, hresult, rfl, rfl, hlatch⟩

end RestartWitness

end MegaDrive
