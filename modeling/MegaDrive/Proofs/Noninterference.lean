/-
What a program cannot find out.  Two machines are alike when they agree on
everything but the upper status bits, the instruction register, the run state,
the history, the latch and the video ports.  Activities are compared in
lockstep, one rule for each way of building them.  Main statement: alike
machines take the same steps and stay alike.
-/
import MegaDrive.Proofs.BusRefinement
import MegaDrive.Proofs.FetchInduction
import MegaDrive.Proofs.Stepping

namespace MegaDrive

/-- Buses that agree on everything that can be read. -/
structure Bus.Alike (left right : Bus) : Prop where
  cartridge : left.cartridge = right.cartridge
  controller : left.controller = right.controller
  ram : left.ram = right.ram

/-- Machines that agree on their readable memory, their registers, the program
counter and the four flags. -/
structure Machine.Alike (left right : Machine) : Prop where
  bus : left.bus.Alike right.bus
  registers : left.registers = right.registers
  pc : left.pc = right.pc
  flags : left.sr.extractLsb' 0 4 = right.sr.extractLsb' 0 4

/-- Alike machines that have fetched the same opcode. -/
structure Machine.Twins (left right : Machine) : Prop
    extends Machine.Alike left right where
  ir : left.ir = right.ir

/-- The same fault, or values that are related. -/
inductive Paired {α β : Type} (related : α → β → Prop) :
    Except Fault α → Except Fault β → Prop
  | ok {left : α} {right : β} (hrelated : related left right) :
      Paired related (.ok left) (.ok right)
  | error (fault : Fault) : Paired related (.error fault) (.error fault)

theorem Paired.eq {α : Type} {left right : Except Fault α}
    (hpaired : Paired Eq left right) : left = right := by
  cases hpaired with
  | ok hrelated => rw [hrelated]
  | error fault => rfl

namespace Bus.Alike

variable {left right : Bus}

theorem read (halike : left.Alike right) (address : Address)
    (width : Width) : left.read address width = right.read address width := by
  unfold Bus.read
  rw [halike.cartridge, halike.controller, halike.ram]

theorem storeRam (halike : left.Alike right) (ram : Vector Byte 0x10000) :
    Bus.Alike { left with ram := ram } { right with ram := ram } :=
  ⟨halike.cartridge, halike.controller, rfl⟩

theorem storeLatch (halike : left.Alike right) (value other : Long) :
    Bus.Alike { left with latch := value } { right with latch := other } :=
  ⟨halike.cartridge, halike.controller, halike.ram⟩

theorem storeVideo (halike : left.Alike right) (video other : Vector Byte 16) :
    Bus.Alike { left with video := video } { right with video := other } :=
  ⟨halike.cartridge, halike.controller, halike.ram⟩

/-- The work RAM takes a store on both sides or on neither. -/
theorem write_workRam {address : Address} (halike : left.Alike right)
    (hat : Region.at? address = some .workRam) (width : Width) (value : Long) :
    Paired Alike (left.write address width value).result
      (right.write address width value).result := by
  rw [Bus.write_workRam _ _ _ hat, Bus.write_workRam _ _ _ hat, halike.ram,
    Reply.result_quiet, Reply.result_quiet]
  cases Storage.store right.ram Region.workRam.start address width value with
  | ok ram => exact .ok (halike.storeRam ram)
  | error fault => exact .error fault

/-- Whether the latch takes a value does not depend on what it holds. -/
theorem write_latch {address : Address} (halike : left.Alike right)
    (hat : Region.at? address = some .latch) (width : Width) (value : Long) :
    Paired Alike (left.write address width value).result
      (right.write address width value).result := by
  have hnone : ∀ bus : Bus,
      Bus.latchAfter? bus.latch (Region.latch.offset address) width value =
        none ↔ _ := fun bus => FlatBus.latchAfter?_eq_none_iff bus.latch _ _ _
  cases hleft : Bus.latchAfter? left.latch (Region.latch.offset address) width
      value with
  | none =>
      have hright := (hnone right).mpr ((hnone left).mp hleft)
      rw [Bus.write_latch_of_none _ _ _ hat hleft,
        Bus.write_latch_of_none _ _ _ hat hright]
      exact .error _
  | some stored =>
      cases hright : Bus.latchAfter? right.latch
          (Region.latch.offset address) width value with
      | none =>
          have hleft' := (hnone left).mpr ((hnone right).mp hright)
          rw [hleft] at hleft'
          cases hleft'
      | some other =>
          rw [Bus.write_latch_of_some _ _ _ hat hleft,
            Bus.write_latch_of_some _ _ _ hat hright]
          exact .ok (halike.storeLatch stored other)

theorem write_video {address : Address} (halike : left.Alike right)
    (hat : Region.at? address = some .video) (width : Width) (value : Long) :
    Paired Alike (left.write address width value).result
      (right.write address width value).result := by
  by_cases hwidth : width = .byte
  · rw [Bus.write_video_of_byte _ _ _ hat hwidth,
      Bus.write_video_of_byte _ _ _ hat hwidth]
    exact .error _
  · by_cases hfits : Region.video.offset address + width.bytes ≤ 16
    · rw [Bus.write_video_of_fits _ _ _ hat hwidth hfits,
        Bus.write_video_of_fits _ _ _ hat hwidth hfits]
      exact .ok (halike.storeVideo _ _)
    · have hend := Nat.lt_of_not_le hfits
      rw [Bus.write_video_of_pastEnd _ _ _ hat hwidth hend,
        Bus.write_video_of_pastEnd _ _ _ hat hwidth hend]
      exact .error _

theorem write (halike : left.Alike right) (address : Address)
    (width : Width) (value : Long) :
    Paired Alike (left.write address width value).result
      (right.write address width value).result := by
  cases hat : Region.at? address with
  | none =>
      rw [Bus.write_nowhere _ _ _ hat, Bus.write_nowhere _ _ _ hat]
      exact .error _
  | some region =>
      cases region with
      | cartridge =>
          rw [Bus.write_cartridge _ _ _ hat, Bus.write_cartridge _ _ _ hat]
          exact .error _
      | workRam => exact halike.write_workRam hat width value
      | controller =>
          rw [Bus.write_controller _ _ _ hat, Bus.write_controller _ _ _ hat]
          exact .ok halike
      | latch => exact halike.write_latch hat width value
      | video => exact halike.write_video hat width value

end Bus.Alike

namespace Fetch

variable {α β : Type}

/-- A piece of reading that sees only what can be read. -/
def Open (fetch : Fetch α) : Prop :=
  ∀ left right : Bus, left.Alike right → ∀ place,
    fetch left place = fetch right place

theorem Open.bind {first : Fetch α} {next : α → Fetch β}
    (hfirst : first.Open) (hnext : ∀ value, (next value).Open) :
    (first >>= next).Open := by
  intro left right halike place
  rw [bind_apply, bind_apply, hfirst left right halike place]
  apply congrArg (first right place >>= ·)
  funext reached
  exact hnext reached.1 left right halike reached.2

theorem open_word : Open word := by
  intro left right halike place
  rw [word, word, halike.read]

theorem open_long : Open long := by
  intro left right halike place
  rw [long, long, halike.read]

theorem open_composes : Composes Open where
  pure _ := fun _ _ _ _ => rfl
  fault _ := fun _ _ _ _ => rfl
  word := open_word
  long := open_long
  bind := Open.bind

end Fetch

theorem Bus.Alike.decode {left right : Bus} (halike : left.Alike right)
    (pc : Address) : left.decode pc = right.decode pc := by
  unfold Bus.decode
  exact congrArg (· >>= _) (Fetch.open_composes.code left right halike pc)

namespace Machine

/-- A condition reads the four flags only. -/
theorem Alike.holds {left right : Machine} (halike : left.Alike right)
    (condition : Condition) :
    condition.holds left.sr = condition.holds right.sr := by
  have hflag : ∀ i < 4, left.sr.getLsbD i = right.sr.getLsbD i := by
    intro i hi
    have hbit := congrArg (BitVec.getLsbD · i) halike.flags
    simpa [hi] using hbit
  have hcarry : left.sr.carry = right.sr.carry := hflag 0 (by decide)
  have hoverflow : left.sr.overflow = right.sr.overflow := hflag 1 (by decide)
  have hzero : left.sr.zero = right.sr.zero := hflag 2 (by decide)
  have hnegative : left.sr.negative = right.sr.negative := hflag 3 (by decide)
  cases condition <;>
    simp only [Condition.holds, hcarry, hoverflow, hzero, hnegative]

namespace Twins

variable {left right : Machine}

theorem withBus (htwins : left.Twins right) {bus bus' : Bus}
    (hbus : bus.Alike bus') :
    Twins { left with bus := bus } { right with bus := bus' } :=
  ⟨⟨hbus, htwins.registers, htwins.pc, htwins.flags⟩, htwins.ir⟩

theorem withRegisters (htwins : left.Twins right)
    (change : RegisterFile → RegisterFile) :
    Twins { left with registers := change left.registers }
      { right with registers := change right.registers } :=
  ⟨⟨htwins.bus, congrArg change htwins.registers, htwins.pc, htwins.flags⟩,
    htwins.ir⟩

theorem withPc (htwins : left.Twins right) (pc : Address) :
    Twins { left with pc := pc } { right with pc := pc } :=
  ⟨⟨htwins.bus, htwins.registers, rfl, htwins.flags⟩, htwins.ir⟩

theorem withStatus (htwins : left.Twins right) {sr sr' : Status}
    (hflags : sr.extractLsb' 0 4 = sr'.extractLsb' 0 4) :
    Twins { left with sr := sr } { right with sr := sr' } :=
  ⟨⟨htwins.bus, htwins.registers, htwins.pc, hflags⟩, htwins.ir⟩

end Twins

end Machine

namespace Exec

open Machine

variable {α β γ δ : Type}

/-- On twins the two activities come to paired results and leave twins. -/
def Lockstep (related : α → β → Prop) (left : Exec α) (right : Exec β) :
    Prop :=
  ∀ first second : Machine, first.Twins second →
    Paired related (left first).result (right second).result ∧
      (left first).machine.Twins (right second).machine

theorem Lockstep.bind {related : α → β → Prop} {outcome : γ → δ → Prop}
    {left : Exec α} {right : Exec β} {next : α → Exec γ}
    {next' : β → Exec δ} (hfirst : Lockstep related left right)
    (hnext : ∀ {value other}, related value other →
      Lockstep outcome (next value) (next' other)) :
    Lockstep outcome (left >>= next) (right >>= next') := by
  intro first second htwins
  obtain ⟨hresult, hmachine⟩ := hfirst first second htwins
  rw [bind_apply, bind_apply]
  generalize left first = reached at hresult hmachine ⊢
  generalize right second = reached' at hresult hmachine ⊢
  obtain ⟨result, machine, events⟩ := reached
  obtain ⟨result', machine', events'⟩ := reached'
  cases hresult with
  | ok hrelated =>
      rw [Outcome.andThen_ok, Outcome.andThen_ok]
      exact hnext hrelated machine machine' hmachine
  | error fault => exact ⟨.error fault, hmachine⟩

/-- An activity whose twins come to the very same. -/
abbrev Steadfast (activity : Exec α) : Prop := Lockstep Eq activity activity

theorem lockstep_pure (value : α) : Steadfast (pure value) :=
  fun _ _ htwins => ⟨.ok rfl, htwins⟩

theorem lockstep_fault (cause : Fault) : Steadfast (fault cause : Exec α) :=
  fun _ _ htwins => ⟨.error cause, htwins⟩

theorem lockstep_current : Lockstep Twins current current :=
  fun _ _ htwins => ⟨.ok htwins, htwins⟩

theorem lockstep_note (event : Event) : Steadfast (note event) :=
  fun _ _ htwins => ⟨.ok rfl, htwins⟩

theorem lockstep_unsupported : Steadfast (unsupported : Exec α) := by
  intro left right htwins
  rw [unsupported_apply, unsupported_apply, htwins.ir]
  exact ⟨.error _, htwins⟩

theorem lockstep_readMemory (address : Address) (width : Width) :
    Steadfast (readMemory address width) := by
  intro left right htwins
  rw [readMemory_apply, readMemory_apply, htwins.bus.read]
  cases (right.bus.read address width).result with
  | ok value => exact ⟨.ok rfl, htwins⟩
  | error fault => exact ⟨.error fault, htwins⟩

theorem lockstep_writeMemory (address : Address) (width : Width)
    (value : Long) : Steadfast (writeMemory address width value) := by
  intro left right htwins
  have hpaired := htwins.bus.write address width value
  generalize hleft : (left.bus.write address width value).result = result
    at hpaired
  generalize hright : (right.bus.write address width value).result = result'
    at hpaired
  cases hpaired with
  | ok hbus =>
      rw [writeMemory_of_ok hleft, writeMemory_of_ok hright]
      exact ⟨.ok rfl, htwins.withBus hbus⟩
  | error fault =>
      rw [writeMemory_of_error hleft, writeMemory_of_error hright]
      exact ⟨.error fault, htwins⟩

theorem lockstep_readRegister (register : Register) (width : Width) :
    Steadfast (readRegister register width) := by
  intro left right htwins
  rw [readRegister_apply, readRegister_apply, htwins.registers]
  exact ⟨.ok rfl, htwins⟩

theorem lockstep_updateRegisters (change : RegisterFile → RegisterFile) :
    Steadfast (updateRegisters change) :=
  fun _ _ htwins => ⟨.ok rfl, htwins.withRegisters change⟩

theorem lockstep_jump (destination : Address) : Steadfast (jump destination) :=
  fun _ _ htwins => ⟨.ok rfl, htwins.withPc destination⟩

/-- A change of the status keeps the flags alike when it does not carry upper
bits into them. -/
theorem lockstep_setStatus {change : Status → Status}
    (hchange : ∀ sr sr' : Status,
      sr.extractLsb' 0 4 = sr'.extractLsb' 0 4 →
        (change sr).extractLsb' 0 4 = (change sr').extractLsb' 0 4) :
    Steadfast (setStatus change) :=
  fun _ _ htwins => ⟨.ok rfl, htwins.withStatus (hchange _ _ htwins.flags)⟩

end Exec

namespace Operand

open Exec Machine

theorem lockstep_load (operand : Operand) (width : Width) :
    Steadfast (operand.load width) := by
  refine lockstep_current.bind fun {left right} htwins => ?_
  rw [htwins.registers]
  cases operand with
  | register name => exact lockstep_readRegister name width
  | absolute address => exact lockstep_readMemory address width
  | indirect base postIncrement => exact lockstep_readMemory _ width
  | displaced base displacement => exact lockstep_readMemory _ width
  | immediate | pcDisplaced | branch => exact lockstep_fault _

theorem lockstep_advance (operand : Operand) (width : Width) :
    Steadfast (operand.advance width) := by
  unfold advance
  split
  · exact lockstep_updateRegisters _
  · exact lockstep_pure ()

theorem lockstep_branchAddress (operand : Operand) (width : Width) :
    Steadfast (operand.branchAddress width) := by
  refine lockstep_current.bind fun {left right} htwins => ?_
  rw [htwins.pc]
  cases operand with
  | branch displacement => exact lockstep_pure _
  | absolute | immediate | register | indirect | displaced | pcDisplaced =>
      exact lockstep_fault _

end Operand

namespace Instruction

open Exec Machine

theorem lockstep_moveValue (source : Operand) (width : Width) :
    Steadfast (moveValue source width) := by
  cases source with
  | immediate value => exact lockstep_pure _
  | pcDisplaced | branch => exact lockstep_unsupported
  | absolute | register | indirect | displaced =>
      exact Operand.lockstep_load _ width

theorem lockstep_moveStore (source destination : Operand) (width : Width)
    (value : Long) : Steadfast (moveStore source destination width value) := by
  refine lockstep_current.bind fun {left right} htwins => ?_
  rw [htwins.registers]
  cases destination with
  | register name => exact lockstep_pure ()
  | absolute address => exact lockstep_writeMemory address width value
  | indirect base postIncrement => exact lockstep_writeMemory _ width value
  | displaced base displacement => exact lockstep_writeMemory _ width value
  | immediate | pcDisplaced | branch => exact lockstep_unsupported

theorem lockstep_moveSettle (destination : Operand) (width : Width)
    (value : Long) : Steadfast (moveSettle destination width value) := by
  unfold moveSettle
  split
  · exact lockstep_updateRegisters _
  · exact lockstep_pure ()

theorem lockstep_executeMove (source destination : Operand) (width : Width) :
    Steadfast (executeMove source destination width) := by
  refine (lockstep_moveValue source width).bind ?_
  rintro value - rfl
  refine (lockstep_moveStore source destination width value).bind fun _ => ?_
  refine (Operand.lockstep_advance source width).bind fun _ => ?_
  refine (Operand.lockstep_advance destination width).bind fun _ => ?_
  exact lockstep_moveSettle destination width value

theorem lockstep_executeLea (target : Operand) (destination : Register) :
    Steadfast (executeLea target destination) := by
  refine lockstep_current.bind fun {left right} htwins => ?_
  rw [htwins.pc, htwins.registers]
  dsimp only
  split
  case h_5 => exact lockstep_fault _
  all_goals exact lockstep_updateRegisters _

/-- A comparison sets the four flags and reads none of them. -/
theorem lockstep_compare (width : Width) (value : Long) :
    Steadfast (setStatus fun status => status.compared width value) := by
  apply lockstep_setStatus
  intro sr sr' _
  simp only [Status.compared, BitVec.extractLsb'_append_eq_right]

theorem lockstep_executeTst (target : Operand) (width : Width) :
    Steadfast (executeTst target width) := by
  refine (Operand.lockstep_load target width).bind ?_
  rintro value - rfl
  refine (Operand.lockstep_advance target width).bind fun _ => ?_
  exact lockstep_compare width value

theorem lockstep_executeAndi (source destination : Operand) (width : Width) :
    Steadfast (executeAndi source destination width) := by
  unfold executeAndi
  split
  · refine (lockstep_readRegister _ .byte).bind ?_
    rintro value - rfl
    refine (lockstep_updateRegisters _).bind fun _ => ?_
    exact lockstep_compare .byte _
  · exact lockstep_unsupported

theorem lockstep_executeSubq (data destination : Operand) (width : Width) :
    Steadfast (executeSubq data destination width) := by
  unfold executeSubq
  split
  · refine (lockstep_readRegister _ .long).bind ?_
    rintro value - rfl
    exact lockstep_updateRegisters _
  · exact lockstep_unsupported

theorem lockstep_executeBranch (condition : Condition) (target : Operand)
    (width : Width) : Steadfast (executeBranch condition target width) := by
  refine (Operand.lockstep_branchAddress target width).bind ?_
  rintro destination - rfl
  refine lockstep_current.bind fun {left right} htwins => ?_
  rw [htwins.holds]
  split
  · exact lockstep_jump destination
  · exact lockstep_pure ()

theorem lockstep_executeBsr (target : Operand) (width : Width) :
    Steadfast (executeBsr target width) := by
  refine (Operand.lockstep_branchAddress target width).bind ?_
  rintro destination - rfl
  refine lockstep_current.bind fun {left right} htwins => ?_
  rw [htwins.registers, htwins.pc]
  refine (lockstep_writeMemory _ .long _).bind fun _ => ?_
  refine (lockstep_updateRegisters _).bind fun _ => ?_
  refine (lockstep_note _).bind fun _ => ?_
  exact lockstep_jump destination

theorem lockstep_executeRts : Steadfast executeRts := by
  refine lockstep_current.bind fun {left right} htwins => ?_
  rw [htwins.registers]
  refine (lockstep_readMemory _ .long).bind ?_
  rintro destination - rfl
  refine (lockstep_updateRegisters _).bind fun _ => ?_
  exact lockstep_jump destination

theorem lockstep_executeDbcc (condition : Condition) (counter : Register)
    (displacement : Word) :
    Steadfast (executeDbcc condition counter displacement) := by
  refine lockstep_current.bind fun {left right} htwins => ?_
  rw [htwins.holds, htwins.registers, htwins.pc]
  split
  · exact lockstep_unsupported
  · refine (lockstep_updateRegisters _).bind fun _ => ?_
    split
    · exact lockstep_pure ()
    · exact lockstep_jump _

theorem lockstep_executeStop (value : Word) :
    Steadfast (executeStop value) :=
  fun _ _ htwins => ⟨.ok rfl,
    ⟨⟨htwins.bus, htwins.registers, htwins.pc, rfl⟩, htwins.ir⟩⟩

/-- The lower byte is replaced whole, and the flags with it. -/
theorem lockstep_executeMoveToSr (value : Word) :
    Steadfast (setStatus fun status => status.withLowByte value) := by
  apply lockstep_setStatus
  intro sr sr' _
  rw [Status.withLowByte, Status.withLowByte,
    BitVec.extractLsb'_append_eq_of_add_le (by decide),
    BitVec.extractLsb'_append_eq_of_add_le (by decide)]

theorem lockstep_execute (instruction : Instruction) :
    Steadfast instruction.execute := by
  cases instruction with
  | nop => exact lockstep_pure ()
  | moveToSr value => exact lockstep_executeMoveToSr value
  | tst target width => exact lockstep_executeTst target width
  | bne target width => exact lockstep_executeBranch .notEqual target width
  | beq target width => exact lockstep_executeBranch .equal target width
  | bsr target width => exact lockstep_executeBsr target width
  | lea target destination => exact lockstep_executeLea target destination
  | move source destination width =>
      exact lockstep_executeMove source destination width
  | andi source destination width =>
      exact lockstep_executeAndi source destination width
  | dbcc condition counter displacement =>
      exact lockstep_executeDbcc condition counter displacement
  | rts => exact lockstep_executeRts
  | subq data destination width =>
      exact lockstep_executeSubq data destination width
  | stop value => exact lockstep_executeStop value

end Instruction

namespace Machine

variable {left right : Machine}

/-- Alike machines are twins once both have fetched their opcode. -/
theorem Alike.begun (halike : left.Alike right) (opcode : Word)
    (decoded : Decoded) :
    (left.begun opcode decoded).Twins (right.begun opcode decoded) :=
  ⟨⟨halike.bus, halike.registers, congrArg (· + decoded.length) halike.pc,
    halike.flags⟩, rfl⟩

/-- One step: the same result, and machines that are still alike. -/
theorem step_alike (halike : left.Alike right) :
    (step left).result = (step right).result ∧
      (step left).machine.Alike (step right).machine := by
  have hreads : left.bus.read left.pc .word = right.bus.read right.pc .word := by
    rw [halike.bus.read, halike.pc]
  have hdecodes : left.bus.decode left.pc = right.bus.decode right.pc := by
    rw [halike.bus.decode, halike.pc]
  cases hread : (right.bus.read right.pc .word).result with
  | error cause =>
      rw [step_of_unreadable hread, step_of_unreadable (hreads ▸ hread)]
      exact ⟨rfl, halike⟩
  | ok word =>
      have hread' : (left.bus.read left.pc .word).result = .ok word :=
        hreads ▸ hread
      cases hdecode : (right.bus.decode right.pc).result with
      | error cause =>
          rw [step_of_undecodable hread hdecode,
            step_of_undecodable hread' (hdecodes ▸ hdecode)]
          exact ⟨rfl, halike.bus, halike.registers, halike.pc, halike.flags⟩
      | ok decoded =>
          have hdecode' : (left.bus.decode left.pc).result = .ok decoded :=
            hdecodes ▸ hdecode
          obtain ⟨hpaired, hmachine⟩ :=
            decoded.instruction.lockstep_execute _ _
              (halike.begun (word.setWidth 16) decoded)
          have hsame := hpaired.eq
          cases hexecute : (decoded.instruction.execute
              (right.begun (word.setWidth 16) decoded)).result with
          | error cause =>
              rw [step_of_executeFault hread hdecode hexecute,
                step_of_executeFault hread' hdecode' (hsame.trans hexecute)]
              exact ⟨rfl, hmachine.bus, hmachine.registers, halike.pc,
                hmachine.flags⟩
          | ok done =>
              rw [step_of_ok hread hdecode hexecute,
                step_of_ok hread' hdecode' (hsame.trans hexecute)]
              exact ⟨rfl, hmachine.bus, hmachine.registers, hmachine.pc,
                hmachine.flags⟩

theorem afterSteps_alike (halike : left.Alike right) (n : Nat) :
    (left.afterSteps n).Alike (right.afterSteps n) := by
  induction n generalizing left right with
  | zero => exact halike
  | succ n ih => exact ih (step_alike halike).2

/-- Machines that differ at most in what a program cannot find out give the
same instruction or the same fault at every step, and however many steps they
have taken they still differ in nothing else. -/
theorem steps_indistinguishable (halike : left.Alike right) (n : Nat) :
    (step (left.afterSteps n)).result = (step (right.afterSteps n)).result ∧
      (left.afterSteps n).Alike (right.afterSteps n) :=
  have hreached := afterSteps_alike halike n
  ⟨(step_alike hreached).1, hreached⟩

end Machine

namespace NoninterferenceWitness

open Machine

/-- A test of d0, a stop, and a word that begins no instruction. -/
def plain : Machine :=
  blank (Bus.powerOn ⟨#[0x4A, 0x00, 0x4E, 0x72, 0x27, 0x00, 0xFF, 0xFF],
    by decide⟩ 0)

/-- The same machine with all that is hidden changed. -/
def disguised : Machine :=
  { plain with
    bus := { plain.bus with
      latch := 0x53454741, video := Vector.replicate 16 0xFF }
    sr := 0xFFF0
    ir := 0x1234
    state := .halted
    history := History.empty.push 0xFF0000 }

theorem steps_indistinguishable_disguised :
    plain.Alike disguised ∧
      (step (disguised.afterSteps 1)).result = .ok (.stop 0x2700) ∧
      (step (disguised.afterSteps 2)).result =
        .error (.unsupportedInstruction 0xFFFF) := by
  have halike : plain.Alike disguised := ⟨⟨rfl, rfl, rfl⟩, rfl, rfl, rfl⟩
  refine ⟨halike, ?_, ?_⟩
  · rw [← (steps_indistinguishable halike 1).1]
    rfl
  · rw [← (steps_indistinguishable halike 2).1]
    rfl

end NoninterferenceWitness

end MegaDrive
