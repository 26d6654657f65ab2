/-
The start of a console, from its cartridge to the stop.  The program is taken
in blocks, each of which says how many steps lead from one of its places to
another and what they make of the registers and the latch.  Main statement:
for every version of the console the program halts, with the latch unlocked
unless the number of the version is zero.
-/
import MegaDrive.Command.Session
import MegaDrive.Proofs.CodeConfinement
import MegaDrive.Proofs.Comparison
import MegaDrive.Proofs.CountedLoop
import MegaDrive.Proofs.Restart
import MegaDrive.Proofs.RunComposition
import MegaDrive.Proofs.Unambiguous
import MegaDrive.Sample

namespace MegaDrive

namespace Machine

/-- So many steps succeed one after the other and end at `after`, where a run
goes on with what is left of its limit. -/
def Reaches (steps : Nat) (before after : Machine) : Prop :=
  ∃ executed, executed.length = steps ∧
    ∀ limit, run (steps + limit) before = (run limit after).behind executed

theorem Reaches.trans {first second : Nat} {before middle after : Machine}
    (hfirst : Reaches first before middle)
    (hsecond : Reaches second middle after) :
    Reaches (first + second) before after := by
  obtain ⟨earlier, hearlier, hbefore⟩ := hfirst
  obtain ⟨later, hlater, hmiddle⟩ := hsecond
  refine ⟨earlier ++ later, by rw [List.length_append, hearlier, hlater],
    fun limit => ?_⟩
  rw [Nat.add_assoc, hbefore, hmiddle, Run.behind_behind]

theorem reaches_step {machine : Machine} (hstate : machine.state = .running)
    {instruction : Instruction}
    (hstep : (step machine).result = .ok instruction) :
    Reaches 1 machine (step machine).machine := by
  refine ⟨[⟨machine.pc, instruction, (step machine).events⟩], rfl,
    fun limit => ?_⟩
  rw [Nat.add_comm, run_succ_of_ok hstate hstep]

end Machine

open Machine

namespace Bus

/-- Code in the image of the cartridge does not depend on anything else. -/
theorem decode_of_image {left right : Bus} {place : Address}
    {instruction : Instruction} {length : Long}
    (hcartridge : right.cartridge = left.cartridge)
    (hplace : Region.cartridge.Contains place)
    (hdecode : (left.decode place).result = .ok ⟨instruction, length⟩) :
    (right.decode place).result = .ok ⟨instruction, length⟩ := by
  have hsize := left.cartridge.size_le
  obtain ⟨-, -, hstands, -⟩ := decode_confined hdecode
  simp only [HoldsCode, Region.Contains, Region.start, Region.length]
    at hstands hplace hsize
  have heven : place.toNat % 2 = 0 := by omega
  have hend : place.toNat + length.toNat ≤ left.cartridge.image.size := by
    omega
  have hreached : place.Reached := .inl (.inl hplace)
  refine decode_of_bytes hreached hreached heven hdecode fun i hi => ?_
  have hbyte : (place.byte i).toNat = place.toNat + i := by
    rw [Address.byte, Address.toNat_add_ofNat]
    omega
  have hin : (place.byte i).Reached := by
    refine .inl (.inl ⟨Nat.zero_le _, ?_⟩)
    rw [hbyte, Region.start, Region.length]
    omega
  have hmemory : ∀ bus : Bus, bus.memory? (place.byte i).toNat =
      bus.cartridge.image[(place.byte i).toNat]? := by
    intro bus
    refine if_pos ?_
    rw [hbyte, Region.start]
    omega
  have hfound := Array.getElem?_eq_getElem
    (show (place.byte i).toNat < left.cartridge.image.size by omega)
  refine ⟨_, (left.byteAt_eq_ok_iff hin _).mpr ((hmemory left).trans hfound),
    (right.byteAt_eq_ok_iff hin _).mpr ?_⟩
  rw [hmemory, hcartridge]
  exact hfound

end Bus

theorem Sample.size_latchUnlock_le :
    latchUnlock.size ≤ Region.cartridge.length := by
  decide

/-- The console with the boot program, all of it zero but the latch. -/
def console (version latch : Long) : Bus :=
  { Bus.powerOn ⟨Sample.latchUnlock, Sample.size_latchUnlock_le⟩ version with
    latch := latch }

/-- The machine has come to a place of the boot program.  Nothing is said of
its status and of the addresses it has visited. -/
structure Booting (version : Long) (place : Address)
    (registers : RegisterFile) (latch : Long) (machine : Machine) : Prop where
  bus : machine.bus = console version latch
  pc : machine.pc = place
  registers : machine.registers = registers
  state : machine.state = .running

namespace Booting

variable {version latch : Long} {place : Address} {registers : RegisterFile}
  {machine : Machine}

/-- A step of the program is that of the instruction at its place, which runs
on a machine that has come to the next place already. -/
theorem step (hbooting : Booting version place registers latch machine)
    (instruction : Instruction) (length : Long)
    (hplace : Region.cartridge.Contains place)
    (hcode : ((console 0 0).decode place).result =
      .ok ⟨instruction, length⟩) :
    ∃ begun, Booting version (place + length) registers latch begun ∧
      begun.sr = machine.sr ∧
      ((instruction.execute begun).result = .ok () →
        Reaches 1 machine
          ((instruction.execute begun).machine.recorded place)) := by
  obtain ⟨hbus, hpc, hregisters, hstate⟩ := hbooting
  have hdecode : (machine.bus.decode machine.pc).result =
      .ok ⟨instruction, length⟩ := by
    rw [hpc]
    exact Bus.decode_of_image (by rw [hbus]; rfl) hplace hcode
  have hreadable : ∃ word,
      (machine.bus.read machine.pc .word).result = .ok word := by
    obtain ⟨hword, -, -⟩ := (Bus.decode_eq_ok_iff _ _ _).mp hdecode
    obtain ⟨word, hread, -⟩ := (map_eq_ok_iff _ _ _).mp hword
    exact ⟨word, hread⟩
  obtain ⟨word, hread⟩ := hreadable
  refine ⟨machine.begun (word.setWidth 16) ⟨instruction, length⟩,
    ⟨hbus, congrArg (· + length) hpc, hregisters, hstate⟩, rfl,
    fun hexecute => ?_⟩
  have hstep := step_of_ok hread hdecode hexecute
  have hreaches := reaches_step hstate (congrArg Outcome.result hstep)
  rw [hstep, hpc] at hreaches
  exact hreaches

/-- A test of the controller block finds the version, cut to the width. -/
theorem test (hbooting : Booting version place registers latch machine)
    (address : Address) (width : Width) (length : Long)
    (hplace : Region.cartridge.Contains place)
    (hcode : ((console 0 0).decode place).result =
      .ok ⟨.tst (.absolute address) width, length⟩)
    (haddress : Region.at? address = some .controller) :
    ∃ after, Reaches 1 machine after ∧
      Booting version (place + length) registers latch after ∧
      after.sr.zero = (width.truncate version == 0) := by
  obtain ⟨begun, ⟨hbus, hpc, hregisters, hstate⟩, -, hreaches⟩ :=
    hbooting.step _ _ hplace hcode
  have hload : ((Operand.absolute address).load width begun).result =
      .ok (width.truncate version) := by
    change (begun.bus.read address width).result = _
    rw [Bus.read_controller _ _ haddress, hbus]
    rfl
  have hexecute := Instruction.result_executeTst (.absolute address) width begun
  rw [hload] at hexecute
  obtain ⟨value, hvalue, hafter⟩ := Instruction.of_executeTst_ok hexecute
  rw [hload] at hvalue
  cases hvalue
  refine ⟨_, hreaches hexecute, ?_⟩
  rw [Instruction.execute, hafter]
  refine ⟨⟨hbus, hpc, hregisters, hstate⟩, ?_⟩
  change (begun.sr.compared width (width.truncate version)).zero = _
  rw [Status.zero_compared, Width.truncate_truncate]

/-- A short branch goes by the flags that the step before it left. -/
theorem branch (hbooting : Booting version place registers latch machine)
    (condition : Condition) (displacement : Word) {instruction : Instruction}
    (hplace : Region.cartridge.Contains place)
    (hcode : ((console 0 0).decode place).result = .ok ⟨instruction, 2⟩)
    (hbranches : instruction.execute =
      Instruction.executeBranch condition (.branch displacement) .byte) :
    ∃ after, Reaches 1 machine after ∧
      Booting version
        (if condition.holds machine.sr then displace (place + 2) displacement
          else place + 2) registers latch after := by
  obtain ⟨begun, ⟨hbus, hpc, hregisters, hstate⟩, hstatus, hreaches⟩ :=
    hbooting.step _ _ hplace hcode
  rw [hbranches] at hreaches
  have hexecute := Instruction.result_executeBranch condition displacement
    .byte begun
  obtain ⟨_, htarget, hafter⟩ := Instruction.of_executeBranch_ok hexecute
  cases htarget
  rw [hafter, hstatus, if_pos rfl, hpc] at hreaches
  exact ⟨_, hreaches hexecute, ⟨hbus, rfl, hregisters, hstate⟩⟩

/-- The ports are looked at as a long, and when that is zero as a word too. -/
theorem ports (hbooting : Booting version 8 registers latch machine) :
    ∃ after, Reaches (if version = 0 then 3 else 2) machine after ∧
      Booting version 0x16 registers latch after := by
  obtain ⟨tested, htested, hbranch, hzero⟩ :=
    hbooting.test 0xA10008 .long 6 (by decide) rfl rfl
  obtain ⟨branched, hbranched, hnext⟩ :=
    hbranch.branch .notEqual 6 (by decide) rfl rfl
  have hreaches := htested.trans hbranched
  have hlong : Width.long.truncate version = version := BitVec.and_allOnes
  rw [Condition.holds, hzero, hlong] at hnext
  by_cases hversion : version = 0
  · subst hversion
    obtain ⟨after, hafter, hended, -⟩ :=
      hnext.test 0xA1000C .word 6 (by decide) rfl rfl
    exact ⟨after, hreaches.trans hafter, hended⟩
  · rw [beq_false_of_ne hversion] at hnext
    rw [if_neg hversion]
    exact ⟨branched, hreaches, hnext⟩

end Booting

/-- The registers once the address of the password and the number of the
version are loaded. -/
def RegisterFile.loaded (file : RegisterFile) (version : Long) : RegisterFile :=
  (file.write (.address 5) .long 0x4C).write (.data 0) .byte (version &&& 0xF)

/-- The number of a version is in its lowest byte. -/
theorem number_of_byte (version : Long) :
    Width.byte.truncate version &&& 0xF &&& 0xFF = version &&& 0xF := by
  rw [Width.truncate, BitVec.and_assoc, BitVec.and_assoc]
  rfl

namespace Booting

variable {version latch : Long} {registers : RegisterFile} {machine : Machine}

/-- The address of the password is counted from the word behind the opcode. -/
theorem point (hbooting : Booting version 0x16 registers latch machine) :
    ∃ after, Reaches 1 machine after ∧
      Booting version 0x1A (registers.write (.address 5) .long 0x4C) latch
        after := by
  obtain ⟨begun, hbegun, -, hreaches⟩ := hbooting.step
    (.lea (.pcDisplaced 52) (.address 5)) 4 (by decide) rfl
  obtain ⟨bus, file, pc, sr, ir, state, history⟩ := begun
  obtain ⟨rfl, rfl, rfl, rfl⟩ := hbegun
  have hpassword : displace (0x16 + 4 - 2) 52 = 0x4C := by decide
  refine ⟨_, hreaches rfl, ⟨rfl, rfl, ?_, rfl⟩⟩
  rw [← hpassword]
  rfl

theorem read (hbooting : Booting version 0x1A registers latch machine) :
    ∃ after, Reaches 1 machine after ∧
      Booting version 0x20
        (registers.write (.data 0) .byte (Width.byte.truncate version)) latch
        after := by
  obtain ⟨begun, hbegun, -, hreaches⟩ := hbooting.step
    (.move (.absolute 0xA10001) (.register (.data 0)) .byte) 6 (by decide) rfl
  obtain ⟨bus, file, pc, sr, ir, state, history⟩ := begun
  obtain ⟨rfl, rfl, rfl, rfl⟩ := hbegun
  exact ⟨_, hreaches rfl, ⟨rfl, rfl, rfl, rfl⟩⟩

/-- The byte that was read is cut to the number of the version. -/
theorem mask
    (hbooting : Booting version 0x20
      (registers.write (.data 0) .byte (Width.byte.truncate version)) latch
      machine) :
    ∃ after, Reaches 1 machine after ∧
      Booting version 0x24 (registers.write (.data 0) .byte (version &&& 0xF))
        latch after ∧
      after.sr.zero = (version &&& 0xF == 0) := by
  obtain ⟨begun, ⟨hbus, hpc, hregisters, hstate⟩, -, hreaches⟩ :=
    hbooting.step (.andi (.immediate 0xF) (.register (.data 0)) .byte) 4
      (by decide) rfl
  have hexecute : (Instruction.executeAndi (.immediate 0xF)
      (.register (.data 0)) .byte begun).result = .ok () := rfl
  obtain ⟨_, _, result, hmask, hname, -, hresult, hafter⟩ :=
    Instruction.of_executeAndi_ok hexecute
  cases hmask
  cases hname
  rw [hregisters, RegisterFile.read_write_self, Width.truncate_truncate,
    number_of_byte] at hresult
  subst hresult
  have hnumber : Width.byte.truncate (version &&& 0xF) = version &&& 0xF := by
    rw [Width.truncate, BitVec.and_assoc]
    rfl
  refine ⟨_, hreaches hexecute, ?_⟩
  rw [Instruction.execute, hafter, hregisters,
    RegisterFile.write_write _ _ (Nat.le_refl _)]
  refine ⟨⟨hbus, hpc, rfl, hstate⟩, ?_⟩
  change (begun.sr.compared .byte _).zero = _
  rw [Status.zero_compared, hnumber]

/-- The four lowest bits of the version are the number that it is known by. -/
theorem look (hbooting : Booting version 0x16 registers latch machine) :
    ∃ after, Reaches 3 machine after ∧
      Booting version 0x24 (registers.loaded version) latch after ∧
      after.sr.zero = (version &&& 0xF == 0) := by
  obtain ⟨pointed, hpoint, hpointed⟩ := hbooting.point
  obtain ⟨found, hread, hfound⟩ := hpointed.read
  obtain ⟨after, hmask, hafter, hzero⟩ := hfound.mask
  exact ⟨after, (hpoint.trans hread).trans hmask, hafter, hzero⟩

/-- The password is written as one long. -/
theorem unlock (hbooting : Booting version 0x26 registers latch machine) :
    ∃ after, Reaches 1 machine after ∧
      Booting version 0x30 registers 0x53454741 after := by
  obtain ⟨begun, hbegun, -, hreaches⟩ := hbooting.step
    (.move (.immediate 0x53454741) (.absolute 0xA14000) .long) 10 (by decide)
    rfl
  obtain ⟨bus, file, pc, sr, ir, state, history⟩ := begun
  obtain ⟨rfl, rfl, rfl, rfl⟩ := hbegun
  exact ⟨_, hreaches rfl, ⟨rfl, rfl, rfl, rfl⟩⟩

/-- A console whose version has the number zero has no latch to unlock. -/
theorem skipOrUnlock
    (hbooting : Booting version 0x24 registers latch machine)
    (hzero : machine.sr.zero = (version &&& 0xF == 0)) :
    ∃ after, Reaches (if version &&& 0xF = 0 then 1 else 2) machine after ∧
      Booting version 0x30 registers
        (if version &&& 0xF = 0 then latch else 0x53454741) after := by
  obtain ⟨branched, hbranched, hnext⟩ :=
    hbooting.branch .equal 10 (by decide) rfl rfl
  rw [Condition.holds, hzero] at hnext
  by_cases hnumber : version &&& 0xF = 0
  · rw [if_pos hnumber, if_pos hnumber]
    rw [hnumber] at hnext
    exact ⟨branched, hbranched, hnext⟩
  · rw [if_neg hnumber, if_neg hnumber]
    rw [beq_false_of_ne hnumber] at hnext
    obtain ⟨after, hafter, hended⟩ := unlock hnext
    exact ⟨after, hbranched.trans hafter, hended⟩

theorem stop (hbooting : Booting version 0x30 registers latch machine) :
    ∃ after, Reaches 1 machine after ∧ after.state = .halted ∧
      after.bus = console version latch ∧ after.registers = registers ∧
      after.pc = 0x34 ∧ after.sr = 0x2700 := by
  obtain ⟨begun, ⟨hbus, hpc, hregisters, -⟩, -, hreaches⟩ := hbooting.step
    (.stop 0x2700) 4 (by decide) rfl
  exact ⟨_, hreaches rfl, rfl, hbus, hregisters, hpc, rfl⟩

end Booting

/-- The registers at the start of the boot program. -/
def RegisterFile.atBoot : RegisterFile :=
  RegisterFile.cleared.withStackPointer 0xFFFE00

theorem RegisterFile.get_loaded_atBoot (version : Long) :
    (atBoot.loaded version).get (.data 0) = version &&& 0xF ∧
      (atBoot.loaded version).get (.address 5) = 0x4C := by
  have hdata : ¬ (Register.data 0).Same (.address 5) := by decide
  have haddress : ¬ (Register.address 5).Same (.data 0) := by decide
  have hcleared : atBoot.get (.data 0) = 0#32 := rfl
  have hmerge : Width.byte.merge 0#32 (version &&& 0xF) =
      version &&& 0xF := by
    rw [Width.merge, BitVec.zero_and, BitVec.zero_or, BitVec.and_assoc]
    rfl
  constructor
  · rw [loaded, get_write, if_pos (Register.same_refl _), get_write,
      if_neg haddress, hcleared, hmerge]
  · rw [loaded, get_write, if_neg hdata, get_write,
      if_pos (Register.same_refl _), Width.merge_long]

namespace Session

/-- The program boots every version of the console.  It halts after eight
steps, or seven when the version is not zero but its number is, has loaded the
number of the version and the address of the password, and has written nothing
but the latch, which it leaves alone when the number is zero. -/
theorem boots_latchUnlock (version : Long) :
    ∃ start, (boot Sample.latchUnlock version).result = .ok start ∧
      ∀ limit,
        let number := version &&& 0xF
        let steps := if version ≠ 0 ∧ number = 0 then 7 else 8
        let run := start.run (steps + limit)
        run.ending = .halted ∧ run.executed.length = steps ∧
          run.machine.state = .halted ∧ run.machine.pc = 0x34 ∧
          run.machine.sr = 0x2700 ∧
          run.machine.registers.get (.data 0) = number ∧
          run.machine.registers.get (.address 5) = 0x4C ∧
          run.machine.bus.ram = Vector.replicate 0x10000 0 ∧
          run.machine.bus.video = Vector.replicate 16 0 ∧
          run.machine.bus.latch = if number = 0 then 0 else 0x53454741 := by
  have hpointer : (console 0 0).cartridge.load 0 .long = .ok 0xFFFE00 := rfl
  have hpc : (console 0 0).cartridge.load 4 .long = .ok 8 := rfl
  have hboot : (boot Sample.latchUnlock version).result =
      .ok ((blank (console version 0)).restarted 0xFFFE00 8) := by
    rw [result_boot_of_fits Sample.size_latchUnlock_le]
    dsimp only
    rw [reset_of_loads hpointer hpc]
    rfl
  have hstart : Booting version 8 RegisterFile.atBoot 0
      ((blank (console version 0)).restarted 0xFFFE00 8) :=
    ⟨rfl, rfl, rfl, rfl⟩
  refine ⟨_, hboot, fun limit => ?_⟩
  obtain ⟨watched, hports, hwatched⟩ := hstart.ports
  obtain ⟨looked, hlook, hlooked, hzero⟩ := hwatched.look
  obtain ⟨passed, hpass, hpassed⟩ := hlooked.skipOrUnlock hzero
  obtain ⟨halted, hstop, hhalted, hbus, hregisters, hend, hsr⟩ := hpassed.stop
  obtain ⟨executed, hlength, hrun⟩ :=
    ((hports.trans hlook).trans hpass).trans hstop
  obtain ⟨hdata, haddress⟩ := RegisterFile.get_loaded_atBoot version
  have hsteps : (if version ≠ 0 ∧ version &&& 0xF = 0 then 7 else 8) =
      (if version = 0 then 3 else 2) + 3 +
        (if version &&& 0xF = 0 then 1 else 2) + 1 := by
    have hnumber : version = 0 → version &&& 0xF = 0 := by
      rintro rfl
      rfl
    split_ifs <;> first | rfl | tauto
  dsimp only
  rw [hsteps, hrun, run_of_halted hhalted]
  simp only [Run.behind, hregisters, hbus, List.append_nil]
  exact ⟨trivial, hlength, hhalted, hend, hsr, hdata, haddress, rfl, rfl, rfl⟩

end Session

end MegaDrive
