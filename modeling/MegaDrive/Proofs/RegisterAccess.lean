/-
Reads and writes of registers at the three widths.  A write replaces the low
part of one register, under every number that names it, and nothing else.  Main
statement: what a read shows after a write, that a write hides those before it
that are not wider, and that to write back what was read changes nothing.
-/
import MegaDrive.Register

namespace MegaDrive

theorem Register.same_refl (register : Register) : register.Same register := by
  cases register <;> rfl

/-- A merge hides one before it that reaches no higher. -/
theorem Width.merge_merge {width wider : Width} (hle : width.bits ≤ wider.bits)
    (kept first second : Long) :
    wider.merge (width.merge kept first) second = wider.merge kept second := by
  apply BitVec.eq_of_getLsbD_eq
  intro i _
  simp only [getLsbD_merge]
  by_cases hi : i < wider.bits
  · simp [hi]
  · simp [hi, show ¬ i < width.bits by omega]

/-- A long leaves nothing of what it replaces. -/
theorem Width.merge_long (kept value : Long) :
    Width.long.merge kept value = value := by
  apply BitVec.eq_of_getLsbD_eq
  intro i hi
  rw [Width.getLsbD_merge]
  exact if_pos hi

namespace RegisterFile

variable {register other : Register} {width wider : Width}

section Names

variable (file : RegisterFile) (hsame : register.Same other)

include hsame

/-- To set a register is the same under every name of it. -/
theorem set_of_same (value : Long) :
    file.set register value = file.set other value := by
  cases register <;> cases other <;> simp only [Register.Same] at hsame
  all_goals simp only [set, hsame]

theorem write_of_same (width : Width) (value : Long) :
    file.write register width value = file.write other width value := by
  rw [write, write, file.get_of_same hsame, file.set_of_same hsame]

theorem read_of_same (width : Width) :
    file.read register width = file.read other width := by
  rw [read, read, file.get_of_same hsame]

end Names

theorem set_set (file : RegisterFile) (register : Register)
    (first second : Long) :
    (file.set register first).set register second =
      file.set register second := by
  cases register <;> simp [set]

/-- A write hides one before it that is not wider. -/
theorem write_write (file : RegisterFile) (register : Register)
    (hle : width.bits ≤ wider.bits) (first second : Long) :
    (file.write register width first).write register wider second =
      file.write register wider second := by
  rw [write, write, write, get_set_self, set_set, Width.merge_merge hle]

/-- To write back what was read changes nothing. -/
theorem write_read_self (file : RegisterFile) (register : Register)
    (width : Width) :
    file.write register width (file.read register width) = file := by
  rw [write, read, Width.merge_truncate, set_get_self]

theorem write_stackPointer (file : RegisterFile) (value : Long) :
    file.write Register.stackPointer .long value =
      file.withStackPointer value := by
  rw [write, Width.merge_long, withStackPointer]

/-- Bit by bit, a read of the written register shows what was written below the
width of the write, what stood there before above it, and nothing above its own
width. -/
theorem getLsbD_read_write (file : RegisterFile) (hsame : register.Same other)
    (width seen : Width) (value : Long) (i : Nat) :
    ((file.write register width value).read other seen).getLsbD i =
      (decide (i < seen.bits) &&
        if i < width.bits then value.getLsbD i
        else (file.get other).getLsbD i) := by
  rw [read, get_write, if_pos hsame, Width.getLsbD_truncate,
    Width.getLsbD_merge, Bool.and_comm]

theorem read_write_of_ne (file : RegisterFile) (hother : ¬ register.Same other)
    (width seen : Width) (value : Long) :
    (file.write register width value).read other seen =
      file.read other seen := by
  rw [read, get_write, if_neg hother, read]

/-- After a write of one register every other one reads as before, and that one
reads as its old value with the low part replaced, whatever the widths.  A
write hides one before it that is not wider, to write back what was read
changes nothing, and a long written to address register 7 is the new stack
pointer.  Numbers count modulo eight in all of this. -/
theorem writes_obey_lens_laws (file : RegisterFile) (register other : Register)
    (width : Width) (value : Long) :
    (∀ seen : Width, ¬ register.Same other →
      (file.write register width value).read other seen =
        file.read other seen) ∧
    (∀ seen : Width, register.Same other → ∀ i,
      ((file.write register width value).read other seen).getLsbD i =
        (decide (i < seen.bits) &&
          if i < width.bits then value.getLsbD i
          else (file.get register).getLsbD i)) ∧
    (∀ (wider : Width) (later : Long), register.Same other →
      width.bits ≤ wider.bits →
        (file.write register width value).write other wider later =
          file.write other wider later) ∧
    (register.Same other →
      file.write other width (file.read register width) = file) ∧
    (∀ number : Byte, Register.stackPointer.Same (.address number) →
      file.write (.address number) .long value =
        file.withStackPointer value) := by
  refine ⟨?_, ?_, ?_, ?_, ?_⟩
  · intro seen hother
    exact file.read_write_of_ne hother width seen value
  · intro seen hsame i
    rw [file.get_of_same hsame]
    exact file.getLsbD_read_write hsame width seen value i
  · intro wider later hsame hle
    rw [file.write_of_same hsame, write_write file other hle]
  · intro hsame
    rw [file.read_of_same hsame, write_read_self]
  · intro number hsame
    rw [← file.write_of_same hsame, write_stackPointer]

end RegisterFile

namespace RegisterAccessWitness

open RegisterFile

def file : RegisterFile :=
  RegisterFile.cleared.set (.data 3) 0x12345678

/-- A word written to register 3 by its number 11 hides a byte, and shows under
the upper half that stood there. -/
theorem writes_obey_lens_laws_aliased :
    (¬ (Register.data 3).Same (.address 3) ∧
      (file.write (.data 3) .word 0xCDEF).read (.address 3) .long = 0) ∧
    ((Register.data 3).Same (.data 11) ∧
      ((file.write (.data 3) .word 0xCDEF).read (.data 11) .long).getLsbD 28 =
        true) ∧
    (Width.byte.bits ≤ Width.word.bits ∧
      (file.write (.data 3) .byte 0xFFAB).write (.data 11) .word 0xCDEF =
        file.write (.data 11) .word 0xCDEF) ∧
    file.write (.data 11) .byte (file.read (.data 3) .byte) = file ∧
    (Register.stackPointer.Same (.address 15) ∧
      file.write (.address 15) .long 0xFF2000 =
        file.withStackPointer 0xFF2000) := by
  have hother : ¬ (Register.data 3).Same (.address 3) := by decide
  have hsame : (Register.data 3).Same (.data 11) := by decide
  have hseven : Register.stackPointer.Same (.address 15) := by decide
  have hle : Width.byte.bits ≤ Width.word.bits := by decide
  refine ⟨⟨hother, ?_⟩, ⟨hsame, ?_⟩, ⟨hle, ?_⟩, ?_, ⟨hseven, ?_⟩⟩
  · exact (writes_obey_lens_laws file (.data 3) (.address 3) .word 0xCDEF).1
      .long hother
  · rw [(writes_obey_lens_laws file (.data 3) (.data 11) .word 0xCDEF).2.1
      .long hsame 28]
    decide
  · exact (writes_obey_lens_laws file (.data 3) (.data 11) .byte 0xFFAB).2.2.1
      .word 0xCDEF hsame hle
  · exact (writes_obey_lens_laws file (.data 3) (.data 11) .byte 0).2.2.2.1
      hsame
  · exact (writes_obey_lens_laws file (.data 3) (.data 3) .byte 0xFF2000).2.2.2.2
      15 hseven

end RegisterAccessWitness

end MegaDrive
