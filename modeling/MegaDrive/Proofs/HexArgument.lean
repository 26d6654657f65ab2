/-
What may be given as the value of the controller block.  Marks come off the
front of a text as long as there are any, and what they leave is a hexadecimal
numeral.  Main statement: a text is accepted for a value exactly when it is such
an argument, and any other is refused under its own name.
-/
import MegaDrive.Command.Arguments
import MegaDrive.Proofs.NumeralText

namespace MegaDrive

section Marks

variable {mark : Char} {text rest : List Char}

/-- What a text leaves when every mark at its front is taken off. -/
def Stripped (mark : Char) (text rest : List Char) : Prop :=
  (∃ count, text = (List.replicate count ['0', mark]).flatten ++ rest) ∧
    ¬ ['0', mark] <+: rest

/-- A text without a mark at its front stays whole. -/
theorem stripped_self (htext : ¬ ['0', mark] <+: text) :
    Stripped mark text text :=
  ⟨⟨0, rfl⟩, htext⟩

theorem Stripped.more (hstripped : Stripped mark text rest) :
    Stripped mark ('0' :: mark :: text) rest := by
  obtain ⟨⟨count, htext⟩, hrest⟩ := hstripped
  exact ⟨⟨count + 1, by rw [htext]; rfl⟩, hrest⟩

theorem dropMarks_mark (mark : Char) (text : List Char) :
    dropMarks mark ('0' :: mark :: text) = dropMarks mark text := by
  rw [dropMarks, if_pos rfl]

theorem dropMarks_of_not_prefix (htext : ¬ ['0', mark] <+: text) :
    dropMarks mark text = text := by
  unfold dropMarks
  split
  next c rest =>
    rw [if_neg]
    rintro rfl
    exact htext ⟨rest, rfl⟩
  next => rfl

theorem stripped_dropMarks (mark : Char) (text : List Char) :
    Stripped mark text (dropMarks mark text) := by
  fun_induction dropMarks mark text with
  | case1 rest ih => exact ih.more
  | case2 c rest hc =>
      apply stripped_self
      rintro ⟨back, hback⟩
      cases hback
      exact hc rfl
  | case3 text hother =>
      apply stripped_self
      rintro ⟨back, rfl⟩
      exact hother mark back rfl

/-- There is one way to take the marks off. -/
theorem stripped_iff : Stripped mark text rest ↔ dropMarks mark text = rest := by
  constructor
  · rintro ⟨⟨count, rfl⟩, hrest⟩
    induction count with
    | zero => exact dropMarks_of_not_prefix hrest
    | succ count ih => exact (dropMarks_mark mark _).trans ih
  · rintro rfl
    exact stripped_dropMarks mark text

end Marks

open Numeral

/-- The arguments that name a number: marks `0x`, marks `0X`, a plus sign that
may be left out, and a numeral of 32 bits. -/
inductive HexArgument : List Char → Nat → Prop
  | intro {text middle rest digits : List Char} {n : Nat}
      (hlower : Stripped 'x' text middle) (hupper : Stripped 'X' middle rest)
      (hsign : rest = digits ∨ rest = '+' :: digits)
      (hdigits : SpellsHex digits n) (hn : n ≤ 0xFFFFFFFF) :
      HexArgument text n

theorem readHex_eq_ok_iff (text : List Char) (n : Nat) :
    readHex text = .ok n ↔ HexArgument text n := by
  rw [readHex, read_eq_ok_iff]
  constructor
  · rintro ⟨digits, hsign, hdigits, hn⟩
    exact .intro (stripped_dropMarks 'x' text) (stripped_dropMarks 'X' _) hsign
      hdigits (Nat.le_of_lt_succ hn)
  · rintro ⟨hlower, hupper, hsign, hdigits, hn⟩
    rw [stripped_iff] at hlower hupper
    rw [hlower, hupper]
    exact ⟨_, hsign, hdigits, Nat.lt_succ_of_le hn⟩

theorem readController_eq_ok_iff (text : String) (value : Long) :
    readController text = .ok value ↔
      HexArgument text.toList value.toNat := by
  rw [← readHex_eq_ok_iff, readController]
  cases hread : readHex text.toList with
  | error cause => simp
  | ok n =>
      obtain ⟨-, -, -, -, hn⟩ := (readHex_eq_ok_iff text.toList n).mp hread
      have hvalue : (BitVec.ofNat 32 n).toNat = n :=
        Nat.mod_eq_of_lt (Nat.lt_succ_of_le hn)
      simp only [Except.ok.injEq, ← BitVec.toNat_inj, hvalue]

theorem not_prefix_of_spells {digits : List Char} {n : Nat}
    (hdigits : SpellsHex digits n) {mark : Char}
    (hmark : digitValue? 16 mark = none) : ¬ ['0', mark] <+: digits := by
  rintro ⟨back, rfl⟩
  exact hdigits.not_mem hmark (by simp)

/-- A numeral is an argument by itself and behind one mark of either case. -/
theorem hexArgument_of_spells {digits : List Char} {n : Nat}
    (hdigits : SpellsHex digits n) (hn : n ≤ 0xFFFFFFFF) {mark : String}
    (hmark : mark ∈ ["", "0x", "0X"]) :
    HexArgument (mark.toList ++ digits) n := by
  have hlower : Stripped 'x' digits digits :=
    stripped_self (not_prefix_of_spells hdigits (by decide))
  have hupper : Stripped 'X' digits digits :=
    stripped_self (not_prefix_of_spells hdigits (by decide))
  simp only [List.mem_cons, List.not_mem_nil, or_false] at hmark
  obtain rfl | rfl | rfl := hmark
  · exact .intro hlower hupper (.inl rfl) hdigits hn
  · exact .intro hlower.more hupper (.inl rfl) hdigits hn
  · -- A mark of the other case stops the first stripping and not the second.
    refine .intro (stripped_self ?_) hupper.more (.inl rfl) hdigits hn
    rintro ⟨back, hback⟩
    cases hback

/-- The text of the option is taken for a value exactly when it is an argument
that names it, and any other text is refused with a message that shows it.  So
the digits of a value are read as that value, in letters of either case, behind
any number of zeros and behind one mark or none. -/
theorem readController_accepts_hexArguments (text : String) :
    (∀ value, readController text = .ok value ↔
      HexArgument text.toList value.toNat) ∧
    ((∀ n, ¬ HexArgument text.toList n) →
      ∃ cause, readController text = .error ⟨text, cause⟩ ∧
        InvalidHex.message ⟨text, cause⟩ =
          "invalid hex value " ++ text ++ ": " ++ cause.message) ∧
    (∀ (value : Long) (columns : Nat) (digits : List Char),
      digits.map Char.toLower = Numeral.digits 16 columns value.toNat →
      ∀ mark ∈ ["", "0x", "0X"], text = mark ++ String.ofList digits →
        readController text = .ok value) := by
  refine ⟨readController_eq_ok_iff text, ?_, ?_⟩
  · intro hrefused
    cases hread : readHex text.toList with
    | ok n => exact absurd ((readHex_eq_ok_iff _ n).mp hread) (hrefused n)
    | error cause => exact ⟨cause, by rw [readController, hread], rfl⟩
  · intro value columns digits hdigits mark hmark htext
    have hargument := hexArgument_of_spells (spells_of_map_toLower hdigits)
      (Nat.le_of_lt_succ value.isLt) hmark
    rw [readController_eq_ok_iff, htext, String.toList_append,
      String.toList_ofList]
    exact hargument

namespace HexArgumentWitness

/-- Marks of both cases with a sign behind them, one mark before letters of
both cases, and marks the wrong way round. -/
theorem readController_accepts_hexArguments_marked :
    HexArgument "0x0x0X+0fF".toList (0xFF : Long).toNat ∧
      readController "0x0x0X+0fF" = .ok 0xFF ∧
      readController "0X00DeadBeef" = .ok 0xDEADBEEF ∧
      (∀ n, ¬ HexArgument "0X0x1".toList n) ∧
      ∃ cause, readController "0X0x1" = .error ⟨"0X0x1", cause⟩ := by
  have hdigits : ("0fF".toList).map Char.toLower = digits 16 3 0xFF := rfl
  have hsigned : HexArgument "0x0x0X+0fF".toList (0xFF : Long).toNat :=
    .intro (stripped_iff.mpr rfl) (stripped_iff.mpr rfl) (.inr rfl)
      (spells_of_map_toLower hdigits) (by decide)
  have hbackwards : ∀ n, ¬ HexArgument "0X0x1".toList n := fun n hargument =>
    nomatch (readHex_eq_ok_iff "0X0x1".toList n).mpr hargument
  obtain ⟨haccepts, -, -⟩ := readController_accepts_hexArguments "0x0x0X+0fF"
  obtain ⟨-, -, hnumeral⟩ := readController_accepts_hexArguments "0X00DeadBeef"
  obtain ⟨-, hrefuses, -⟩ := readController_accepts_hexArguments "0X0x1"
  obtain ⟨cause, hcause, -⟩ := hrefuses hbackwards
  exact ⟨hsigned, (haccepts 0xFF).mpr hsigned,
    hnumeral 0xDEADBEEF 10 "00DeadBeef".toList rfl "0X" (by decide) rfl,
    hbackwards, cause, hcause⟩

end HexArgumentWitness

end MegaDrive
