/-
Numbers in texts.  A number has digits only, so that no mark between numbers is
taken for a part of one.  A hexadecimal digit is written with either case of its
letter, and a numeral is worth sixteen times what stands before its last digit,
and that digit.  Main statement: what is read as a number is what spells one
below the bound, with a plus sign before it or without.
-/
import Mathlib.Data.List.Induction
import MegaDrive.Numeral.Reader

namespace MegaDrive

namespace Numeral

section Digits

variable {base bound columns n : Nat}

/-- What is read as a number has digits only. -/
theorem isSome_of_readDigits {text : List Char} {value : Nat}
    (hread : readDigits base bound value text = .ok n) {c : Char}
    (hc : c ∈ text) : (digitValue? base c).isSome := by
  induction text generalizing value with
  | nil => cases hc
  | cons first rest ih =>
      rw [readDigits] at hread
      cases hdigit : digitValue? base first with
      | none => simp [hdigit] at hread
      | some digit =>
          simp only [hdigit] at hread
          split at hread
          · rcases List.mem_cons.mp hc with rfl | hrest
            · rw [hdigit]
              rfl
            · exact ih hread hrest
          · cases hread

theorem not_mem_of_readDigits {text : List Char} {value : Nat}
    (hread : readDigits base bound value text = .ok n) {mark : Char}
    (hmark : digitValue? base mark = none) : mark ∉ text := by
  intro hmem
  have hsome := isSome_of_readDigits hread hmem
  rw [hmark] at hsome
  cases hsome

theorem not_mem_digits (hbase : 1 < base) (hsixteen : base ≤ 16)
    {mark : Char} (hmark : digitValue? base mark = none) :
    mark ∉ digits base columns n :=
  not_mem_of_readDigits
    (readDigits_digits hbase hsixteen (Nat.lt_succ_self n) columns) hmark

end Digits

/-- Read a number below a bound. -/
def readBelow? (base bound : Nat) (text : List Char) : Option Nat :=
  (readDigits base bound 0 text).toOption

theorem readBelow?_digits {base bound n : Nat} (hbase : 1 < base)
    (hsixteen : base ≤ 16) (hn : n < bound) (columns : Nat) :
    readBelow? base bound (digits base columns n) = some n := by
  rw [readBelow?, readDigits_digits hbase hsixteen hn]
  rfl

section Hex

variable {bound n : Nat}

/-- A character for a digit; letters count in either case. -/
def IsHexDigit (c : Char) (digit : Nat) : Prop :=
  digit < 16 ∧ (c = Nat.digitChar digit ∨ c = (Nat.digitChar digit).toUpper)

instance (c : Char) (digit : Nat) : Decidable (IsHexDigit c digit) :=
  inferInstanceAs (Decidable (_ ∧ _))

/-- What a character is worth as a digit, it is a character for. -/
def ValuesAreDigits (c : Char) : Prop :=
  ∀ digit ∈ digitValue? 16 c, IsHexDigit c digit

instance (c : Char) : Decidable (ValuesAreDigits c) :=
  inferInstanceAs (Decidable (∀ digit ∈ digitValue? 16 c, IsHexDigit c digit))

/-- One digit or more, and the number that they spell. -/
inductive SpellsHex : List Char → Nat → Prop
  | digit {c : Char} {digit : Nat} (hdigit : IsHexDigit c digit) :
      SpellsHex [c] digit
  | more {text : List Char} {n : Nat} {c : Char} {digit : Nat}
      (hfront : SpellsHex text n) (hdigit : IsHexDigit c digit) :
      SpellsHex (text ++ [c]) (16 * n + digit)

/-- What holds of every code from one character to another holds of the
characters between them. -/
theorem of_mem_range {P : Char → Prop} {low high : Char}
    (hcodes : ∀ k ≤ high.toNat - low.toNat, P (Char.ofNat (low.toNat + k)))
    {c : Char} (hrange : low ≤ c ∧ c ≤ high) : P c := by
  have hlow : low.toNat ≤ c.toNat :=
    UInt32.le_iff_toNat_le.mp (Char.le_def.mp hrange.1)
  have hhigh : c.toNat ≤ high.toNat :=
    UInt32.le_iff_toNat_le.mp (Char.le_def.mp hrange.2)
  have hcode := hcodes (c.toNat - low.toNat) (by omega)
  rwa [Nat.add_sub_cancel' hlow, Char.ofNat_toNat] at hcode

/-- What counts as a digit is one of its two characters. -/
theorem isHexDigit_of_digitValue? {c : Char} {digit : Nat}
    (hvalue : digitValue? 16 c = some digit) : IsHexDigit c digit := by
  by_cases hfigure : '0' ≤ c ∧ c ≤ '9'
  · exact of_mem_range (P := ValuesAreDigits) (by decide) hfigure digit hvalue
  by_cases hletter : 'a' ≤ c ∧ c ≤ 'z'
  · exact of_mem_range (P := ValuesAreDigits) (by decide) hletter digit hvalue
  by_cases hcapital : 'A' ≤ c ∧ c ≤ 'Z'
  · exact of_mem_range (P := ValuesAreDigits) (by decide) hcapital digit hvalue
  · simp [digitValue?, hfigure, hletter, hcapital] at hvalue

theorem digitValue?_eq_some_iff (c : Char) (digit : Nat) :
    digitValue? 16 c = some digit ↔ IsHexDigit c digit := by
  constructor
  · exact isHexDigit_of_digitValue?
  · have hcapitals : ∀ k < 16,
        digitValue? 16 (Nat.digitChar k).toUpper = some k := by decide
    rintro ⟨hdigit, rfl | rfl⟩
    · exact digitValue?_digitChar (by decide) hdigit
    · exact hcapitals digit hdigit

/-- The case of a letter does not change what it is worth as a digit. -/
theorem digitValue?_toLower (c : Char) :
    digitValue? 16 c.toLower = digitValue? 16 c := by
  by_cases hcapital : 'A' ≤ c ∧ c ≤ 'Z'
  · exact of_mem_range
      (P := fun c => digitValue? 16 c.toLower = digitValue? 16 c) (by decide)
      hcapital
  · have hsame : c.toLower = c := dif_neg hcapital
    rw [hsame]

theorem digitValue?_toUpper (c : Char) :
    digitValue? 16 c.toUpper = digitValue? 16 c := by
  by_cases hletter : 'a' ≤ c ∧ c ≤ 'z'
  · exact of_mem_range
      (P := fun c => digitValue? 16 c.toUpper = digitValue? 16 c) (by decide)
      hletter
  · have hsame : c.toUpper = c := dif_neg hletter
    rw [hsame]

/-- Letters may change their case before they are read. -/
theorem readDigits_map {change : Char → Char}
    (hchange : ∀ c, digitValue? 16 (change c) = digitValue? 16 c)
    (text : List Char) (value : Nat) :
    readDigits 16 bound value (text.map change) =
      readDigits 16 bound value text := by
  induction text generalizing value with
  | nil => rfl
  | cons c rest ih => simp only [List.map_cons, readDigits, hchange, ih]

theorem readDigits_upperHex (hn : n < bound) (columns : Nat) :
    readDigits 16 bound 0 (upperHex columns n).toList = .ok n := by
  rw [upperHex, String.toList_ofList, readDigits_map digitValue?_toUpper]
  exact readDigits_digits (by decide) (by decide) hn columns

theorem blank_not_mem_upperHex (columns n : Nat) :
    ' ' ∉ (upperHex columns n).toList :=
  not_mem_of_readDigits (readDigits_upperHex (Nat.lt_succ_self n) columns)
    (show digitValue? 16 ' ' = none by decide)

theorem readDigits_singleton (value : Nat) (c : Char) :
    readDigits 16 bound value [c] = .ok n ↔
      ∃ digit, IsHexDigit c digit ∧ 16 * value + digit = n ∧ n < bound := by
  simp only [← digitValue?_eq_some_iff, readDigits]
  cases digitValue? 16 c with
  | none => simp
  | some digit =>
      simp only [Option.some.injEq, exists_eq_left']
      split
      next hfits => simp only [Except.ok.injEq]; omega
      next hfits => simp; omega

theorem readDigits_concat (text : List Char) (c : Char) :
    readDigits 16 bound 0 (text ++ [c]) = .ok n ↔
      ∃ front digit, readDigits 16 bound 0 text = .ok front ∧
        IsHexDigit c digit ∧ 16 * front + digit = n ∧ n < bound := by
  rw [readDigits_append]
  cases readDigits 16 bound 0 text with
  | error cause => simp [Except.bind]
  | ok front => simp [Except.bind, readDigits_singleton]

theorem readDigits_of_spells {text : List Char} (hspells : SpellsHex text n)
    (hn : n < bound) : readDigits 16 bound 0 text = .ok n := by
  induction hspells with
  | digit hdigit =>
      exact (readDigits_singleton 0 _).mpr ⟨_, hdigit, by omega, hn⟩
  | more hfront hdigit ih =>
      exact (readDigits_concat _ _).mpr
        ⟨_, _, ih (by omega), hdigit, rfl, hn⟩

theorem spells_of_readDigits {text : List Char} (htext : text ≠ [])
    (hread : readDigits 16 bound 0 text = .ok n) :
    SpellsHex text n ∧ n < bound := by
  -- A numeral grows at its end, where the reader arrives last.
  induction text using List.reverseRecOn generalizing n with
  | nil => contradiction
  | append_singleton front c ih =>
      obtain ⟨value, digit, hfront, hdigit, rfl, hn⟩ :=
        (readDigits_concat front c).mp hread
      refine ⟨?_, hn⟩
      by_cases hempty : front = []
      · subst hempty
        cases hfront
        rw [Nat.mul_zero, Nat.zero_add]
        exact .digit hdigit
      · exact .more (ih hempty hfront).1 hdigit

theorem SpellsHex.ne_nil {text : List Char} (hspells : SpellsHex text n) :
    text ≠ [] := by
  cases hspells <;> simp

theorem SpellsHex.not_mem {text : List Char} (hspells : SpellsHex text n)
    {mark : Char} (hmark : digitValue? 16 mark = none) : mark ∉ text :=
  not_mem_of_readDigits
    (readDigits_of_spells hspells (Nat.lt_succ_self n)) hmark

theorem readDigits_eq_ok_iff {text : List Char} (htext : text ≠ []) :
    readDigits 16 bound 0 text = .ok n ↔ SpellsHex text n ∧ n < bound :=
  ⟨spells_of_readDigits htext,
    fun ⟨hspells, hn⟩ => readDigits_of_spells hspells hn⟩

/-- The digits of a number spell it, in letters of either case and behind any
number of zeros. -/
theorem spells_of_map_toLower {text : List Char} {columns : Nat}
    (htext : text.map Char.toLower = digits 16 columns n) :
    SpellsHex text n := by
  have hne : text ≠ [] := by
    rintro rfl
    exact digits_ne_nil 16 columns n htext.symm
  have hread : readDigits 16 (n + 1) 0 text = .ok n := by
    rw [← readDigits_map digitValue?_toLower, htext]
    exact readDigits_digits (by decide) (by decide) (Nat.lt_succ_self n) columns
  exact (spells_of_readDigits hne hread).1

/-- What is read is a numeral, with a plus sign before it or without. -/
theorem read_eq_ok_iff (text : List Char) :
    read 16 bound text = .ok n ↔
      ∃ digits, (text = digits ∨ text = '+' :: digits) ∧
        SpellsHex digits n ∧ n < bound := by
  have hsign : ∀ {rest : List Char} {n : Nat}, ¬ SpellsHex ('+' :: rest) n :=
    fun hspells => hspells.not_mem (by decide) List.mem_cons_self
  unfold read
  split
  case h_1 =>
    refine ⟨nofun, ?_⟩
    rintro ⟨digits, rfl | htext, hspells, -⟩
    · exact absurd rfl hspells.ne_nil
    · cases htext
  case h_2 =>
    refine ⟨nofun, ?_⟩
    rintro ⟨digits, rfl | htext, hspells, -⟩
    · exact absurd hspells hsign
    · cases htext
      exact absurd rfl hspells.ne_nil
  case h_3 rest hrest =>
    have hne : rest ≠ [] := fun hnil => hrest (hnil ▸ rfl)
    rw [readDigits_eq_ok_iff hne]
    constructor
    · exact fun hspells => ⟨rest, .inr rfl, hspells⟩
    · rintro ⟨digits, rfl | htext, hspells, hn⟩
      · exact absurd hspells hsign
      · cases htext
        exact ⟨hspells, hn⟩
  case h_4 hnil _ hplus =>
    rw [readDigits_eq_ok_iff hnil]
    constructor
    · exact fun hspells => ⟨text, .inl rfl, hspells⟩
    · rintro ⟨digits, rfl | htext, hspells⟩
      · exact hspells
      · exact absurd htext (hplus digits)

end Hex

end Numeral

end MegaDrive
