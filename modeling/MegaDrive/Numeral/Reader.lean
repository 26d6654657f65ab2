/-
How unsigned numbers are read back: an optional plus sign and at least one
digit, with a value below a bound.  Main statement: reading the digits of a
number below the bound gives that number.
-/
import MegaDrive.Numeral

namespace MegaDrive

namespace Numeral

/-- Why a text is not a number of the wanted kind. -/
inductive ReadError
  | empty
  | invalidDigit
  | tooLarge
deriving DecidableEq, Repr

def ReadError.message : ReadError → String
  | .empty => "cannot parse integer from empty string"
  | .invalidDigit => "invalid digit found in string"
  | .tooLarge => "number too large to fit in target type"

/-- The value of a digit in `base`.  Letters of either case count from ten. -/
def digitValue? (base : Nat) (c : Char) : Option Nat :=
  let value :=
    if '0' ≤ c ∧ c ≤ '9' then c.toNat - '0'.toNat
    else if 'a' ≤ c ∧ c ≤ 'z' then c.toNat - 'a'.toNat + 10
    else if 'A' ≤ c ∧ c ≤ 'Z' then c.toNat - 'A'.toNat + 10
    else base
  if value < base then some value else none

/-- Read digits onto `value`, from the left.  The first character that is no
digit, or digit that takes the value to `bound`, ends the reading. -/
def readDigits (base bound : Nat) : Nat → List Char → Except ReadError Nat
  | value, [] => .ok value
  | value, c :: rest =>
      match digitValue? base c with
      | none => .error .invalidDigit
      | some digit =>
          if base * value + digit < bound then
            readDigits base bound (base * value + digit) rest
          else .error .tooLarge

/-- Read a whole text.  One plus sign may come first; alone it is no number. -/
def read (base bound : Nat) : List Char → Except ReadError Nat
  | [] => .error .empty
  | ['+'] => .error .invalidDigit
  | '+' :: rest => readDigits base bound 0 rest
  | text => readDigits base bound 0 text

theorem digitValue?_digitChar {base n : Nat} (hbase : base ≤ 16)
    (hn : n < base) : digitValue? base (Nat.digitChar n) = some n := by
  have hsmall : ∀ b < 17, ∀ k < b,
      digitValue? b (Nat.digitChar k) = some k := by decide
  exact hsmall base (by omega) n hn

theorem readDigits_append (base bound : Nat) (left right : List Char)
    (value : Nat) :
    readDigits base bound value (left ++ right) =
      (readDigits base bound value left).bind
        (fun middle => readDigits base bound middle right) := by
  induction left generalizing value with
  | nil => rfl
  | cons c rest ih =>
      simp only [List.cons_append, readDigits]
      cases digitValue? base c with
      | none => rfl
      | some digit =>
          simp only
          split
          · exact ih _
          · rfl

theorem readDigits_toDigits {base bound n : Nat} (hbase : 1 < base)
    (hsixteen : base ≤ 16) (hn : n < bound) :
    readDigits base bound 0 (Nat.toDigits base n) = .ok n := by
  induction n using Nat.strongRecOn with
  | _ n ih =>
      rw [Nat.toDigits_eq_if hbase]
      split
      next hsmall =>
        simp [readDigits, digitValue?_digitChar hsixteen hsmall, hn]
      next hlarge =>
        have hdiv : n / base < n := Nat.div_lt_self (by omega) hbase
        have hmod : n % base < base := Nat.mod_lt n (by omega)
        rw [readDigits_append, ih _ hdiv (by omega)]
        simp [Except.bind, readDigits, digitValue?_digitChar hsixteen hmod,
          Nat.div_add_mod, hn]

theorem readDigits_replicate_zero {base bound : Nat} (hbase : 1 < base)
    (hbound : 0 < bound) (count : Nat) (rest : List Char) :
    readDigits base bound 0 (List.replicate count '0' ++ rest) =
      readDigits base bound 0 rest := by
  have hzero : digitValue? base '0' = some 0 := by
    simp [digitValue?]
    omega
  induction count with
  | zero => rfl
  | succ count ih =>
      simp [List.replicate_succ, readDigits, hzero, hbound, ih]

/-- Reading is a left inverse of writing, whatever the padding. -/
theorem readDigits_digits {base bound n : Nat} (hbase : 1 < base)
    (hsixteen : base ≤ 16) (hn : n < bound) (columns : Nat) :
    readDigits base bound 0 (digits base columns n) = .ok n := by
  rw [digits, List.leftpad,
    readDigits_replicate_zero hbase (by omega) _ _,
    readDigits_toDigits hbase hsixteen hn]

end Numeral

end MegaDrive
