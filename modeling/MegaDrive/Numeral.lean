/-
How numbers are written: in hexadecimal of either case, in binary and in
decimal, padded with zeros on the left where a column asks for it.
-/

namespace MegaDrive

namespace Numeral

/-- The digits of `n` in `base`, most significant first, padded with zeros to
at least `columns`.  Zero has one digit. -/
def digits (base columns n : Nat) : List Char :=
  (Nat.toDigits base n).leftpad columns '0'

def decimal (n : Nat) : String :=
  String.ofList (digits 10 1 n)

def hex (columns n : Nat) : String :=
  String.ofList (digits 16 columns n)

def upperHex (columns n : Nat) : String :=
  String.ofList ((digits 16 columns n).map Char.toUpper)

def binary (columns n : Nat) : String :=
  String.ofList (digits 2 columns n)

/-- A minus sign stands before a negative number and nothing before another. -/
def signed (i : Int) : String :=
  if i < 0 then "-" ++ decimal i.natAbs else decimal i.natAbs

/-- Every number has a sign before it; zero counts as positive. -/
def explicitlySigned (i : Int) : String :=
  if i < 0 then "-" ++ decimal i.natAbs else "+" ++ decimal i.natAbs

theorem digits_ne_nil (base columns n : Nat) : digits base columns n ≠ [] := by
  intro hnil
  have hlength := congrArg List.length hnil
  simp only [digits, List.length_leftpad, List.length_nil] at hlength
  have := @Nat.length_toDigits_pos base n
  omega

theorem toList_decimal (n : Nat) : (decimal n).toList = Nat.toDigits 10 n := by
  have hlength := @Nat.length_toDigits_pos 10 n
  rw [decimal, String.toList_ofList, digits, List.leftpad,
    show 1 - (Nat.toDigits 10 n).length = 0 by omega]
  rfl

end Numeral

namespace NumeralWitness

open Numeral

example : upperHex 6 0xFF = "0000FF" := by decide

example : upperHex 6 0xFFFFFFFE = "FFFFFFFE" := by decide

example : hex 1 0 = "0" := by decide

example : binary 3 0b10 = "010" := by decide

example : signed (-32768) = "-32768" := by decide

example : explicitlySigned 0 = "+0" := by decide

end NumeralWitness

end MegaDrive
