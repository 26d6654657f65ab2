/-
Values in storage, most significant byte first.  Main statements: an access is
refused exactly when it runs past the end, a store changes the bytes of its
own window and no others, and a load after a store gives the stored value at
the width of the store.
-/
import MegaDrive.Width

namespace MegaDrive

namespace BigEndian

variable {n : Nat}

/-- The value of the `width.bytes` bytes from `offset` on, or nothing when they
run past the end. -/
def load? (bytes : Vector Byte n) (offset : Nat) : Width → Option Long
  | .byte => do
      let only ← bytes[offset]?
      return only.setWidth 32
  | .word => do
      let high ← bytes[offset]?
      let low ← bytes[offset + 1]?
      return (high ++ low).setWidth 32
  | .long => do
      let first ← bytes[offset]?
      let second ← bytes[offset + 1]?
      let third ← bytes[offset + 2]?
      let last ← bytes[offset + 3]?
      return first ++ second ++ third ++ last

/-- The bytes with the low `width.bytes` bytes of `value` put from `offset` on.
What would fall past the end is dropped. -/
def put (bytes : Vector Byte n) (offset : Nat) (width : Width)
    (value : Long) : Vector Byte n :=
  match width with
  | .byte => bytes.setIfInBounds offset (value.extractLsb' 0 8)
  | .word =>
      (bytes.setIfInBounds offset (value.extractLsb' 8 8)).setIfInBounds
        (offset + 1) (value.extractLsb' 0 8)
  | .long =>
      (((bytes.setIfInBounds offset (value.extractLsb' 24 8)).setIfInBounds
        (offset + 1) (value.extractLsb' 16 8)).setIfInBounds
          (offset + 2) (value.extractLsb' 8 8)).setIfInBounds
            (offset + 3) (value.extractLsb' 0 8)

/-- The bytes after a store, or nothing when it would run past the end. -/
def store? (bytes : Vector Byte n) (offset : Nat) (width : Width)
    (value : Long) : Option (Vector Byte n) :=
  if offset + width.bytes ≤ n then some (put bytes offset width value)
  else none

theorem load?_byte (bytes : Vector Byte n) {offset : Nat}
    (hfits : offset + 1 ≤ n) :
    load? bytes offset .byte = some (bytes[offset].setWidth 32) := by
  simp [load?, Vector.getElem?_eq_getElem hfits]

theorem load?_word (bytes : Vector Byte n) {offset : Nat}
    (hfits : offset + 2 ≤ n) :
    load? bytes offset .word =
      some ((bytes[offset] ++ bytes[offset + 1]).setWidth 32) := by
  simp [load?, Vector.getElem?_eq_getElem (show offset < n by omega),
    Vector.getElem?_eq_getElem (show offset + 1 < n by omega)]

theorem load?_long (bytes : Vector Byte n) {offset : Nat}
    (hfits : offset + 4 ≤ n) :
    load? bytes offset .long =
      some (bytes[offset] ++ bytes[offset + 1] ++ bytes[offset + 2] ++
        bytes[offset + 3]) := by
  simp [load?, Vector.getElem?_eq_getElem (show offset < n by omega),
    Vector.getElem?_eq_getElem (show offset + 1 < n by omega),
    Vector.getElem?_eq_getElem (show offset + 2 < n by omega),
    Vector.getElem?_eq_getElem (show offset + 3 < n by omega)]

theorem load?_eq_none_iff (bytes : Vector Byte n) (offset : Nat)
    (width : Width) :
    load? bytes offset width = none ↔ n < offset + width.bytes := by
  by_cases hfits : offset + width.bytes ≤ n
  · have hsome : load? bytes offset width ≠ none := by
      cases width
      · simp [load?_byte bytes hfits]
      · simp [load?_word bytes hfits]
      · simp [load?_long bytes hfits]
    simp only [hsome, false_iff, Nat.not_lt]
    exact hfits
  · have hlast : bytes[offset + (width.bytes - 1)]? = none := by
      apply Vector.getElem?_eq_none
      cases width <;> simp only [Width.bytes] at hfits ⊢ <;> omega
    simp only [Nat.lt_of_not_le hfits, iff_true]
    cases width
    · have hnone : bytes[offset]? = none := hlast
      simp [load?, hnone]
    · have hnone : bytes[offset + 1]? = none := hlast
      simp [load?, hnone]
    · have hnone : bytes[offset + 3]? = none := hlast
      simp [load?, hnone]

theorem fits_of_load? {bytes : Vector Byte n} {offset : Nat} {width : Width}
    {value : Long} (hload : load? bytes offset width = some value) :
    offset + width.bytes ≤ n := by
  apply Nat.le_of_not_lt
  intro hend
  rw [(load?_eq_none_iff bytes offset width).mpr hend] at hload
  cases hload

theorem store?_eq_none_iff (bytes : Vector Byte n) (offset : Nat)
    (width : Width) (value : Long) :
    store? bytes offset width value = none ↔ n < offset + width.bytes := by
  simp [store?]

theorem getElem_put (bytes : Vector Byte n) (offset : Nat) (width : Width)
    (value : Long) (i : Nat) (hi : i < n) :
    (put bytes offset width value)[i] =
      if offset ≤ i ∧ i < offset + width.bytes then
        value.extractLsb' (8 * (offset + width.bytes - 1 - i)) 8
      else bytes[i] := by
  cases width with
  | byte =>
      simp only [put, Width.bytes, Vector.getElem_setIfInBounds]
      by_cases hfirst : offset = i
      · subst hfirst
        simp
      · rw [if_neg hfirst]
        exact (if_neg (by omega)).symm
  | word =>
      simp only [put, Width.bytes, Vector.getElem_setIfInBounds]
      by_cases hsecond : offset + 1 = i
      · subst hsecond
        simp
      by_cases hfirst : offset = i
      · subst hfirst
        simp
      · rw [if_neg hsecond, if_neg hfirst]
        exact (if_neg (by omega)).symm
  | long =>
      simp only [put, Width.bytes, Vector.getElem_setIfInBounds]
      by_cases hlast : offset + 3 = i
      · subst hlast
        simp
      by_cases hthird : offset + 2 = i
      · subst hthird
        simp
      by_cases hsecond : offset + 1 = i
      · subst hsecond
        simp
      by_cases hfirst : offset = i
      · subst hfirst
        simp
      · rw [if_neg hlast, if_neg hthird, if_neg hsecond, if_neg hfirst]
        exact (if_neg (by omega)).symm

/-- What was stored is loaded, at the width of the store. -/
theorem load?_put (bytes : Vector Byte n) {offset : Nat} (width : Width)
    (value : Long) (hfits : offset + width.bytes ≤ n) :
    load? (put bytes offset width value) offset width =
      some (width.truncate value) := by
  rw [Width.truncate_eq_setWidth]
  cases width with
  | byte =>
      have hbyte : offset + 1 ≤ n := hfits
      rw [load?_byte _ hbyte, getElem_put]
      simp [Width.bytes, Width.bits]
  | word =>
      have hword : offset + 2 ≤ n := hfits
      have hjoin : value.extractLsb' 8 8 ++ value.extractLsb' 0 8 =
          value.extractLsb' 0 16 :=
        BitVec.extractLsb'_append_extractLsb'_eq_extractLsb' rfl
      rw [load?_word _ hword, getElem_put, getElem_put]
      simp [Width.bytes, Width.bits, hjoin]
  | long =>
      have hlong : offset + 4 ≤ n := hfits
      have hupper : value.extractLsb' 24 8 ++ value.extractLsb' 16 8 =
          value.extractLsb' 16 16 :=
        BitVec.extractLsb'_append_extractLsb'_eq_extractLsb' rfl
      have hmiddle : value.extractLsb' 16 16 ++ value.extractLsb' 8 8 =
          value.extractLsb' 8 24 :=
        BitVec.extractLsb'_append_extractLsb'_eq_extractLsb' rfl
      have hjoin : value.extractLsb' 8 24 ++ value.extractLsb' 0 8 =
          value.extractLsb' 0 32 :=
        BitVec.extractLsb'_append_extractLsb'_eq_extractLsb' rfl
      rw [load?_long _ hlong, getElem_put, getElem_put, getElem_put,
        getElem_put]
      simp [Width.bytes, Width.bits, hupper, hmiddle, hjoin]

/-- A long is stored whole. -/
theorem load?_put_long (bytes : Vector Byte n) {offset : Nat} (value : Long)
    (hfits : offset + 4 ≤ n) :
    load? (put bytes offset .long value) offset .long = some value := by
  have hwhole : Width.long.truncate value = value := BitVec.and_allOnes
  rw [load?_put bytes .long value hfits, hwhole]

end BigEndian

end MegaDrive
