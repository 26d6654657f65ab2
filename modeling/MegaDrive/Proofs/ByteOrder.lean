/-
Loads and stores of bytes against each other.  A loaded value shows the bytes
that it was loaded from, and a wide access is two of half its width, the upper
half first.  Main statement: loads and stores are inverse to each other, split
in halves, and agree with the host's loops over a slice, which abort where the
slice is too short.
-/
import MegaDrive.Proofs.Guard

namespace MegaDrive

namespace Width

/-- A long is two words and a word is two bytes. -/
def half? : Width → Option Width
  | .byte => none
  | .word => some .byte
  | .long => some .word

variable {width half : Width}

theorem bytes_of_half? (hhalf : width.half? = some half) :
    width.bytes = half.bytes + half.bytes := by
  cases width <;> cases hhalf <;> rfl

theorem extractLsb'_truncate (value : Long) {k : Nat} (hk : k < width.bytes) :
    (width.truncate value).extractLsb' (8 * k) 8 =
      value.extractLsb' (8 * k) 8 := by
  apply BitVec.eq_of_getLsbD_eq
  intro i hi
  have hlow : 8 * k + i < width.bits := by
    rw [bits]
    omega
  simp only [BitVec.getLsbD_extractLsb', getLsbD_truncate, hlow, decide_true,
    Bool.and_true]

end Width

theorem extractLsb'_shiftRight (value : Long) (distance start length : Nat) :
    (value >>> distance).extractLsb' start length =
      value.extractLsb' (distance + start) length := by
  apply BitVec.eq_of_getLsbD_eq
  intro i hi
  simp only [BitVec.getLsbD_extractLsb', BitVec.getLsbD_ushiftRight,
    Nat.add_assoc]

/-- Four bytes in a row are two words in a row. -/
theorem append_bytes (first second third last : Byte) :
    (first ++ second ++ third ++ last : Long) =
      (first ++ second : Word) ++ (third ++ last : Word) := by
  apply BitVec.eq_of_getLsbD_eq
  intro i hi
  simp only [BitVec.getLsbD_append]
  by_cases hlow : i < 8
  · simp [hlow, show i < 16 by omega]
  · by_cases hmiddle : i < 16
    · simp [hlow, hmiddle, show i - 8 < 8 by omega]
    · simp [hlow, hmiddle, show ¬ i - 8 < 8 by omega, Nat.sub_sub]

/-- The bytes of a long that is put together from four. -/
theorem extractLsb'_long (first second third last : Byte) :
    (first ++ second ++ third ++ last : Long).extractLsb' 24 8 = first ∧
      (first ++ second ++ third ++ last : Long).extractLsb' 16 8 = second ∧
      (first ++ second ++ third ++ last : Long).extractLsb' 8 8 = third ∧
      (first ++ second ++ third ++ last : Long).extractLsb' 0 8 = last := by
  simp only [BitVec.eq_of_getLsbD_eq_iff, BitVec.getLsbD_extractLsb',
    BitVec.getLsbD_append]
  grind

theorem extractLsb'_word (high low : Byte) :
    ((high ++ low).setWidth 32 : Long).extractLsb' 8 8 = high ∧
      ((high ++ low).setWidth 32 : Long).extractLsb' 0 8 = low := by
  simp only [BitVec.eq_of_getLsbD_eq_iff, BitVec.getLsbD_extractLsb',
    BitVec.getLsbD_setWidth, BitVec.getLsbD_append]
  grind

theorem extractLsb'_byte (only : Byte) :
    (only.setWidth 32 : Long).extractLsb' 0 8 = only := by
  simp only [BitVec.eq_of_getLsbD_eq_iff, BitVec.getLsbD_extractLsb',
    BitVec.getLsbD_setWidth]
  grind

namespace BigEndian

variable {n offset : Nat} {width half : Width} (bytes : Vector Byte n)

theorem store?_eq_some (value : Long) (hfits : offset + width.bytes ≤ n) :
    store? bytes offset width value = some (put bytes offset width value) :=
  if_pos hfits

/-- Only the low part of a value is stored. -/
theorem put_truncate (offset : Nat) (width : Width) (value : Long) :
    put bytes offset width (width.truncate value) =
      put bytes offset width value := by
  apply Vector.ext
  intro i hi
  rw [getElem_put, getElem_put]
  split
  next hinside => rw [Width.extractLsb'_truncate value (by omega)]
  next => rfl

/-- A store is two of half its width, the upper part of the value first. -/
theorem put_halves (hhalf : width.half? = some half) (offset : Nat)
    (value : Long) :
    put bytes offset width value =
      put (put bytes offset half (half.truncate (value >>> half.bits)))
        (offset + half.bytes) half (half.truncate value) := by
  have hbytes := Width.bytes_of_half? hhalf
  rw [put_truncate, put_truncate]
  apply Vector.ext
  intro i hi
  rw [getElem_put, getElem_put, getElem_put]
  by_cases hlow : offset + half.bytes ≤ i ∧ i < offset + half.bytes + half.bytes
  · rw [if_pos (by omega), if_pos hlow, hbytes, Nat.add_assoc]
  · rw [if_neg hlow]
    by_cases hhigh : offset ≤ i ∧ i < offset + half.bytes
    · rw [if_pos (by omega), if_pos hhigh, extractLsb'_shiftRight, Width.bits]
      rw [show 8 * half.bytes + 8 * (offset + half.bytes - 1 - i) =
        8 * (offset + width.bytes - 1 - i) by omega]
    · rw [if_neg (by omega), if_neg hhigh]

theorem store?_halves (hhalf : width.half? = some half) (offset : Nat)
    (value : Long) :
    store? bytes offset width value =
      (store? bytes offset half (half.truncate (value >>> half.bits))).bind
        fun stored =>
          store? stored (offset + half.bytes) half (half.truncate value) := by
  have hbytes := Width.bytes_of_half? hhalf
  by_cases hfits : offset + width.bytes ≤ n
  · rw [store?_eq_some bytes _ hfits, store?_eq_some bytes _ (by omega),
      Option.bind_some, store?_eq_some _ _ (by omega),
      put_halves bytes hhalf]
  · have hlow : ∀ stored : Vector Byte n,
        store? stored (offset + half.bytes) half (half.truncate value) =
          none :=
      fun stored => (store?_eq_none_iff _ _ _ _).mpr (by omega)
    rw [(store?_eq_none_iff _ _ _ _).mpr (Nat.lt_of_not_le hfits)]
    simp only [hlow]
    cases store? bytes offset half _ <;> rfl

/-- A load is two of half its width, with the first above the second. -/
theorem load?_halves (hhalf : width.half? = some half) (offset : Nat) :
    load? bytes offset width =
      (load? bytes offset half).bind fun high =>
        (load? bytes (offset + half.bytes) half).map fun low =>
          high <<< half.bits ||| low := by
  have hbytes := Width.bytes_of_half? hhalf
  by_cases hfits : offset + width.bytes ≤ n
  · cases width with
    | byte => cases hhalf
    | word =>
        cases hhalf
        have hword : offset + 2 ≤ n := hfits
        rw [load?_word bytes hword, load?_byte bytes (by omega)]
        simp only [Width.bytes]
        rw [load?_byte bytes (by omega)]
        exact congrArg some (shiftLeft_or_setWidth _ _).symm
    | long =>
        cases hhalf
        have hlong : offset + 4 ≤ n := hfits
        rw [load?_long bytes hlong, load?_word bytes (by omega)]
        simp only [Width.bytes]
        rw [load?_word bytes (by omega)]
        have hjoin := shiftLeft_or_setWidth
          (bytes[offset] ++ bytes[offset + 1])
          (bytes[offset + 2] ++ bytes[offset + 3])
        rw [append_bytes]
        exact congrArg some (hjoin.trans (BitVec.setWidth_eq _)).symm
  · have hlow : load? bytes (offset + half.bytes) half = none :=
      (load?_eq_none_iff _ _ _).mpr (by omega)
    rw [(load?_eq_none_iff _ _ _).mpr (Nat.lt_of_not_le hfits), hlow]
    cases load? bytes offset half <;> rfl

/-- A loaded value shows the bytes that it was loaded from. -/
theorem extractLsb'_of_load? {value : Long}
    (hload : load? bytes offset width = some value) {k : Nat}
    (hk : k < width.bytes) :
    some (value.extractLsb' (8 * (width.bytes - 1 - k)) 8) =
      bytes[offset + k]? := by
  have hfits := fits_of_load? hload
  rw [Vector.getElem?_eq_getElem (by omega)]
  apply congrArg some
  cases width with
  | byte =>
      rw [load?_byte bytes hfits] at hload
      cases hload
      obtain rfl : k = 0 := Nat.lt_one_iff.mp hk
      exact extractLsb'_byte _
  | word =>
      have hword : offset + 2 ≤ n := hfits
      rw [load?_word bytes hword] at hload
      cases hload
      obtain ⟨htop, hlow⟩ := extractLsb'_word bytes[offset] bytes[offset + 1]
      have hk : k < 2 := hk
      obtain rfl | rfl : k = 0 ∨ k = 1 := by omega
      · exact htop
      · exact hlow
  | long =>
      have hlong : offset + 4 ≤ n := hfits
      rw [load?_long bytes hlong] at hload
      cases hload
      obtain ⟨htop, hupper, hlower, hlow⟩ := extractLsb'_long bytes[offset]
        bytes[offset + 1] bytes[offset + 2] bytes[offset + 3]
      have hk : k < 4 := hk
      obtain rfl | rfl | rfl | rfl : k = 0 ∨ k = 1 ∨ k = 2 ∨ k = 3 := by omega
      · exact htop
      · exact hupper
      · exact hlower
      · exact hlow

/-- To store what stands there already changes nothing. -/
theorem put_of_load? {value : Long}
    (hload : load? bytes offset width = some value) :
    put bytes offset width value = bytes := by
  apply Vector.ext
  intro i hi
  rw [getElem_put]
  split
  next hinside =>
    have hbyte := extractLsb'_of_load? bytes hload
      (show i - offset < width.bytes by omega)
    rw [Nat.add_sub_cancel' hinside.1, Vector.getElem?_eq_getElem hi,
      show width.bytes - 1 - (i - offset) = offset + width.bytes - 1 - i by
        omega] at hbyte
    exact Option.some.inj hbyte
  next => rfl

/-- A load or a store in the bytes from a place on is refused exactly when they
are fewer than its width, and there the host, which folds the bytes up and
shifts the value down in a loop, aborts.  Otherwise a store changes the bytes of
its width alone, a load behind it gives the low part of the value, and to store
what was loaded changes nothing.  A wide access is one of its upper half and
then one of its lower half. -/
theorem accesses_invert {n : Nat} (bytes : Vector Byte n) (offset : Nat)
    (width : Width) (value : Long) :
    ((load? bytes offset width = none ↔ n < offset + width.bytes) ∧
      (store? bytes offset width value = none ↔ n < offset + width.bytes)) ∧
    (Guarded.loadFrom bytes offset width =
        (match load? bytes offset width with
        | some loaded => .ok loaded
        | none => .error .slice) ∧
      Guarded.storeFrom bytes offset width value =
        (match store? bytes offset width value with
        | some stored => .ok stored
        | none => .error .slice)) ∧
    (∀ stored, store? bytes offset width value = some stored →
      (∀ (i : Nat) (hi : i < n), i < offset ∨ offset + width.bytes ≤ i →
        stored[i] = bytes[i]) ∧
      load? stored offset width = some (width.truncate value)) ∧
    (∀ loaded, load? bytes offset width = some loaded →
      store? bytes offset width loaded = some bytes) ∧
    (∀ half, width.half? = some half →
      (store? bytes offset width value =
        (store? bytes offset half (half.truncate (value >>> half.bits))).bind
          fun stored =>
            store? stored (offset + half.bytes) half (half.truncate value)) ∧
      load? bytes offset width =
        (load? bytes offset half).bind fun high =>
          (load? bytes (offset + half.bytes) half).map fun low =>
            high <<< half.bits ||| low) := by
  refine ⟨⟨load?_eq_none_iff bytes offset width,
    store?_eq_none_iff bytes offset width value⟩,
    ⟨Guarded.loadFrom_eq bytes offset width,
      Guarded.storeFrom_eq bytes offset width value⟩, ?_, ?_, ?_⟩
  · intro stored hstored
    have hfits : offset + width.bytes ≤ n := by
      rw [← Nat.not_lt, ← store?_eq_none_iff bytes offset width value, hstored]
      exact Option.some_ne_none stored
    rw [store?_eq_some bytes value hfits] at hstored
    cases hstored
    refine ⟨fun i hi houtside => ?_, load?_put bytes width value hfits⟩
    rw [getElem_put, if_neg (by omega)]
  · intro loaded hload
    rw [store?_eq_some bytes loaded (fits_of_load? hload),
      put_of_load? bytes hload]
  · intro half hhalf
    exact ⟨store?_halves bytes hhalf offset value,
      load?_halves bytes hhalf offset⟩

end BigEndian

namespace ByteOrderWitness

open BigEndian

/-- Five bytes, of which the last four take a long. -/
def bytes : Vector Byte 5 := #v[0x10, 0x20, 0x30, 0x40, 0x50]

def stored : Vector Byte 5 := #v[0x10, 0xAA, 0xBB, 0xCC, 0xDD]

theorem accesses_invert_long :
    (store? bytes 1 .long 0xAABBCCDD = some stored ∧
      load? stored 1 .long = some 0xAABBCCDD) ∧
    (load? bytes 1 .long = some 0x20304050 ∧
      store? bytes 1 .long 0x20304050 = some bytes) ∧
    (Width.long.half? = some .word ∧
      (store? bytes 1 .word 0xAABB).bind
        (fun front => store? front 3 .word 0xCCDD) = some stored) := by
  have hstore : store? bytes 1 .long 0xAABBCCDD = some stored := by decide
  have hload : load? bytes 1 .long = some 0x20304050 := by decide
  have hhalf : Width.long.half? = some .word := rfl
  obtain ⟨-, -, hstored, hloaded, hhalves⟩ :=
    accesses_invert bytes 1 .long 0xAABBCCDD
  refine ⟨⟨hstore, (hstored stored hstore).2⟩, ⟨hload, hloaded _ hload⟩,
    hhalf, ?_⟩
  rw [← hstore]
  exact (hhalves .word hhalf).1.symm

end ByteOrderWitness

end MegaDrive
