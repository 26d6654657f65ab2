/-
Byte storage behind a range of addresses.  An access faults when a word or
long stands at an odd address, and otherwise when it runs past the end.
-/
import MegaDrive.BigEndian
import MegaDrive.Fault

namespace MegaDrive

/-- Words and longs stand at even addresses. -/
def Misaligned (address : Address) (width : Width) : Prop :=
  width ≠ .byte ∧ address.toNat % 2 = 1

instance (address : Address) (width : Width) :
    Decidable (Misaligned address width) :=
  inferInstanceAs (Decidable (_ ∧ _))

namespace Storage

variable {n : Nat}

/-- Load from bytes whose first stands at address `start`. -/
def load (bytes : Vector Byte n) (start : Nat) (address : Address)
    (width : Width) : Except Fault Long :=
  if Misaligned address width then .error (.misaligned address)
  else
    match BigEndian.load? bytes (address.toNat - start) width with
    | some value => .ok value
    | none => .error (.pastEnd address)

/-- The bytes after a store, when the first of them stands at `start`. -/
def store (bytes : Vector Byte n) (start : Nat) (address : Address)
    (width : Width) (value : Long) : Except Fault (Vector Byte n) :=
  if Misaligned address width then .error (.misaligned address)
  else
    match BigEndian.store? bytes (address.toNat - start) width value with
    | some stored => .ok stored
    | none => .error (.pastEnd address)

section Accesses

variable (bytes : Vector Byte n) {start : Nat} {address : Address}
  {width : Width}

theorem load_of_misaligned (hmisaligned : Misaligned address width) :
    load bytes start address width = .error (.misaligned address) := by
  rw [load, if_pos hmisaligned]

theorem load_of_pastEnd (haligned : ¬ Misaligned address width)
    (hend : n < address.toNat - start + width.bytes) :
    load bytes start address width = .error (.pastEnd address) := by
  rw [load, if_neg haligned, (BigEndian.load?_eq_none_iff _ _ _).mpr hend]

theorem load_of_some {value : Long} (haligned : ¬ Misaligned address width)
    (hvalue : BigEndian.load? bytes (address.toNat - start) width =
      some value) :
    load bytes start address width = .ok value := by
  rw [load, if_neg haligned, hvalue]

theorem store_of_misaligned (value : Long)
    (hmisaligned : Misaligned address width) :
    store bytes start address width value = .error (.misaligned address) := by
  rw [store, if_pos hmisaligned]

theorem store_of_pastEnd (value : Long) (haligned : ¬ Misaligned address width)
    (hend : n < address.toNat - start + width.bytes) :
    store bytes start address width value = .error (.pastEnd address) := by
  rw [store, if_neg haligned, (BigEndian.store?_eq_none_iff _ _ _ _).mpr hend]

theorem store_of_fits (value : Long) (haligned : ¬ Misaligned address width)
    (hfits : address.toNat - start + width.bytes ≤ n) :
    store bytes start address width value =
      .ok (BigEndian.put bytes (address.toNat - start) width value) := by
  rw [store, if_neg haligned, BigEndian.store?, if_pos hfits]

end Accesses

/-- What an aligned load gives is what the bytes spell. -/
theorem load_eq_ok_iff (bytes : Vector Byte n) (start : Nat)
    (address : Address) (width : Width) (value : Long) :
    load bytes start address width = .ok value ↔
      ¬ Misaligned address width ∧
        BigEndian.load? bytes (address.toNat - start) width = some value := by
  unfold load
  by_cases hmisaligned : Misaligned address width
  · simp [hmisaligned]
  · cases BigEndian.load? bytes (address.toNat - start) width <;>
      simp [hmisaligned]

/-- Loads and stores of one window are accepted together, and with the same
fault where they are not. -/
theorem store_eq_error_iff (bytes : Vector Byte n) (start : Nat)
    (address : Address) (width : Width) (value : Long) (fault : Fault) :
    store bytes start address width value = .error fault ↔
      load bytes start address width = .error fault := by
  unfold store load
  split
  · simp
  · by_cases hfits : n < address.toNat - start + width.bytes
    · rw [(BigEndian.load?_eq_none_iff _ _ _).mpr hfits,
        (BigEndian.store?_eq_none_iff _ _ _ _).mpr hfits]
      simp
    · have hload := mt (BigEndian.load?_eq_none_iff bytes _ width).mp hfits
      have hstore := mt (BigEndian.store?_eq_none_iff bytes _ width value).mp hfits
      split <;> split <;> simp_all

end Storage

end MegaDrive
