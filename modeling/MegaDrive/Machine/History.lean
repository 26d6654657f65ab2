/-
The addresses of the last few instructions, for the report of a fault, in a
queue with room for sixteen.  Main statement: whatever was added, the history
holds the last sixteen of it.
-/
import MegaDrive.Width

namespace MegaDrive

/-- At most sixteen addresses, oldest first. -/
structure History where
  recent : List Address
  length_le : recent.length ≤ 16
deriving DecidableEq, Repr

namespace History

def empty : History :=
  ⟨[], by decide⟩

def Full (history : History) : Prop :=
  history.recent.length = 16

instance (history : History) : Decidable history.Full :=
  inferInstanceAs (Decidable (_ = _))

/-- The history without its oldest address. -/
def dropOldest (history : History) : History :=
  ⟨history.recent.tail, by
    have hlength := history.length_le
    rw [List.length_tail]
    omega⟩

/-- The history with an address at its end, unless it is full. -/
def append? (history : History) (address : Address) : Option History :=
  if hfull : history.Full then none
  else some ⟨history.recent ++ [address], by
    have hlength := history.length_le
    rw [Full] at hfull
    rw [List.length_append, List.length_singleton]
    omega⟩

/-- Add an address.  A full history gives up its oldest one first, and one that
has no room in the end stays as it is. -/
def push (history : History) (address : Address) : History :=
  let roomy := if history.Full then history.dropOldest else history
  (roomy.append? address).getD roomy

/-- The addresses worth keeping of a longer list. -/
def latest (addresses : List Address) : List Address :=
  addresses.drop (addresses.length - 16)

theorem latest_of_length_le {addresses : List Address}
    (hlength : addresses.length ≤ 16) : latest addresses = addresses := by
  simp [latest, show addresses.length - 16 = 0 by omega]

theorem recent_append? {history : History} (hroom : ¬ history.Full)
    (address : Address) (other : History) :
    ((history.append? address).getD other).recent =
      history.recent ++ [address] := by
  rw [append?, dif_neg hroom]
  rfl

theorem not_full_dropOldest {history : History} (hfull : history.Full) :
    ¬ history.dropOldest.Full := by
  rw [Full] at hfull
  rw [Full, dropOldest, List.length_tail]
  omega

/-- There is always room in the end, so that what is added is kept. -/
theorem recent_push (history : History) (address : Address) :
    (history.push address).recent = latest (history.recent ++ [address]) := by
  have hlength : (history.recent ++ [address]).length =
      history.recent.length + 1 := List.length_append
  by_cases hfull : history.Full
  · have hfirst : history.recent.length = 16 := hfull
    rw [push, if_pos hfull, recent_append? (not_full_dropOldest hfull), latest,
      hlength, hfirst, List.drop_append_of_le_length (by omega), List.drop_one]
    rfl
  · have hroom : history.recent.length + 1 ≤ 16 :=
      Nat.lt_of_le_of_ne history.length_le hfull
    rw [push, if_neg hfull, recent_append? hfull,
      latest_of_length_le (hlength ▸ hroom)]

/-- To forget the start of a list does not change how a longer one ends. -/
theorem latest_append_latest (front back : List Address) :
    latest (latest front ++ back) = latest (front ++ back) := by
  simp only [latest, List.length_append, List.length_drop, List.drop_append,
    List.drop_drop]
  congr 2 <;> omega

theorem recent_foldl_push (history : History) (addresses : List Address) :
    (addresses.foldl push history).recent =
      latest (history.recent ++ addresses) := by
  induction addresses generalizing history with
  | nil => simp [latest_of_length_le history.length_le]
  | cons address rest ih =>
      rw [List.foldl_cons, ih, recent_push, latest_append_latest,
        List.append_assoc, List.singleton_append]

end History

end MegaDrive
