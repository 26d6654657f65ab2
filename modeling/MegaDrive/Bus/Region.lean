/-
The parts of the console's address range that something answers in.
-/
import MegaDrive.Width

namespace MegaDrive

inductive Region
  | cartridge
  | workRam
  | controller
  | latch
  | video
deriving DecidableEq, Repr

namespace Region

def start : Region → Nat
  | .cartridge => 0
  | .workRam => 0xFF0000
  | .controller => 0xA10000
  | .latch => 0xA14000
  | .video => 0xC00000

def length : Region → Nat
  | .cartridge => 0x400000
  | .workRam => 0x10000
  | .controller => 0x20
  | .latch => 4
  | .video => 16

def Contains (region : Region) (address : Address) : Prop :=
  region.start ≤ address.toNat ∧ address.toNat < region.start + region.length

instance (region : Region) (address : Address) :
    Decidable (region.Contains address) :=
  inferInstanceAs (Decidable (_ ∧ _))

/-- The region that answers at an address.  The video ports answer at even
addresses only. -/
def at? (address : Address) : Option Region :=
  if Region.cartridge.Contains address then some .cartridge
  else if Region.workRam.Contains address then some .workRam
  else if Region.controller.Contains address then some .controller
  else if Region.latch.Contains address then some .latch
  else if Region.video.Contains address ∧ address.toNat % 2 = 0 then
    some .video
  else none

/-- How far an address lies behind the start of the region. -/
def offset (region : Region) (address : Address) : Nat :=
  address.toNat - region.start

theorem contains_of_at? {address : Address} {region : Region}
    (hat : at? address = some region) : region.Contains address := by
  unfold at? at hat
  grind

theorem even_of_at?_video {address : Address}
    (hat : at? address = some .video) : address.toNat % 2 = 0 := by
  unfold at? at hat
  grind

/-- A region answers at all of its addresses, the video ports at all even ones.
-/
theorem at?_of_contains {region : Region} {address : Address}
    (hregion : region.Contains address)
    (heven : region = .video → address.toNat % 2 = 0) :
    at? address = some region := by
  unfold at?
  cases region <;> simp only [Contains, start, length] at hregion ⊢ <;> grind

/-- Two regions have no address in common. -/
theorem eq_of_contains {left right : Region} {address : Address}
    (hleft : left.Contains address) (hright : right.Contains address) :
    left = right := by
  cases left <;> cases right <;>
    first
      | rfl
      | (simp only [Contains, start, length] at hleft hright; omega)

end Region

end MegaDrive
