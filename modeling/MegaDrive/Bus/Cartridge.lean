/-
The cartridge: an image of at most four mebibytes that can be read and never
written.
-/
import MegaDrive.Bus.Region
import MegaDrive.Bus.Storage

namespace MegaDrive

structure Cartridge where
  image : Array Byte
  size_le : image.size ≤ Region.cartridge.length

namespace Cartridge

/-- Insert an image, which has to fit into the region of the cartridge. -/
def ofImage (image : Array Byte) : Except Fault Cartridge :=
  if hsize : image.size ≤ Region.cartridge.length then .ok ⟨image, hsize⟩
  else .error (.imageTooLarge image.size)

def load (cartridge : Cartridge) (address : Address) (width : Width) :
    Except Fault Long :=
  Storage.load cartridge.image.toVector Region.cartridge.start address width

end Cartridge

end MegaDrive
