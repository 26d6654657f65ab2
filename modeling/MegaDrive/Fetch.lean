/-
Reading along a program: words and longs from a place in memory onwards, where
each reading moves the place behind what it took.
-/
import MegaDrive.Bus

namespace MegaDrive

/-- A piece of reading that starts at an address and says where it ended. -/
def Fetch (α : Type) : Type := Bus → Address → Reply (α × Address)

namespace Fetch

variable {α β : Type}

instance : Monad Fetch where
  pure value := fun _ place => pure (value, place)
  bind first next := fun bus place =>
    first bus place >>= fun reached => next reached.1 bus reached.2

theorem pure_apply (value : α) (bus : Bus) (place : Address) :
    (pure value : Fetch α) bus place = pure (value, place) := rfl

theorem bind_apply (first : Fetch α) (next : α → Fetch β) (bus : Bus)
    (place : Address) :
    (first >>= next) bus place =
      first bus place >>= fun reached => next reached.1 bus reached.2 := rfl

def fault (cause : Fault) : Fetch α :=
  fun _ _ => .quiet (.error cause)

def ofExcept : Except Fault α → Fetch α
  | .ok value => pure value
  | .error cause => fault cause

def word : Fetch Word := fun bus place => do
  let value ← bus.read place .word
  return (value.setWidth 16, place + 2)

def long : Fetch Long := fun bus place => do
  let value ← bus.read place .long
  return (value, place + 4)

/-- An immediate value.  A byte takes the lower half of a whole word. -/
def immediate : Width → Fetch Long
  | .byte => do
      let value ← word
      return (value.extractLsb' 0 8).setWidth 32
  | .word => do
      let value ← word
      return value.setWidth 32
  | .long => long

end Fetch

end MegaDrive
