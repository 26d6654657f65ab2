/-
What the console notes while it works, and replies that carry such notes.  A
note is kept as data; its level and wording are read off it.
-/
import MegaDrive.Fault

namespace MegaDrive

/-- Levels of importance, the most important first. -/
inductive Level
  | error
  | warn
  | info
  | debug
  | trace
deriving DecidableEq, Repr

def Level.rank : Level → Nat
  | .error => 1
  | .warn => 2
  | .info => 3
  | .debug => 4
  | .trace => 5

/-- A thing worth noting that happened on the bus or in the processor. -/
inductive Event
  | cartridgeWrite (address : Address)
  | controllerRead (address : Address) (width : Width)
  | controllerWrite (address : Address) (width : Width) (value : Long)
  /-- The latch holds `value` from now on. -/
  | latched (value : Long)
  /-- The video ports took the low part of `value`. -/
  | videoWrite (address : Address) (width : Width) (value : Long)
  /-- A subroutine call that will come back to `origin`. -/
  | call (origin destination : Address)
deriving DecidableEq, Repr

def Event.level : Event → Level
  | .cartridgeWrite _ => .warn
  | _ => .debug

def Event.message : Event → String
  | .cartridgeWrite address =>
      "Write operation is not allowed on ROM (" ++ address.text ++ ")"
  | .controllerRead address width =>
      "Reading " ++ width.name ++ " from I/O port: " ++ address.text
  | .controllerWrite address width value =>
      "Discarding " ++ width.name ++ " write to I/O port: " ++
        address.text ++ " with value 0x" ++
        Numeral.upperHex 1 value.toNat
  | .latched value => "TMSS latch now 0x" ++ Numeral.upperHex 8 value.toNat
  | .videoWrite address width value =>
      "VDP port " ++ address.text ++ " <- 0x" ++
        Numeral.upperHex 1 (width.truncate value).toNat ++
        " (" ++ width.name ++ ")"
  | .call origin destination =>
      "bsr " ++ origin.text ++ " -> " ++ destination.text

/-- An answer together with the events on the way to it, oldest first. -/
structure Reply (α : Type) where
  result : Except Fault α
  events : List Event

namespace Reply

variable {α β : Type}

/-- An answer without events. -/
def quiet (result : Except Fault α) : Reply α :=
  ⟨result, []⟩

/-- The same answer with events before its own. -/
def after (earlier : List Event) (reply : Reply α) : Reply α :=
  ⟨reply.result, earlier ++ reply.events⟩

/-- Go on after a success; a fault ends the work and keeps its events. -/
def andThen (first : Reply α) (next : α → Reply β) : Reply β :=
  match first.result with
  | .ok value => (next value).after first.events
  | .error fault => ⟨.error fault, first.events⟩

instance : Monad Reply where
  pure value := quiet (.ok value)
  bind := andThen

theorem pure_eq (value : α) : (pure value : Reply α) = ⟨.ok value, []⟩ := rfl

theorem bind_eq (first : Reply α) (next : α → Reply β) :
    first >>= next = first.andThen next := rfl

@[simp] theorem result_quiet (result : Except Fault α) :
    (quiet result).result = result := rfl

@[simp] theorem events_quiet (result : Except Fault α) :
    (quiet result).events = [] := rfl

@[simp] theorem result_after (earlier : List Event) (reply : Reply α) :
    (reply.after earlier).result = reply.result := rfl

@[simp] theorem events_after (earlier : List Event) (reply : Reply α) :
    (reply.after earlier).events = earlier ++ reply.events := rfl

@[simp] theorem after_nil (reply : Reply α) : reply.after [] = reply := rfl

@[simp] theorem after_mk (earlier : List Event) (result : Except Fault α)
    (events : List Event) :
    after earlier ⟨result, events⟩ = ⟨result, earlier ++ events⟩ := rfl

@[simp] theorem andThen_ok (value : α) (events : List Event)
    (next : α → Reply β) :
    andThen ⟨.ok value, events⟩ next = (next value).after events := rfl

@[simp] theorem andThen_error (fault : Fault) (events : List Event)
    (next : α → Reply β) :
    andThen ⟨.error fault, events⟩ next = ⟨.error fault, events⟩ := rfl

/-- Events do not decide results. -/
theorem result_andThen (first : Reply α) (next : α → Reply β) :
    (first.andThen next).result =
      first.result.bind (fun value => (next value).result) := by
  unfold andThen
  cases first.result <;> rfl

end Reply

end MegaDrive
