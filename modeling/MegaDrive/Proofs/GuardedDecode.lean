/-
Decoding over the guarded bus.  Reading along a program that cannot abort is
lifted from plain reading, and what is put together from lifted pieces is
lifted as a whole.  Main statement: decoding does not abort at any address.
-/
import MegaDrive.Decode
import MegaDrive.Proofs.GuardedAccess

namespace MegaDrive

namespace Guarded

/-- A piece of reading along a program that may be aborted. -/
def Fetch (α : Type) : Type := Bus → Address → Guarded (Reply (α × Address))

namespace Fetch

variable {α β : Type}

instance : Monad Fetch where
  pure value := fun _ place => .ok (pure (value, place))
  bind first next := fun bus place => do
    let reply ← first bus place
    match reply.result with
    | .ok reached =>
        let rest ← next reached.1 bus reached.2
        return rest.after reply.events
    | .error fault => return ⟨.error fault, reply.events⟩

/-- Reading that cannot abort. -/
def lift (fetch : MegaDrive.Fetch α) : Fetch α :=
  fun bus place => .ok (fetch bus place)

theorem lift_pure (value : α) :
    (pure value : Fetch α) = lift (pure value) := rfl

theorem lift_bind (first : MegaDrive.Fetch α) (next : α → MegaDrive.Fetch β) :
    (lift first >>= fun value => lift (next value)) = lift (first >>= next) := by
  funext bus place
  change (match (first bus place).result with
    | .ok reached => _ | .error fault => _) =
    Except.ok ((first bus place).andThen _)
  unfold Reply.andThen
  cases (first bus place).result <;> rfl

def word : Fetch Word := fun bus place => do
  let reply ← Guarded.read bus place .word
  return do
    let value ← reply
    return (value.setWidth 16, place + 2)

def long : Fetch Long := fun bus place => do
  let reply ← Guarded.read bus place .long
  return do
    let value ← reply
    return (value, place + 4)

def immediate : Width → Fetch Long
  | .byte => do
      let value ← word
      return (value.extractLsb' 0 8).setWidth 32
  | .word => do
      let value ← word
      return value.setWidth 32
  | .long => long

def operand (role : Role) (width : Width) (field : OperandField) :
    Fetch Operand :=
  let number := field.register.setWidth 8
  match field.addressing?, role with
  | some .dataRegister, _ => return .register (.data number)
  | some .addressRegister, _ => return .register (.address number)
  | some .indirect, _ => return .indirect number false
  | some .postIncrement, _ => return .indirect number true
  | some .displaced, _ => do
      let displacement ← word
      return .displaced number displacement
  | some .absoluteLong, _ => do
      let address ← long
      return .absolute address
  | some .pcDisplaced, .source => do
      let displacement ← word
      return .pcDisplaced displacement
  | some .immediate, .source => do
      let value ← immediate width
      return .immediate value
  | _, _ => lift (MegaDrive.Fetch.fault (role.unsupported field))

def branchTarget (short : Byte) : Fetch (Operand × Width) :=
  if short = 0 then do
    let displacement ← word
    return (.branch displacement, .word)
  else return (.branch (short.signExtend 16), .byte)

def instruction : Opcode → Fetch Instruction
  | .nop => return .nop
  | .rts => return .rts
  | .stop => do
      let value ← word
      return .stop value
  | .moveToSr => do
      let value ← word
      return .moveToSr value
  | .tst width source => do
      let target ← operand .source width source
      return .tst target width
  | .move width source destination => do
      let origin ← operand .source width source
      let target ← operand .destination width destination
      return .move origin target width
  | .branch kind short => do
      let (target, width) ← branchTarget short
      match kind with
      | .notEqual => return .bne target width
      | .equal => return .beq target width
      | .subroutine => return .bsr target width
  | .lea source destination => do
      let target ← operand .source .long source
      return .lea target (.address (destination.setWidth 8))
  | .andi width destination => do
      let value ← immediate width
      let target ← operand .destination width destination
      return .andi (.immediate value) target width
  | .dbcc condition counter => do
      let displacement ← word
      return .dbcc condition (.data (counter.setWidth 8)) displacement
  | .subq data width destination => do
      let target ← operand .destination width destination
      let amount : Long := if data = 0 then 8 else data.setWidth 32
      return .subq (.immediate amount) target width

theorem word_eq : word = lift MegaDrive.Fetch.word := by
  funext bus place
  rw [word, read_eq]
  rfl

theorem long_eq : long = lift MegaDrive.Fetch.long := by
  funext bus place
  rw [long, read_eq]
  rfl

theorem immediate_eq (width : Width) :
    immediate width = lift (MegaDrive.Fetch.immediate width) := by
  cases width with
  | byte | word =>
      simp only [immediate, MegaDrive.Fetch.immediate, word_eq, lift_pure,
        lift_bind]
  | long => exact long_eq

theorem operand_eq (role : Role) (width : Width) (field : OperandField) :
    operand role width field =
      lift (MegaDrive.Fetch.operand role width field) := by
  unfold operand MegaDrive.Fetch.operand
  split
  all_goals simp only [*, word_eq, long_eq, immediate_eq, lift_pure, lift_bind]

theorem branchTarget_eq (short : Byte) :
    branchTarget short = lift (MegaDrive.Fetch.branchTarget short) := by
  unfold branchTarget MegaDrive.Fetch.branchTarget
  split
  · simp only [word_eq, lift_pure, lift_bind]
  · rfl

theorem instruction_eq (opcode : Opcode) :
    instruction opcode = lift (MegaDrive.Fetch.instruction opcode) := by
  cases opcode with
  | branch kind short =>
      cases kind <;> simp only [instruction, MegaDrive.Fetch.instruction,
        branchTarget_eq, lift_pure, lift_bind]
  | nop | rts => rfl
  | stop | moveToSr | tst | move | lea | andi | dbcc | subq =>
      simp only [instruction, MegaDrive.Fetch.instruction, word_eq,
        immediate_eq, operand_eq, lift_pure, lift_bind]

end Fetch

def decode (bus : Bus) (pc : Address) : Guarded (Reply Decoded) := do
  let fetched : Fetch Instruction := do
    let word ← Fetch.word
    let opcode ← Fetch.lift (MegaDrive.Fetch.ofExcept (Opcode.ofWord word))
    Fetch.instruction opcode
  let reply ← fetched bus pc
  return do
    let (instruction, next) ← reply
    return ⟨instruction, next - pc⟩

theorem decode_eq (bus : Bus) (pc : Address) :
    decode bus pc = .ok (bus.decode pc) := by
  simp only [decode, Fetch.word_eq, Fetch.instruction_eq, Fetch.lift_bind]
  rfl

end Guarded

end MegaDrive
