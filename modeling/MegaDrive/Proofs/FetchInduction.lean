/-
Decoding is put together from words, longs, plain values and faults.  Main
statement: what holds of these and is kept when one fetch follows another holds
of decoding as a whole.
-/
import MegaDrive.Decode

namespace MegaDrive

namespace Fetch

/-- A property that holds of the parts of decoding, and of two fetches in a row
when it holds of each. -/
structure Composes (P : ∀ {α : Type}, Fetch α → Prop) : Prop where
  pure : ∀ {α : Type} (value : α), P (Pure.pure value : Fetch α)
  fault : ∀ {α : Type} (cause : Fault), P (fault cause : Fetch α)
  word : P word
  long : P long
  bind : ∀ {α β : Type} {first : Fetch α} {next : α → Fetch β},
    P first → (∀ value, P (next value)) → P (first >>= next)

namespace Composes

variable {P : ∀ {α : Type}, Fetch α → Prop} (composes : Composes P)

include composes

/-- A last step that reads nothing. -/
theorem map {α β : Type} {first : Fetch α} (hfirst : P first)
    (result : α → β) : P (first >>= fun value => Pure.pure (result value)) :=
  composes.bind hfirst fun value => composes.pure (result value)

theorem ofExcept {α : Type} (result : Except Fault α) :
    P (Fetch.ofExcept result) := by
  cases result with
  | ok value => exact composes.pure value
  | error cause => exact composes.fault cause

theorem immediate (width : Width) : P (Fetch.immediate width) := by
  cases width with
  | byte => exact composes.map composes.word _
  | word => exact composes.map composes.word _
  | long => exact composes.long

theorem operand (role : Role) (width : Width) (field : OperandField) :
    P (Fetch.operand role width field) := by
  unfold Fetch.operand
  dsimp only
  split
  case h_5 => exact composes.map composes.word _
  case h_6 => exact composes.map composes.long _
  case h_7 => exact composes.map composes.word _
  case h_8 => exact composes.map (composes.immediate width) _
  case h_9 => exact composes.fault _
  all_goals exact composes.pure _

theorem branchTarget (short : Byte) : P (Fetch.branchTarget short) := by
  unfold Fetch.branchTarget
  split
  · exact composes.map composes.word _
  · exact composes.pure _

theorem instruction (opcode : Opcode) : P (Fetch.instruction opcode) := by
  cases opcode with
  | nop => exact composes.pure _
  | rts => exact composes.pure _
  | stop => exact composes.map composes.word _
  | moveToSr => exact composes.map composes.word _
  | tst width source =>
      exact composes.map (composes.operand .source width source) _
  | move width source destination =>
      refine composes.bind (composes.operand .source width source)
        fun origin => ?_
      exact composes.map (composes.operand .destination width destination) _
  | branch kind short =>
      refine composes.bind (composes.branchTarget short) fun target => ?_
      cases kind <;> exact composes.pure _
  | lea source destination =>
      exact composes.map (composes.operand .source .long source) _
  | andi width destination =>
      refine composes.bind (composes.immediate width) fun value => ?_
      exact composes.map (composes.operand .destination width destination) _
  | dbcc condition counter => exact composes.map composes.word _
  | subq data width destination =>
      exact composes.map (composes.operand .destination width destination) _

/-- The stream that decoding reads: an opcode word and what it asks for. -/
theorem code :
    P (Fetch.word >>= fun word =>
      Fetch.ofExcept (Opcode.ofWord word) >>= Fetch.instruction) :=
  composes.bind composes.word fun word =>
    composes.bind (composes.ofExcept (Opcode.ofWord word)) composes.instruction

end Composes

end Fetch

end MegaDrive
