/-
Subroutine calls on the stack in the work RAM.  A word of instructions is
well-bracketed when each return ends the call it belongs to; it is followed
through its brackets, with the bytes of the stack that a bracket may not touch
as the invariant.  Main statement: each return leads back to where its own call
was made, however deeply calls are nested.
-/
import MegaDrive.Proofs.Effects

namespace MegaDrive

namespace BigEndian

variable {n : Nat}

/-- A load depends on the bytes of its window only. -/
theorem load?_congr {left right : Vector Byte n} {offset : Nat}
    {width : Width} (hfits : offset + width.bytes ≤ n)
    (hsame : ∀ (i : Nat) (hi : i < n), offset ≤ i →
      i < offset + width.bytes → left[i] = right[i]) :
    load? left offset width = load? right offset width := by
  cases width with
  | byte =>
      have hbyte : offset + 1 ≤ n := hfits
      rw [load?_byte left hbyte, load?_byte right hbyte,
        hsame offset (by omega) (Nat.le_refl _) (by simp [Width.bytes])]
  | word =>
      have hword : offset + 2 ≤ n := hfits
      have hat : ∀ k (hk : k < 2), left[offset + k] = right[offset + k] :=
        fun k hk => hsame _ _ (Nat.le_add_right _ _)
          (Nat.add_lt_add_left hk offset)
      rw [load?_word left hword, load?_word right hword]
      simp only [show left[offset] = right[offset] from hat 0 (by decide),
        hat 1 (by decide)]
  | long =>
      have hlong : offset + 4 ≤ n := hfits
      have hat : ∀ k (hk : k < 4), left[offset + k] = right[offset + k] :=
        fun k hk => hsame _ _ (Nat.le_add_right _ _)
          (Nat.add_lt_add_left hk offset)
      rw [load?_long left hlong, load?_long right hlong]
      simp only [show left[offset] = right[offset] from hat 0 (by decide),
        hat 1 (by decide), hat 2 (by decide), hat 3 (by decide)]

end BigEndian

namespace Instruction

/-- A subroutine call, at whatever distance and in either form. -/
def IsCall (instruction : Instruction) : Prop :=
  ∃ displacement width, instruction = .bsr (.branch displacement) width

theorem not_isCall_rts : ¬ IsCall .rts := by
  rintro ⟨displacement, width, hrts⟩
  cases hrts

end Instruction

/-- Words in which calls and returns are paired like brackets, at most so
deeply. -/
inductive Bracketed : Nat → List Instruction → Prop
  | nil (depth : Nat) : Bracketed depth []
  | other {depth : Nat} {instruction : Instruction} {rest : List Instruction}
      (hcall : ¬ instruction.IsCall) (hreturn : instruction ≠ .rts)
      (hrest : Bracketed depth rest) : Bracketed depth (instruction :: rest)
  | nest {depth : Nat} {call : Instruction} {body rest : List Instruction}
      (hcall : call.IsCall) (hbody : Bracketed depth body)
      (hrest : Bracketed (depth + 1) rest) :
      Bracketed (depth + 1) (call :: (body ++ .rts :: rest))

/-- The instruction stands in the word behind `front`. -/
def Occurs (front : List Instruction) (instruction : Instruction)
    (word : List Instruction) : Prop :=
  ∃ back, word = front ++ instruction :: back

theorem not_occurs_nil (front : List Instruction) (instruction : Instruction) :
    ¬ Occurs front instruction [] := by
  rintro ⟨back, hword⟩
  simp at hword

theorem occurs_cons_iff {front : List Instruction}
    {instruction head : Instruction} {rest : List Instruction} :
    Occurs front instruction (head :: rest) ↔
      (front = [] ∧ instruction = head) ∨
        ∃ inner, front = head :: inner ∧ Occurs inner instruction rest := by
  cases front with
  | nil => simp [Occurs, eq_comm]
  | cons first inner =>
      simp only [Occurs, List.cons_append, List.cons.injEq, reduceCtorEq,
        false_and, false_or]
      constructor
      · rintro ⟨back, rfl, hrest⟩
        exact ⟨inner, ⟨rfl, rfl⟩, back, hrest⟩
      · rintro ⟨_, ⟨rfl, rfl⟩, back, hrest⟩
        exact ⟨back, rfl, hrest⟩

theorem occurs_append_iff {front word more : List Instruction}
    {instruction : Instruction} :
    Occurs front instruction (word ++ more) ↔
      Occurs front instruction word ∨
        ∃ inner, front = word ++ inner ∧ Occurs inner instruction more := by
  induction word generalizing front with
  | nil => simp [not_occurs_nil]
  | cons head rest ih =>
      rw [List.cons_append, occurs_cons_iff, occurs_cons_iff]
      simp only [ih]
      constructor
      · rintro (hhead | ⟨_, rfl, hinner | ⟨inner, rfl, hmore⟩⟩)
        · exact .inl (.inl hhead)
        · exact .inl (.inr ⟨_, rfl, hinner⟩)
        · exact .inr ⟨inner, rfl, hmore⟩
      · rintro ((hhead | ⟨_, rfl, hinner⟩) | ⟨inner, rfl, hmore⟩)
        · exact .inl hhead
        · exact .inr ⟨_, rfl, .inl hinner⟩
        · exact .inr ⟨_, rfl, .inr ⟨inner, rfl, hmore⟩⟩

theorem occurs_nest_iff {front body rest : List Instruction}
    {call instruction : Instruction} :
    Occurs front instruction (call :: (body ++ .rts :: rest)) ↔
      (front = [] ∧ instruction = call) ∨
      (∃ inner, front = call :: inner ∧ Occurs inner instruction body) ∨
      (front = call :: body ∧ instruction = .rts) ∨
      ∃ inner, front = call :: (body ++ .rts :: inner) ∧
        Occurs inner instruction rest := by
  rw [occurs_cons_iff]
  apply or_congr_right
  simp only [occurs_append_iff, occurs_cons_iff]
  constructor
  · rintro ⟨_, rfl, hbody | ⟨_, rfl, ⟨rfl, rfl⟩ | ⟨inner, rfl, hrest⟩⟩⟩
    · exact .inl ⟨_, rfl, hbody⟩
    · exact .inr (.inl ⟨by rw [List.append_nil], rfl⟩)
    · exact .inr (.inr ⟨inner, rfl, hrest⟩)
  · rintro (⟨inner, rfl, hbody⟩ | ⟨rfl, rfl⟩ | ⟨inner, rfl, hrest⟩)
    · exact ⟨inner, rfl, .inl hbody⟩
    · exact ⟨body, rfl, .inr ⟨[], (List.append_nil body).symm, .inl ⟨rfl, rfl⟩⟩⟩
    · exact ⟨_, rfl, .inr ⟨_, rfl, .inr ⟨inner, rfl, hrest⟩⟩⟩

namespace Machine

/-- The machine after instructions executed in turn, whatever each of them
comes to. -/
def executed (machine : Machine) (word : List Instruction) : Machine :=
  word.foldl (fun reached instruction => (instruction.execute reached).machine)
    machine

@[simp] theorem executed_nil (machine : Machine) :
    machine.executed [] = machine := rfl

@[simp] theorem executed_cons (machine : Machine) (instruction : Instruction)
    (rest : List Instruction) :
    machine.executed (instruction :: rest) =
      (instruction.execute machine).machine.executed rest := rfl

@[simp] theorem executed_append (machine : Machine)
    (word more : List Instruction) :
    machine.executed (word ++ more) = (machine.executed word).executed more :=
  List.foldl_append

/-- The byte of the work RAM lies between two addresses. -/
def Within (low high i : Nat) : Prop :=
  low ≤ 0xFF0000 + i ∧ 0xFF0000 + i < high

/-- The stack pointer and the bytes between two addresses are as before. -/
structure KeepsStack (low high : Nat) (before after : Machine) : Prop where
  stackPointer :
    after.registers.stackPointer = before.registers.stackPointer
  ram : ∀ (i : Nat) (hi : i < 0x10000), Within low high i →
    after.bus.ram[i] = before.bus.ram[i]

/-- All RAM but the bytes between two addresses, all registers but the stack
pointer, and the status are as before. -/
structure StackOnly (low high : Nat) (before after : Machine) : Prop where
  ram : ∀ (i : Nat) (hi : i < 0x10000), ¬ Within low high i →
    after.bus.ram[i] = before.bus.ram[i]
  registers : ∀ register : Register, ¬ Register.stackPointer.Same register →
    after.registers.get register = before.registers.get register
  status : after.sr = before.sr

/-- The stack pointer leaves room for calls of this depth between two
addresses in the work RAM. -/
structure Room (low high depth : Nat) (machine : Machine) : Prop where
  ram_le_low : 0xFF0000 ≤ low
  high_le_ram : high ≤ 0x1000000
  even : machine.registers.stackPointer.toNat % 2 = 0
  space : low + 4 * depth ≤ machine.registers.stackPointer.toNat
  below : machine.registers.stackPointer.toNat ≤ high

section Brackets

variable {low high depth : Nat} {machine : Machine}

theorem toNat_sub_four {address : Address} (haddress : 4 ≤ address.toNat) :
    (address - 4).toNat = address.toNat - 4 := by
  bv_omega

theorem get_withStackPointer (file : RegisterFile) (top : Address)
    {register : Register} (hother : ¬ Register.stackPointer.Same register) :
    (file.withStackPointer top).get register = file.get register := by
  rw [RegisterFile.withStackPointer, RegisterFile.get_set, if_neg hother]

theorem stackPointer_withStackPointer (file : RegisterFile) (top : Address) :
    (file.withStackPointer top).stackPointer = top :=
  file.get_set_self Register.stackPointer top

/-- A call with room for it succeeds and leaves the address behind it on the
stack. -/
theorem of_call {call : Instruction} (hcall : call.IsCall)
    (hroom : Room low high (depth + 1) machine) :
    (call.execute machine).result = .ok () ∧
      ∃ pushed : Bus,
        pushed.ram = BigEndian.put machine.bus.ram
          (machine.registers.stackPointer.toNat - 4 - 0xFF0000) .long
            machine.pc ∧
        ∃ destination, (call.execute machine).machine =
          { machine with
            bus := pushed
            registers := machine.registers.withStackPointer
              (machine.registers.stackPointer - 4)
            pc := destination } := by
  obtain ⟨displacement, width, rfl⟩ := hcall
  obtain ⟨hlow, hhigh, heven, hspace, hbelow⟩ := hroom
  have htop : (machine.registers.stackPointer - 4).toNat =
      machine.registers.stackPointer.toNat - 4 := toNat_sub_four (by omega)
  have haligned : ¬ Misaligned (machine.registers.stackPointer - 4) .long := by
    rw [Misaligned, htop]
    omega
  have hbytes : Width.long.bytes = 4 := rfl
  have hwrite := machine.bus.write_ram haligned (by omega) (by omega) machine.pc
  have hresult : (Instruction.executeBsr (.branch displacement) width
      machine).result = .ok () := by
    rw [Instruction.result_executeBsr, hwrite]
    rfl
  obtain ⟨_, pushed, -, hpushed, hmachine⟩ :=
    Instruction.of_executeBsr_ok hresult
  rw [hwrite, Reply.result_quiet, htop] at hpushed
  cases hpushed
  exact ⟨hresult, _, rfl, _, hmachine⟩

/-- A return with a long on the stack goes there. -/
theorem of_return {destination : Address}
    (hroom : Room low high depth machine)
    (htop : machine.registers.stackPointer.toNat < high)
    (hstacked : BigEndian.load? machine.bus.ram
      (machine.registers.stackPointer.toNat - 0xFF0000) .long =
        some destination) :
    (Instruction.rts.execute machine).result = .ok () ∧
      (Instruction.rts.execute machine).machine =
        { machine with
          registers := machine.registers.withStackPointer
            (machine.registers.stackPointer + 4)
          pc := destination } := by
  obtain ⟨hlow, hhigh, heven, hspace, -⟩ := hroom
  have haligned : ¬ Misaligned machine.registers.stackPointer .long := by
    rw [Misaligned]
    omega
  have hread := Bus.read_ram haligned (by omega) (by omega) hstacked
  have hresult : (Instruction.executeRts machine).result = .ok () := by
    rw [Instruction.result_executeRts, hread]
    rfl
  obtain ⟨_, hdestination, hmachine⟩ := Instruction.of_executeRts_ok hresult
  rw [hread] at hdestination
  cases hdestination
  exact ⟨hresult, hmachine⟩

/-- A call changes the four bytes below the stack pointer only. -/
theorem ram_of_call {call : Instruction} (hcall : call.IsCall)
    (hroom : Room low high (depth + 1) machine) (i : Nat) (hi : i < 0x10000)
    (houtside :
      0xFF0000 + i < machine.registers.stackPointer.toNat - 4 ∨
        machine.registers.stackPointer.toNat ≤ 0xFF0000 + i) :
    (call.execute machine).machine.bus.ram[i] = machine.bus.ram[i] := by
  obtain ⟨-, pushed, hram, destination, hmachine⟩ := of_call hcall hroom
  obtain ⟨hlow, -, -, hspace, -⟩ := hroom
  have hbytes : Width.long.bytes = 4 := rfl
  simp only [hmachine, hram, BigEndian.getElem_put]
  exact if_neg (by omega)

theorem stackOnly_of_call {call : Instruction} (hcall : call.IsCall)
    (hroom : Room low high (depth + 1) machine) :
    StackOnly low high machine (call.execute machine).machine := by
  refine ⟨?_, ?_, ?_⟩
  · intro i hi hwithin
    apply ram_of_call hcall hroom i hi
    obtain ⟨-, -, -, hspace, hbelow⟩ := hroom
    rw [Within] at hwithin
    omega
  all_goals obtain ⟨-, pushed, -, destination, hmachine⟩ := of_call hcall hroom
  · rw [hmachine]
    exact fun register => get_withStackPointer _ _
  · rw [hmachine]

/-- A return changes no memory at all. -/
theorem stackOnly_of_return {destination : Address}
    (hroom : Room low high depth machine)
    (htop : machine.registers.stackPointer.toNat < high)
    (hstacked : BigEndian.load? machine.bus.ram
      (machine.registers.stackPointer.toNat - 0xFF0000) .long =
        some destination) :
    StackOnly low high machine (Instruction.rts.execute machine).machine := by
  rw [(of_return hroom htop hstacked).2]
  exact ⟨fun _ _ _ => rfl, fun register => get_withStackPointer _ _, rfl⟩

end Brackets

/-- Whatever else the word holds succeeds and keeps off the stack. -/
def OthersKeep (low high : Nat) (machine : Machine)
    (word : List Instruction) : Prop :=
  ∀ front instruction, Occurs front instruction word →
    ¬ instruction.IsCall → instruction ≠ .rts →
      (instruction.execute (machine.executed front)).result = .ok () ∧
        KeepsStack low high (machine.executed front)
          (instruction.execute (machine.executed front)).machine

/-- The calls and returns of a word succeed and touch the stack only, each
return leads back to its call, and the word leaves the stack pointer and all
that was stacked before it as they were. -/
structure Nests (low high : Nat) (machine : Machine)
    (word : List Instruction) : Prop where
  brackets : ∀ front instruction, Occurs front instruction word →
    instruction.IsCall ∨ instruction = .rts →
      (instruction.execute (machine.executed front)).result = .ok () ∧
        StackOnly low high (machine.executed front)
          (instruction.execute (machine.executed front)).machine
  returns : ∀ front, Occurs front .rts word →
    ∃ before call body inner, call.IsCall ∧ Bracketed inner body ∧
      front = before ++ call :: body ∧
      (Instruction.rts.execute (machine.executed front)).machine.pc =
        (machine.executed before).pc
  stackPointer : (machine.executed word).registers.stackPointer =
    machine.registers.stackPointer
  stacked : ∀ (i : Nat) (hi : i < 0x10000), Within low high i →
    machine.registers.stackPointer.toNat ≤ 0xFF0000 + i →
      (machine.executed word).bus.ram[i] = machine.bus.ram[i]

section Words

variable {low high depth : Nat} {machine : Machine}

theorem OthersKeep.tail {head : Instruction} {rest : List Instruction}
    (hothers : OthersKeep low high machine (head :: rest)) :
    OthersKeep low high (head.execute machine).machine rest :=
  fun front instruction hoccurs =>
    hothers (head :: front) instruction
      (occurs_cons_iff.mpr (.inr ⟨front, rfl, hoccurs⟩))

theorem OthersKeep.left {word more : List Instruction}
    (hothers : OthersKeep low high machine (word ++ more)) :
    OthersKeep low high machine word :=
  fun front instruction hoccurs =>
    hothers front instruction (occurs_append_iff.mpr (.inl hoccurs))

theorem OthersKeep.right {word more : List Instruction}
    (hothers : OthersKeep low high machine (word ++ more)) :
    OthersKeep low high (machine.executed word) more := by
  intro front instruction hoccurs
  rw [← executed_append]
  exact hothers (word ++ front) instruction
    (occurs_append_iff.mpr (.inr ⟨front, rfl, hoccurs⟩))

/-- An instruction that keeps the stack may stand in front. -/
theorem Nests.other {instruction : Instruction} {rest : List Instruction}
    (hcall : ¬ instruction.IsCall) (hreturn : instruction ≠ .rts)
    (hkeeps : KeepsStack low high machine (instruction.execute machine).machine)
    (hrest : Nests low high (instruction.execute machine).machine rest) :
    Nests low high machine (instruction :: rest) where
  brackets front bracket hoccurs hbracket := by
    rcases occurs_cons_iff.mp hoccurs with
      ⟨rfl, rfl⟩ | ⟨inner, rfl, hinner⟩
    · exact absurd hbracket (not_or.mpr ⟨hcall, hreturn⟩)
    · exact hrest.brackets inner bracket hinner hbracket
  returns front hoccurs := by
    rcases occurs_cons_iff.mp hoccurs with
      ⟨rfl, rfl⟩ | ⟨inner, rfl, hinner⟩
    · exact absurd rfl hreturn
    · obtain ⟨before, call, body, depth, hcall, hbody, rfl, hpc⟩ :=
        hrest.returns inner hinner
      exact ⟨instruction :: before, call, body, depth, hcall, hbody, rfl, hpc⟩
  stackPointer := hrest.stackPointer.trans hkeeps.stackPointer
  stacked i hi hwithin hstacked := by
    rw [← hkeeps.ram i hi hwithin]
    refine hrest.stacked i hi hwithin ?_
    rwa [hkeeps.stackPointer]

/-- The room that a call leaves for calls inside it. -/
theorem Room.called {call : Instruction} (hcall : call.IsCall)
    (hroom : Room low high (depth + 1) machine) :
    Room low high depth (call.execute machine).machine ∧
      (call.execute machine).machine.registers.stackPointer.toNat =
        machine.registers.stackPointer.toNat - 4 := by
  obtain ⟨-, pushed, -, destination, hmachine⟩ := of_call hcall hroom
  obtain ⟨hlow, hhigh, heven, hspace, hbelow⟩ := hroom
  have htop : (call.execute machine).machine.registers.stackPointer.toNat =
      machine.registers.stackPointer.toNat - 4 := by
    rw [hmachine, stackPointer_withStackPointer, toNat_sub_four (by omega)]
  exact ⟨⟨hlow, hhigh, by omega, by omega, by omega⟩, htop⟩

/-- After what a call encloses, its own address is on top of the stack again. -/
theorem Nests.stacked_of_call {call : Instruction} {body : List Instruction}
    (hcall : call.IsCall) (hroom : Room low high (depth + 1) machine)
    (hbody : Nests low high (call.execute machine).machine body) :
    BigEndian.load?
      ((call.execute machine).machine.executed body).bus.ram
      (((call.execute machine).machine.executed
        body).registers.stackPointer.toNat - 0xFF0000) .long =
          some machine.pc := by
  have htop := (hroom.called hcall).2
  obtain ⟨-, pushed, hram, destination, hmachine⟩ := of_call hcall hroom
  obtain ⟨hlow, hhigh, heven, hspace, hbelow⟩ := hroom
  have hbytes : Width.long.bytes = 4 := rfl
  have hfits : machine.registers.stackPointer.toNat - 4 - 0xFF0000 + 4 ≤
      0x10000 := by omega
  rw [hbody.stackPointer, htop, ← BigEndian.load?_put_long machine.bus.ram
    machine.pc hfits, ← hram]
  apply BigEndian.load?_congr hfits
  intro i hi hfrom hto
  rw [hbody.stacked i hi]
  · simp only [hmachine]
  · rw [Within]
    omega
  · omega

/-- The return of a call, once what the call encloses is done. -/
theorem Nests.of_return {call : Instruction} {body : List Instruction}
    (hcall : call.IsCall) (hroom : Room low high (depth + 1) machine)
    (hbody : Nests low high (call.execute machine).machine body) :
    let inside := (call.execute machine).machine.executed body
    let after := Instruction.rts.execute inside
    after.result = .ok () ∧ StackOnly low high inside after.machine ∧
      after.machine.bus = inside.bus ∧ after.machine.pc = machine.pc ∧
      after.machine.registers.stackPointer =
        machine.registers.stackPointer := by
  have hstacked := hbody.stacked_of_call hcall hroom
  obtain ⟨hroom', htop⟩ := hroom.called hcall
  obtain ⟨hlow, hhigh, heven, hspace, hbelow⟩ := hroom
  have hsame := congrArg BitVec.toNat hbody.stackPointer
  have hinside : Room low high depth
      ((call.execute machine).machine.executed body) :=
    ⟨hlow, hhigh, by omega, by omega, by omega⟩
  obtain ⟨hresult, hmachine⟩ :=
    Machine.of_return hinside (by omega) hstacked
  refine ⟨hresult, stackOnly_of_return hinside (by omega) hstacked, ?_⟩
  rw [hmachine]
  refine ⟨rfl, rfl, ?_⟩
  rw [stackPointer_withStackPointer]
  apply BitVec.eq_of_toNat_eq
  bv_omega

/-- A call, what it encloses, its return and what follows. -/
theorem Nests.nest {call : Instruction} {body rest : List Instruction}
    (hcall : call.IsCall) (hinner : Bracketed depth body)
    (hroom : Room low high (depth + 1) machine)
    (hbody : Nests low high (call.execute machine).machine body)
    (hrest : Nests low high (Instruction.rts.execute
      ((call.execute machine).machine.executed body)).machine rest) :
    Nests low high machine (call :: (body ++ .rts :: rest)) := by
  obtain ⟨hresult, hreturned, hbus, hpc, hpointer⟩ :=
    hbody.of_return hcall hroom
  have hword : machine.executed (call :: (body ++ .rts :: rest)) =
      (Instruction.rts.execute
        ((call.execute machine).machine.executed body)).machine.executed
          rest := by
    simp only [executed_cons, executed_append]
  refine ⟨?_, ?_, ?_, ?_⟩
  · intro front bracket hoccurs hbracket
    rcases occurs_nest_iff.mp hoccurs with
      ⟨rfl, rfl⟩ | ⟨inner, rfl, hbody'⟩ | ⟨rfl, rfl⟩ | ⟨inner, rfl, hrest'⟩
    · exact ⟨(of_call hcall hroom).1, stackOnly_of_call hcall hroom⟩
    · exact hbody.brackets inner bracket hbody' hbracket
    · exact ⟨hresult, hreturned⟩
    · simp only [executed_cons, executed_append]
      exact hrest.brackets inner bracket hrest' hbracket
  · intro front hoccurs
    rcases occurs_nest_iff.mp hoccurs with
      ⟨rfl, heq⟩ | ⟨inner, rfl, hbody'⟩ | ⟨rfl, -⟩ | ⟨inner, rfl, hrest'⟩
    · exact absurd (heq ▸ hcall) Instruction.not_isCall_rts
    · obtain ⟨before, call', body', depth', hcall', hinner', rfl, hpc'⟩ :=
        hbody.returns inner hbody'
      exact ⟨call :: before, call', body', depth', hcall', hinner', rfl, hpc'⟩
    · exact ⟨[], call, body, depth, hcall, hinner, rfl, hpc⟩
    · obtain ⟨before, call', body', depth', hcall', hinner', rfl, hpc'⟩ :=
        hrest.returns inner hrest'
      refine ⟨call :: (body ++ .rts :: before), call', body', depth', hcall',
        hinner', by simp, ?_⟩
      simp only [executed_cons, executed_append] at hpc' ⊢
      exact hpc'
  · rw [hword, hrest.stackPointer, hpointer]
  · intro i hi hwithin hstacked
    have htop := (hroom.called hcall).2
    have hafter := hrest.stacked i hi hwithin (by rwa [hpointer])
    have hinside := hbody.stacked i hi hwithin (by omega)
    have hcalled := ram_of_call hcall hroom i hi (.inr hstacked)
    simp only [hword, hafter, hbus, hinside, hcalled]

end Words

end Machine

namespace CallNestingWitness

open Instruction Machine

/-- An empty stack that ends where the work RAM ends. -/
def ready : Machine :=
  { blank (Bus.powerOn ⟨#[], by decide⟩ 0) with
    registers := RegisterFile.cleared.withStackPointer 0x1000000
    pc := 0x200 }

end CallNestingWitness

end MegaDrive
