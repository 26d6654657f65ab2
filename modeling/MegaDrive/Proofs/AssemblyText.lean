/-
Assembly text read back.  A text falls into its parts at marks that occur in
none of them: a blank behind the name, a dot before the width, a comma between
two operands, and parentheses around a base register.  Main statement: no two
instructions have the same text, and no two operands.
-/
import MegaDrive.Instruction
import MegaDrive.Proofs.ControlFlow
import MegaDrive.Proofs.NumeralText

namespace MegaDrive

section Marks

variable {mark : Char} {front back : List Char}

theorem splitOn_of_not_mem (hfront : mark ∉ front) :
    front.splitOn mark = [front] := by
  have hsplit : ([mark].intercalate [front]).splitOn mark = [front] :=
    List.splitOn_intercalate mark (by simpa using hfront) (by simp)
  simpa using hsplit

theorem splitOn_append_cons (hfront : mark ∉ front) (hback : mark ∉ back) :
    (front ++ mark :: back).splitOn mark = [front, back] := by
  have hsplit : ([mark].intercalate [front, back]).splitOn mark =
      [front, back] :=
    List.splitOn_intercalate mark (by simpa using ⟨hfront, hback⟩) (by simp)
  simpa using hsplit

end Marks

namespace Numeral

/-- Read a number that has a sign only when it is negative. -/
def readInteger? (bound : Nat) : List Char → Option Int
  | '-' :: rest => readSigned? bound ('-' :: rest)
  | text => (readBelow? 10 bound text).map fun n => (n : Int)

theorem readInteger?_signed {bound : Nat} {i : Int} (hi : i.natAbs < bound) :
    readInteger? bound (signed i).toList = some i := by
  by_cases hsign : i < 0
  · have hread := readSigned?_explicitlySigned hi
    rw [explicitlySigned, if_pos hsign, String.toList_append] at hread
    rw [signed, if_pos hsign, String.toList_append]
    exact hread
  · have hminus : '-' ∉ digits 10 1 i.natAbs :=
      not_mem_digits (by decide) (by decide) (by decide)
    have hread := readBelow?_digits (by decide) (by decide : 10 ≤ 16) hi 1
    rw [signed, if_neg hsign, decimal, String.toList_ofList, readInteger?,
      hread]
    · exact congrArg some (by omega : (i.natAbs : Int) = i)
    · intro rest htext
      exact hminus (htext ▸ List.mem_cons_self)

theorem not_mem_signed {mark : Char} (hminus : mark ≠ '-')
    (hmark : digitValue? 10 mark = none) (i : Int) :
    mark ∉ (signed i).toList := by
  have hdigits : mark ∉ digits 10 1 i.natAbs :=
    not_mem_digits (by decide) (by decide) hmark
  rw [signed]
  split <;> simp [decimal, hminus, hdigits]

theorem not_mem_explicitlySigned {mark : Char} (hsigns : mark ∉ ['+', '-'])
    (hmark : digitValue? 10 mark = none) (i : Int) :
    mark ∉ (explicitlySigned i).toList := by
  have hdigits : mark ∉ digits 10 1 i.natAbs :=
    not_mem_digits (by decide) (by decide) hmark
  rw [explicitlySigned]
  split <;> simp_all [decimal]

/-- There is a digit in every number. -/
theorem signed_ne_nil (i : Int) : (signed i).toList ≠ [] := by
  have hdigits := digits_ne_nil 10 1 i.natAbs
  rw [signed]
  split <;> simp [decimal, hdigits]

end Numeral

open Numeral

namespace Register

def ofText? : List Char → Option Register
  | ['s', 'p'] => some stackPointer
  | 'd' :: digits =>
      (readBelow? 10 256 digits).map fun n => .data (BitVec.ofNat 8 n)
  | 'a' :: digits =>
      (readBelow? 10 256 digits).map fun n => .address (BitVec.ofNat 8 n)
  | _ => none

theorem ofText?_text (register : Register) :
    ofText? register.text.toList = some register := by
  cases register with
  | data number =>
      have hread := readBelow?_digits (by decide) (by decide : 10 ≤ 16)
        number.isLt 1
      simp [text, decimal, ofText?, hread]
  | address number =>
      rw [text]
      split
      next hseven => rw [hseven]; rfl
      next =>
        have hread := readBelow?_digits (by decide) (by decide : 10 ≤ 16)
          number.isLt 1
        simp [decimal, ofText?, hread]

theorem not_mem_text {mark : Char} (hletters : mark ∉ ['d', 'a', 's', 'p'])
    (hmark : digitValue? 10 mark = none) (register : Register) :
    mark ∉ register.text.toList := by
  have hdigits : ∀ n, mark ∉ digits 10 1 n := fun n =>
    not_mem_digits (by decide) (by decide) hmark
  cases register with
  | data number => simp_all [text, decimal]
  | address number =>
      rw [text]
      split <;> simp_all [decimal]

end Register

namespace Operand

/-- Read an operand that needs no parentheses. -/
def ofBareText? : List Char → Option Operand
  | '$' :: digits =>
      (readBelow? 16 0x100000000 digits).map fun n =>
        .absolute (BitVec.ofNat 32 n)
  | '#' :: '$' :: digits =>
      (readBelow? 16 0x100000000 digits).map fun n =>
        .immediate (BitVec.ofNat 32 n)
  | '*' :: shown =>
      (readSigned? 0x10000 shown).map fun i => .branch (BitVec.ofInt 16 (i - 2))
  | text => (Register.ofText? text).map .register

/-- Read an operand by what stands before its parentheses, between them and
behind them. -/
def ofBaseText? (number name mark : List Char) : Option Operand :=
  if name = ['p', 'c'] then
    (readInteger? 0x10000 number).map fun i => .pcDisplaced (BitVec.ofInt 16 i)
  else
    match Register.ofText? name with
    | some (.address base) =>
        if number = [] then some (.indirect base (mark = ['+']))
        else
          (readInteger? 0x10000 number).map fun i =>
            .displaced base (BitVec.ofInt 16 i)
    | _ => none

def ofText? (text : List Char) : Option Operand :=
  match text.splitOn '(' with
  | [bare] => ofBareText? bare
  | [number, rest] =>
      match rest.splitOn ')' with
      | [name, mark] => ofBaseText? number name mark
      | _ => none
  | _ => none

theorem ofText?_of_bare {text : List Char} (htext : '(' ∉ text) :
    ofText? text = ofBareText? text := by
  rw [ofText?, splitOn_of_not_mem htext]

theorem ofText?_of_base {number name mark : List Char} (hnumber : '(' ∉ number)
    (hname : '(' ∉ name ∧ ')' ∉ name) (hmark : '(' ∉ mark ∧ ')' ∉ mark) :
    ofText? (number ++ '(' :: (name ++ ')' :: mark)) =
      ofBaseText? number name mark := by
  have hrest : '(' ∉ name ++ ')' :: mark := by simp [hname.1, hmark.1]
  rw [ofText?, splitOn_append_cons hnumber hrest]
  simp only
  rw [splitOn_append_cons hname.2 hmark.2]

/-- An immediate value is read at any number of columns. -/
theorem ofText?_immediate (columns : Nat) {n : Nat} (hn : n < 0x100000000) :
    ofText? ('#' :: '$' :: digits 16 columns n) =
      some (.immediate (BitVec.ofNat 32 n)) := by
  have hopen : '(' ∉ digits 16 columns n :=
    not_mem_digits (by decide) (by decide) (by decide)
  rw [ofText?_of_bare (by simpa using hopen), ofBareText?,
    readBelow?_digits (by decide) (by decide) hn]
  rfl

/-- No parenthesis stands in the name of a base. -/
theorem not_mem_base (base : Byte) :
    '(' ∉ (Register.address base).text.toList ∧
      ')' ∉ (Register.address base).text.toList :=
  ⟨Register.not_mem_text (by decide) (by decide) _,
    Register.not_mem_text (by decide) (by decide) _⟩

theorem base_ne_pc (base : Byte) :
    (Register.address base).text.toList ≠ ['p', 'c'] := by
  intro hpc
  have hname := (Register.address base).ofText?_text
  rw [hpc] at hname
  cases hname

theorem natAbs_toInt_lt (displacement : Word) :
    displacement.toInt.natAbs < 0x10000 ∧
      (displacement.toInt + 2).natAbs < 0x10000 := by
  have hlow := BitVec.le_toInt displacement
  have hhigh := BitVec.toInt_lt (x := displacement)
  omega

theorem ofText?_branchText (displacement : Word) :
    ofText? (branchText displacement).toList =
      some (.branch displacement) := by
  have hread := readSigned?_explicitlySigned (natAbs_toInt_lt displacement).2
  have hopen : '(' ∉ (explicitlySigned (displacement.toInt + 2)).toList :=
    not_mem_explicitlySigned (by decide) (by decide) _
  have htext : (branchText displacement).toList =
      '*' :: (explicitlySigned (displacement.toInt + 2)).toList := by
    simp [branchText]
  rw [htext, ofText?_of_bare (by simpa using hopen), ofBareText?, hread]
  simp

/-- The letters of a register do not begin any other operand. -/
theorem ofBareText?_register (name : Register) :
    ofBareText? name.text.toList = some (.register name) := by
  have hname := name.ofText?_text
  have hdollar : '$' ∉ name.text.toList :=
    name.not_mem_text (by decide) (by decide)
  have hstar : '*' ∉ name.text.toList :=
    name.not_mem_text (by decide) (by decide)
  rw [ofBareText?, hname]
  · rfl
  · rintro rest htext
    simp [htext] at hdollar
  · rintro rest htext
    simp [htext] at hdollar
  · rintro rest htext
    simp [htext] at hstar

theorem ofText?_text (operand : Operand) :
    ofText? operand.text.toList = some operand := by
  cases operand with
  | absolute address =>
      have hopen : '(' ∉ digits 16 8 address.toNat :=
        not_mem_digits (by decide) (by decide) (by decide)
      have hread := readBelow?_digits (by decide) (by decide : 16 ≤ 16)
        address.isLt 8
      have htext : (text (.absolute address)).toList =
          '$' :: digits 16 8 address.toNat := by simp [text, hex]
      rw [htext, ofText?_of_bare (by simpa using hopen), ofBareText?, hread]
      simp
  | immediate value =>
      have htext : (text (.immediate value)).toList =
          '#' :: '$' :: digits 16 1 value.toNat := by simp [text, hex]
      rw [htext, ofText?_immediate 1 value.isLt]
      simp
  | register name =>
      have hopen : '(' ∉ name.text.toList :=
        name.not_mem_text (by decide) (by decide)
      exact (ofText?_of_bare hopen).trans (ofBareText?_register name)
  | indirect base postIncrement =>
      have hname := (Register.address base).ofText?_text
      have htext : (text (.indirect base postIncrement)).toList =
          [] ++ '(' :: ((Register.address base).text.toList ++
            ')' :: if postIncrement then ['+'] else []) := by
        cases postIncrement <;> simp [text]
      rw [htext, ofText?_of_base (by simp) (not_mem_base base)
        (by cases postIncrement <;> simp), ofBaseText?, if_neg (base_ne_pc base),
        hname]
      cases postIncrement <;> rfl
  | displaced base displacement =>
      have hname := (Register.address base).ofText?_text
      have hread := readInteger?_signed (natAbs_toInt_lt displacement).1
      have htext : (text (.displaced base displacement)).toList =
          (signed displacement.toInt).toList ++
            '(' :: ((Register.address base).text.toList ++ ')' :: []) := by
        simp [text]
      rw [htext, ofText?_of_base
        (not_mem_signed (by decide) (by decide) _) (not_mem_base base)
        (by simp), ofBaseText?, if_neg (base_ne_pc base), hname]
      simp only
      rw [if_neg (signed_ne_nil _), hread]
      simp
  | pcDisplaced displacement =>
      have hread := readInteger?_signed (natAbs_toInt_lt displacement).1
      have htext : (text (.pcDisplaced displacement)).toList =
          (signed displacement.toInt).toList ++
            '(' :: (['p', 'c'] ++ ')' :: []) := by simp [text]
      rw [htext, ofText?_of_base
        (not_mem_signed (by decide) (by decide) _) (by simp) (by simp),
        ofBaseText?, if_pos rfl, hread]
      simp
  | branch displacement => exact ofText?_branchText displacement

theorem text_injective : Function.Injective text := by
  intro left right htext
  have hleft := left.ofText?_text
  rw [htext, right.ofText?_text] at hleft
  exact (Option.some.inj hleft).symm

/-- Which marks can stand between operands: all but those that they are
written with. -/
def Separates (mark : Char) : Prop :=
  mark ∉ ['$', '#', '(', ')', '+', '-', '*', 'a', 'c', 'd', 'p', 's'] ∧
    digitValue? 10 mark = none ∧ digitValue? 16 mark = none

theorem separates_blank : Separates ' ' :=
  ⟨by decide, by decide, by decide⟩

theorem separates_comma : Separates ',' :=
  ⟨by decide, by decide, by decide⟩

theorem Separates.not_mem_register {mark : Char} (hmark : Separates mark)
    (name : Register) : mark ∉ name.text.toList :=
  name.not_mem_text (by simp_all [Separates]) hmark.2.1

theorem Separates.not_mem_branchText {mark : Char} (hmark : Separates mark)
    (displacement : Word) : mark ∉ (branchText displacement).toList := by
  have hshown := not_mem_explicitlySigned (by simp_all [Separates]) hmark.2.1
    (displacement.toInt + 2)
  simp_all [Separates, branchText]

theorem Separates.not_mem_text {mark : Char} (hmark : Separates mark)
    (operand : Operand) : mark ∉ operand.text.toList := by
  have hhex : ∀ columns n, mark ∉ digits 16 columns n := fun columns n =>
    not_mem_digits (by decide) (by decide) hmark.2.2
  have hsigned := not_mem_signed (by simp_all [Separates]) hmark.2.1
  have hregister := hmark.not_mem_register
  have hmarks := hmark.1
  cases operand with
  | absolute address => simp_all [text, hex]
  | immediate value => simp_all [text, hex]
  | register name => exact hregister name
  | indirect base postIncrement => cases postIncrement <;> simp_all [text]
  | displaced base displacement => simp_all [text]
  | pcDisplaced displacement => simp_all [text]
  | branch displacement => exact hmark.not_mem_branchText displacement

end Operand

/-- Read the letter behind a name.  That of a short branch also says byte. -/
def Width.ofSuffix? : List Char → Option Width
  | ['b'] | ['s'] => some .byte
  | ['w'] => some .word
  | ['l'] => some .long
  | _ => none

theorem Width.ofSuffix?_suffix (width : Width) :
    ofSuffix? width.suffix.toList = some width := by
  cases width <;> rfl

theorem Width.not_mem_of_ofSuffix? {suffix : List Char} {width : Width}
    (hsuffix : ofSuffix? suffix = some width) :
    ' ' ∉ suffix ∧ '.' ∉ suffix := by
  unfold ofSuffix? at hsuffix
  split at hsuffix <;> first | decide | cases hsuffix

def Condition.ofMnemonic? (text : List Char) : Option Condition :=
  ((List.range 16).map fun code => ofCode (BitVec.ofNat 4 code)).find?
    fun condition => condition.mnemonic.toList = text

theorem Condition.ofMnemonic?_mnemonic (condition : Condition) :
    ofMnemonic? condition.mnemonic.toList = some condition := by
  cases condition <;> decide

namespace Instruction

open Operand

/-- The instructions with one operand and a width, by name. -/
def unary? : List Char → Option (Operand → Width → Instruction)
  | ['t', 's', 't'] => some .tst
  | ['b', 'n', 'e'] => some .bne
  | ['b', 'e', 'q'] => some .beq
  | ['b', 's', 'r'] => some .bsr
  | _ => none

/-- The instructions with two operands and a width, by name. -/
def binary? : List Char → Option (Operand → Operand → Width → Instruction)
  | ['m', 'o', 'v', 'e'] => some .move
  | ['a', 'n', 'd', 'i'] => some .andi
  | ['s', 'u', 'b', 'q'] => some .subq
  | _ => none

/-- Read a word that stands where an immediate operand does. -/
def wordOfText? (text : List Char) : Option Word := do
  let .immediate value ← Operand.ofText? text | none
  return value.setWidth 16

/-- Read a loop by what follows the letters of its name. -/
def loopOfText? (mnemonic counter distance : List Char) :
    Option Instruction := do
  let condition ← Condition.ofMnemonic? mnemonic
  let name ← Register.ofText? counter
  let .branch displacement ← Operand.ofText? distance | none
  return .dbcc condition name displacement

/-- Read an instruction by the parts of its name, between which a dot stands,
and by its operands. -/
def ofParts? (name operands : List (List Char)) : Option Instruction :=
  match name, operands with
  | [stem, suffix], [target] => do
      return (← unary? stem) (← Operand.ofText? target)
        (← Width.ofSuffix? suffix)
  | [stem, suffix], [source, destination] =>
      if destination = ['s', 'r'] ∧ stem = ['m', 'o', 'v', 'e'] ∧
          suffix = ['w'] then
        (wordOfText? source).map .moveToSr
      else do
        return (← binary? stem) (← Operand.ofText? source)
          (← Operand.ofText? destination) (← Width.ofSuffix? suffix)
  | [['s', 't', 'o', 'p']], [value] => (wordOfText? value).map .stop
  | [['l', 'e', 'a']], [target, destination] => do
      return .lea (← Operand.ofText? target) (← Register.ofText? destination)
  | ['d' :: 'b' :: mnemonic], [counter, distance] =>
      loopOfText? mnemonic counter distance
  | _, _ => none

def ofText? (text : List Char) : Option Instruction :=
  match text.splitOn ' ' with
  | [['n', 'o', 'p']] => some .nop
  | [['r', 't', 's']] => some .rts
  | [name, operands] => ofParts? (name.splitOn '.') (operands.splitOn ',')
  | _ => none

section Parts

variable {name suffix first second : List Char}

/-- A text with one operand falls into its parts. -/
theorem ofText?_of_operand (hname : ' ' ∉ name)
    (hfirst : ' ' ∉ first ∧ ',' ∉ first) :
    ofText? (name ++ ' ' :: first) = ofParts? (name.splitOn '.') [first] := by
  rw [ofText?, splitOn_append_cons hname hfirst.1]
  simp only
  rw [splitOn_of_not_mem hfirst.2]

theorem ofText?_of_operands (hname : ' ' ∉ name)
    (hfirst : ' ' ∉ first ∧ ',' ∉ first)
    (hsecond : ' ' ∉ second ∧ ',' ∉ second) :
    ofText? (name ++ ' ' :: (first ++ ',' :: second)) =
      ofParts? (name.splitOn '.') [first, second] := by
  have hoperands : ' ' ∉ first ++ ',' :: second := by
    simp [hfirst.1, hsecond.1]
  rw [ofText?, splitOn_append_cons hname hoperands]
  simp only
  rw [splitOn_append_cons hfirst.2 hsecond.2]

end Parts

/-- A name and its suffix fall apart at the dot, and neither holds a blank. -/
theorem splitOn_name {stem suffix : List Char} {width : Width}
    (hstem : ' ' ∉ stem ∧ '.' ∉ stem)
    (hsuffix : Width.ofSuffix? suffix = some width) :
    ' ' ∉ stem ++ '.' :: suffix ∧
      (stem ++ '.' :: suffix).splitOn '.' = [stem, suffix] := by
  have hmarks := Width.not_mem_of_ofSuffix? hsuffix
  exact ⟨by simp [hstem.1, hmarks.1], splitOn_append_cons hstem.2 hmarks.2⟩

theorem not_mem_operand (operand : Operand) :
    ' ' ∉ operand.text.toList ∧ ',' ∉ operand.text.toList :=
  ⟨separates_blank.not_mem_text operand, separates_comma.not_mem_text operand⟩

theorem not_mem_register (name : Register) :
    ' ' ∉ name.text.toList ∧ ',' ∉ name.text.toList :=
  ⟨separates_blank.not_mem_register name, separates_comma.not_mem_register name⟩

section Forms

variable (stem : List Char) {suffix : List Char} {width : Width}

theorem ofText?_unary {build : Operand → Width → Instruction}
    (hstem : ' ' ∉ stem ∧ '.' ∉ stem) (hbuild : unary? stem = some build)
    (hsuffix : Width.ofSuffix? suffix = some width) (target : Operand) :
    ofText? ((stem ++ '.' :: suffix) ++ ' ' :: target.text.toList) =
      some (build target width) := by
  obtain ⟨hname, hsplit⟩ := splitOn_name hstem hsuffix
  rw [ofText?_of_operand hname (not_mem_operand target), hsplit, ofParts?,
    hbuild, Operand.ofText?_text, hsuffix]
  rfl

/-- The status register is no operand of a move. -/
theorem text_ne_status (operand : Operand) :
    operand.text.toList ≠ ['s', 'r'] := by
  intro hstatus
  have htext := operand.ofText?_text
  rw [hstatus] at htext
  cases htext

theorem ofText?_binary {build : Operand → Operand → Width → Instruction}
    (hstem : ' ' ∉ stem ∧ '.' ∉ stem) (hbuild : binary? stem = some build)
    (source destination : Operand) (width : Width) :
    ofText? ((stem ++ '.' :: width.suffix.toList) ++
        ' ' :: (source.text.toList ++ ',' :: destination.text.toList)) =
      some (build source destination width) := by
  obtain ⟨hname, hsplit⟩ := splitOn_name hstem width.ofSuffix?_suffix
  rw [ofText?_of_operands hname (not_mem_operand source)
    (not_mem_operand destination), hsplit, ofParts?,
    if_neg fun hstatus => text_ne_status destination hstatus.1, hbuild,
    Operand.ofText?_text, Operand.ofText?_text, Width.ofSuffix?_suffix]
  rfl

theorem wordOfText?_hex (value : Word) :
    wordOfText? ('#' :: '$' :: digits 16 4 value.toNat) = some value := by
  have hread := Operand.ofText?_immediate 4
    (Nat.lt_trans value.isLt (by decide : 2 ^ 16 < 0x100000000))
  rw [wordOfText?, hread]
  simp

theorem not_mem_hex (n : Nat) :
    ' ' ∉ '#' :: '$' :: digits 16 4 n ∧ ',' ∉ '#' :: '$' :: digits 16 4 n := by
  have hblank : ' ' ∉ digits 16 4 n :=
    not_mem_digits (by decide) (by decide) (by decide)
  have hcomma : ',' ∉ digits 16 4 n :=
    not_mem_digits (by decide) (by decide) (by decide)
  simp [hblank, hcomma]

theorem ofText?_loop (condition : Condition) (counter : Register)
    (displacement : Word) :
    ofText? (('d' :: 'b' :: condition.mnemonic.toList) ++
        ' ' :: (counter.text.toList ++
          ',' :: (branchText displacement).toList)) =
      some (.dbcc condition counter displacement) := by
  have hmarks : ' ' ∉ 'd' :: 'b' :: condition.mnemonic.toList ∧
      '.' ∉ 'd' :: 'b' :: condition.mnemonic.toList := by
    cases condition <;> decide
  have hdistance := separates_blank.not_mem_branchText displacement
  have hdistance' := separates_comma.not_mem_branchText displacement
  rw [ofText?_of_operands hmarks.1 (not_mem_register counter)
    ⟨hdistance, hdistance'⟩, splitOn_of_not_mem hmarks.2, ofParts?,
    loopOfText?, Condition.ofMnemonic?_mnemonic, Register.ofText?_text,
    Operand.ofText?_branchText]
  rfl

theorem ofText?_lea (target : Operand) (destination : Register) :
    ofText? (['l', 'e', 'a'] ++
        ' ' :: (target.text.toList ++ ',' :: destination.text.toList)) =
      some (.lea target destination) := by
  rw [ofText?_of_operands (by decide) (not_mem_operand target)
    (not_mem_register destination), splitOn_of_not_mem (by decide), ofParts?,
    Operand.ofText?_text, Register.ofText?_text]
  rfl

end Forms

/-- Reading is a left inverse of writing. -/
theorem ofText?_text (instruction : Instruction) :
    ofText? instruction.text.toList = some instruction := by
  have hbranch : ∀ width, Width.ofSuffix? (branchSuffix width).toList =
      some width := by
    intro width
    cases width <;> rfl
  cases instruction with
  | nop | rts => rfl
  | moveToSr value =>
      have hname : ' ' ∉ "move.w".toList := by decide
      have hstatus : ' ' ∉ ['s', 'r'] ∧ ',' ∉ ['s', 'r'] := by decide
      have hread := ofText?_of_operands hname (not_mem_hex value.toNat) hstatus
      have hmove := hread.trans (congrArg (Option.map moveToSr)
        (wordOfText?_hex value))
      simpa [text, hex] using hmove
  | tst target width =>
      have hread := ofText?_unary ['t', 's', 't'] (by decide) rfl
        width.ofSuffix?_suffix target
      simpa [text] using hread
  | bne target width =>
      have hread := ofText?_unary ['b', 'n', 'e'] (by decide) rfl
        (hbranch width) target
      simpa [text] using hread
  | beq target width =>
      have hread := ofText?_unary ['b', 'e', 'q'] (by decide) rfl
        (hbranch width) target
      simpa [text] using hread
  | bsr target width =>
      have hread := ofText?_unary ['b', 's', 'r'] (by decide) rfl
        (hbranch width) target
      simpa [text] using hread
  | lea target destination =>
      have hread := ofText?_lea target destination
      simpa [text] using hread
  | move source destination width =>
      have hread := ofText?_binary ['m', 'o', 'v', 'e'] (by decide)
        rfl source destination width
      simpa [text] using hread
  | andi source destination width =>
      have hread := ofText?_binary ['a', 'n', 'd', 'i'] (by decide)
        rfl source destination width
      simpa [text] using hread
  | dbcc condition counter displacement =>
      have hread := ofText?_loop condition counter displacement
      simpa [text] using hread
  | subq data destination width =>
      have hread := ofText?_binary ['s', 'u', 'b', 'q'] (by decide)
        rfl data destination width
      simpa [text] using hread
  | stop value =>
      have hname : ' ' ∉ "stop".toList := by decide
      have hread := ofText?_of_operand hname (not_mem_hex value.toNat)
      have hstop := hread.trans (congrArg (Option.map stop)
        (wordOfText?_hex value))
      simpa [text, hex] using hstop

example : ofText? "move.w -2(pc),(a1)+".toList =
    some (.move (.pcDisplaced 0xFFFE) (.indirect 1 true) .word) := by
  decide

theorem text_injective : Function.Injective text := by
  intro left right htext
  have hleft := left.ofText?_text
  rw [htext, right.ofText?_text] at hleft
  exact (Option.some.inj hleft).symm

/-- Two instructions with the same text are the same instruction, and two
operands with the same text are the same operand. -/
theorem text_eq_text_iff :
    (∀ left right : Instruction, left.text = right.text ↔ left = right) ∧
    (∀ left right : Operand, left.text = right.text ↔ left = right) :=
  ⟨fun _ _ => text_injective.eq_iff,
    fun _ _ => Operand.text_injective.eq_iff⟩

end Instruction

end MegaDrive
