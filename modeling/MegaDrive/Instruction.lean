/-
The instructions of the processor and their assembly text.
-/
import MegaDrive.Operand
import MegaDrive.Status

namespace MegaDrive

/-- A branch has width `byte` when its displacement stands in the opcode, and
`word` when a word of its own holds it. -/
inductive Instruction
  | nop
  | moveToSr (value : Word)
  | tst (target : Operand) (width : Width)
  | bne (target : Operand) (width : Width)
  | beq (target : Operand) (width : Width)
  | bsr (target : Operand) (width : Width)
  | lea (target : Operand) (destination : Register)
  | move (source destination : Operand) (width : Width)
  | andi (source destination : Operand) (width : Width)
  | dbcc (condition : Condition) (counter : Register) (displacement : Word)
  | rts
  | subq (data destination : Operand) (width : Width)
  | stop (value : Word)
deriving DecidableEq, Repr

namespace Instruction

/-- The short form of a branch has a letter of its own. -/
def branchSuffix : Width → String
  | .byte => "s"
  | width => width.suffix

def text : Instruction → String
  | .nop => "nop"
  | .moveToSr value => "move.w #$" ++ Numeral.hex 4 value.toNat ++ ",sr"
  | .tst target width => "tst." ++ width.suffix ++ " " ++ target.text
  | .bne target width => "bne." ++ branchSuffix width ++ " " ++ target.text
  | .beq target width => "beq." ++ branchSuffix width ++ " " ++ target.text
  | .bsr target width => "bsr." ++ branchSuffix width ++ " " ++ target.text
  | .lea target destination => "lea " ++ target.text ++ "," ++ destination.text
  | .move source destination width =>
      "move." ++ width.suffix ++ " " ++ source.text ++ "," ++ destination.text
  | .andi source destination width =>
      "andi." ++ width.suffix ++ " " ++ source.text ++ "," ++ destination.text
  | .dbcc condition counter displacement =>
      "db" ++ condition.mnemonic ++ " " ++ counter.text ++ "," ++
        Operand.branchText displacement
  | .rts => "rts"
  | .subq data destination width =>
      "subq." ++ width.suffix ++ " " ++ data.text ++ "," ++ destination.text
  | .stop value => "stop #$" ++ Numeral.hex 4 value.toNat

/-- The operands that have a place in the instruction's opcode or behind it, in
the order in which they are written. -/
def operands : Instruction → List Operand
  | .tst target _ | .bne target _ | .beq target _ | .bsr target _ => [target]
  | .lea target _ => [target]
  | .move source destination _ | .andi source destination _ =>
      [source, destination]
  | .subq data destination _ => [data, destination]
  | .nop | .moveToSr _ | .dbcc .. | .rts | .stop _ => []

end Instruction

namespace InstructionWitness

open Instruction

example : (move (.immediate 4) (.register (.data 0)) .long).text =
    "move.l #$4,d0" := by decide

example : (move (.indirect 7 true) (.displaced 9 0xFFFE) .word).text =
    "move.w (sp)+,-2(a9)" := by decide

example : (lea (.pcDisplaced 52) (.address 5)).text = "lea 52(pc),a5" := by
  decide

example : (bne (.branch 6) .byte).text = "bne.s *+8" := by decide

example : (dbcc .never (.data 0) 0xFFFC).text = "dbf d0,*-2" := by decide

example : (moveToSr 0x2700).text = "move.w #$2700,sr" := by decide

end InstructionWitness

end MegaDrive
