/-
Processor families, addressing modes and operands. The family of a processor decides which operands
refer to memory that a comment can describe.
-/

namespace RetroListing

/-- How an instruction names its operand. -/
inductive Mode where
  | implied
  | accumulator
  | immediate
  | zeroPage
  | zeroPageX
  | zeroPageY
  | relative
  | absolute
  | absoluteX
  | absoluteY
  | indirect
  | indirectX
  | indirectY
  /-- The target of a jump or call on the 8048, relative to its page. -/
  | callAddress
  /-- The accumulator of the 8048 written as an operand. -/
  | registerA
  | unknown
  deriving DecidableEq, Repr

/-- How many bytes follow the opcode in the encoding of the 6502. -/
def Mode.operandSize : Mode → Nat
  | .implied | .accumulator | .registerA | .unknown => 0
  | .immediate | .zeroPage | .zeroPageX | .zeroPageY | .relative | .indirectX | .indirectY
  | .callAddress => 1
  | .absolute | .absoluteX | .absoluteY | .indirect => 2

/-- A processor family. -/
inductive Cpu where
  | mos6502
  | intel8048
  deriving DecidableEq, Repr

namespace Cpu

/-- The number by which the family is known. -/
def name : Cpu → String
  | .mos6502 => "6502"
  | .intel8048 => "8048"

/-- Whether an operand in `mode` refers to memory that a comment can describe. -/
def annotates : Cpu → Mode → Bool
  | .mos6502, .zeroPage | .mos6502, .zeroPageX | .mos6502, .zeroPageY
  | .mos6502, .absolute | .mos6502, .absoluteX | .mos6502, .absoluteY
  | .mos6502, .indirect | .mos6502, .indirectX | .mos6502, .indirectY => true
  | .intel8048, .callAddress => true
  | _, _ => false

/-- The mode in which a bare address is looked up. -/
def addressMode : Cpu → Mode
  | .mos6502 => .absolute
  | .intel8048 => .callAddress

end Cpu

/-- The operand of an instruction. -/
structure Operand where
  mode : Mode
  /-- The address referred to; for a branch its target. -/
  address : UInt16
  /-- The value as it is encoded. -/
  value : UInt16
  deriving DecidableEq, Repr

end RetroListing
