/-
The documented instruction set of the 6502 and its decoder. The set is a table of mnemonics with
their encodings; a byte that is no opcode of the table, or an instruction cut short by the end of
the bytes, is not decoded.
-/
import RetroListing.Cpu.Decoder
import RetroListing.Text.Hex

namespace RetroListing.Mos6502

/-! ## Instruction set -/

/-- What an opcode stands for. -/
structure Opcode where
  mnemonic : String
  mode : Mode
  deriving DecidableEq, Repr

/-- How many bytes an instruction takes with its operand. -/
def Opcode.size (op : Opcode) : Nat := 1 + op.mode.operandSize

/-- The encodings that the arithmetic and logic instructions share, from the first of their row. -/
def accumulatorForms (base : UInt8) : List (UInt8 × Mode) :=
  [(base ||| 0x09, .immediate), (base ||| 0x05, .zeroPage), (base ||| 0x15, .zeroPageX),
    (base ||| 0x0D, .absolute), (base ||| 0x1D, .absoluteX), (base ||| 0x19, .absoluteY),
    (base ||| 0x01, .indirectX), (base ||| 0x11, .indirectY)]

/-- The encodings in memory that shifts, increments and decrements share. -/
def memoryForms (base : UInt8) : List (UInt8 × Mode) :=
  [(base ||| 0x06, .zeroPage), (base ||| 0x16, .zeroPageX), (base ||| 0x0E, .absolute),
    (base ||| 0x1E, .absoluteX)]

/-- The encodings of a shift or rotation. -/
def shiftForms (base : UInt8) : List (UInt8 × Mode) :=
  (base ||| 0x0A, .accumulator) :: memoryForms base

/-- Every documented instruction with its encodings. -/
def instructions : List (String × List (UInt8 × Mode)) :=
  [("ORA", accumulatorForms 0x00), ("AND", accumulatorForms 0x20), ("EOR", accumulatorForms 0x40),
    ("ADC", accumulatorForms 0x60), ("LDA", accumulatorForms 0xA0), ("CMP", accumulatorForms 0xC0),
    ("SBC", accumulatorForms 0xE0),
    ("STA", [(0x85, .zeroPage), (0x95, .zeroPageX), (0x8D, .absolute), (0x9D, .absoluteX),
      (0x99, .absoluteY), (0x81, .indirectX), (0x91, .indirectY)]),
    ("ASL", shiftForms 0x00), ("ROL", shiftForms 0x20), ("LSR", shiftForms 0x40),
    ("ROR", shiftForms 0x60), ("DEC", memoryForms 0xC0), ("INC", memoryForms 0xE0),
    ("BPL", [(0x10, .relative)]), ("BMI", [(0x30, .relative)]), ("BVC", [(0x50, .relative)]),
    ("BVS", [(0x70, .relative)]), ("BCC", [(0x90, .relative)]), ("BCS", [(0xB0, .relative)]),
    ("BNE", [(0xD0, .relative)]), ("BEQ", [(0xF0, .relative)]),
    ("BRK", [(0x00, .implied)]), ("PHP", [(0x08, .implied)]), ("CLC", [(0x18, .implied)]),
    ("PLP", [(0x28, .implied)]), ("SEC", [(0x38, .implied)]), ("RTI", [(0x40, .implied)]),
    ("PHA", [(0x48, .implied)]), ("CLI", [(0x58, .implied)]), ("RTS", [(0x60, .implied)]),
    ("PLA", [(0x68, .implied)]), ("SEI", [(0x78, .implied)]), ("DEY", [(0x88, .implied)]),
    ("TXA", [(0x8A, .implied)]), ("TYA", [(0x98, .implied)]), ("TXS", [(0x9A, .implied)]),
    ("TAY", [(0xA8, .implied)]), ("TAX", [(0xAA, .implied)]), ("CLV", [(0xB8, .implied)]),
    ("TSX", [(0xBA, .implied)]), ("INY", [(0xC8, .implied)]), ("DEX", [(0xCA, .implied)]),
    ("CLD", [(0xD8, .implied)]), ("INX", [(0xE8, .implied)]), ("NOP", [(0xEA, .implied)]),
    ("SED", [(0xF8, .implied)]),
    ("BIT", [(0x24, .zeroPage), (0x2C, .absolute)]),
    ("JSR", [(0x20, .absolute)]), ("JMP", [(0x4C, .absolute), (0x6C, .indirect)]),
    ("CPX", [(0xE0, .immediate), (0xE4, .zeroPage), (0xEC, .absolute)]),
    ("CPY", [(0xC0, .immediate), (0xC4, .zeroPage), (0xCC, .absolute)]),
    ("LDX", [(0xA2, .immediate), (0xA6, .zeroPage), (0xB6, .zeroPageY), (0xAE, .absolute),
      (0xBE, .absoluteY)]),
    ("LDY", [(0xA0, .immediate), (0xA4, .zeroPage), (0xB4, .zeroPageX), (0xAC, .absolute),
      (0xBC, .absoluteX)]),
    ("STX", [(0x86, .zeroPage), (0x96, .zeroPageY), (0x8E, .absolute)]),
    ("STY", [(0x84, .zeroPage), (0x94, .zeroPageX), (0x8C, .absolute)])]

/-- The opcodes, one row for each encoding. -/
def opcodes : List (UInt8 × Opcode) :=
  instructions.flatMap fun (mnemonic, forms) =>
    forms.map fun (byte, mode) => (byte, ⟨mnemonic, mode⟩)

/-- The opcode that a byte stands for, if it is one. -/
def opcode? (byte : UInt8) : Option Opcode := opcodes.lookup byte

/-! ## Operands -/

/-- The little-endian value of the first `size` bytes, if there are so many. -/
def operandValue? : (size : Nat) → List UInt8 → Option UInt16
  | 0, _ => some 0
  | 1, low :: _ => some low.toUInt16
  | 2, low :: high :: _ => some (high.toUInt16 <<< 8 ||| low.toUInt16)
  | _, _ => none

/-- A byte as a signed distance. -/
def signExtend (byte : UInt8) : UInt16 :=
  if byte < 0x80 then byte.toUInt16 else byte.toUInt16 + 0xFF00

/-- The address that an operand refers to in an instruction at `pc`. -/
def effectiveAddress (mode : Mode) (value pc : UInt16) : UInt16 :=
  match mode with
  | .relative => pc + 2 + signExtend value.toUInt8
  | .implied | .accumulator => 0
  | _ => value

/-- The operand as a listing shows it. -/
def operandText (mode : Mode) (address value : UInt16) : String :=
  let byte := Text.hex 2 address.toNat
  let word := Text.hex 4 address.toNat
  match mode with
  | .implied | .registerA => ""
  | .accumulator => "A"
  | .immediate => "#$" ++ Text.hex 2 value.toNat
  | .zeroPage => "$" ++ byte
  | .zeroPageX => "$" ++ byte ++ ",X"
  | .zeroPageY => "$" ++ byte ++ ",Y"
  | .relative | .absolute => "$" ++ word
  | .absoluteX => "$" ++ word ++ ",X"
  | .absoluteY => "$" ++ word ++ ",Y"
  | .indirect => "($" ++ word ++ ")"
  | .indirectX => "($" ++ byte ++ ",X)"
  | .indirectY => "($" ++ byte ++ "),Y"
  | .callAddress => "$" ++ Text.hex 3 address.toNat
  | .unknown => "???"

/-! ## Decoding -/

/-- The instruction that the bytes start with, its first byte being at `pc`. -/
def decode? (pc : UInt16) : List UInt8 → Option Instruction
  | [] => none
  | byte :: rest => do
    let op ← opcode? byte
    let value ← operandValue? op.mode.operandSize rest
    let address := effectiveAddress op.mode value pc
    return {
      mnemonic := op.mnemonic
      operand := ⟨op.mode, address, value⟩
      operandText := operandText op.mode address value
      width := op.size }

/-- The decoder of the 6502. It looks ahead only. -/
def decoder : Decoder where
  cpu := .mos6502
  decode place pc := decode? pc place.ahead

end RetroListing.Mos6502
