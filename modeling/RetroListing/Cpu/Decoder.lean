/-
Instruction decoders. A decoder looks at a place in a run of bytes and says which instruction
starts there, if any; it holds no position of its own, so the caller alone moves on.
-/
import RetroListing.Cpu.Basic
import RetroListing.Cursor

namespace RetroListing

/-- A decoded instruction. -/
structure Instruction where
  mnemonic : String
  operand : Operand
  /-- The operand as a listing shows it. -/
  operandText : String
  /-- How many bytes the instruction takes. -/
  width : Nat
  deriving DecidableEq, Repr

/-- A decoder for one processor family. -/
structure Decoder where
  cpu : Cpu
  /-- The instruction at a place whose first byte has address `pc`; `none` if there is none. -/
  decode : (place : Cursor) → (pc : UInt16) → Option Instruction

end RetroListing
