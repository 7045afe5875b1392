/-
The lines of a listing and their text.
-/
import RetroListing.Text.Blank
import RetroListing.Text.Hex

namespace RetroListing

/-- A line of a listing. -/
inductive Line where
  | instruction (address : UInt16) (bytes : List UInt8) (mnemonic operand comment : String)
  /-- A byte that starts no instruction. -/
  | data (address : UInt16) (byte : UInt8)
  /-- A cell of a voice. -/
  | cell (address : UInt16) (bytes : List UInt8) (text : String)
  deriving DecidableEq, Repr

/-- What a line of a listing shows. -/
inductive LineKind where
  | instruction
  | data
  | cell
  deriving DecidableEq, Repr

namespace Line

/-! ## Parts -/

def kind : Line → LineKind
  | .instruction .. => .instruction
  | .data .. => .data
  | .cell .. => .cell

def address : Line → UInt16
  | .instruction address .. => address
  | .data address _ => address
  | .cell address .. => address

/-- The bytes that the line covers. -/
def bytes : Line → List UInt8
  | .instruction _ bytes .. => bytes
  | .data _ byte => [byte]
  | .cell _ bytes _ => bytes

def mnemonic : Line → String
  | .instruction _ _ mnemonic .. => mnemonic
  | .data .. => ".BYTE"
  | .cell .. => ""

def operand : Line → String
  | .instruction _ _ _ operand _ => operand
  | .data _ byte => "$" ++ Text.hex 2 byte.toNat
  | .cell .. => ""

def comment : Line → String
  | .instruction _ _ _ _ comment => comment
  | .data .. => ""
  | .cell _ _ text => text

/-! ## Text -/

/-- The gap before a comment. -/
def gap : String := "       "

/-- The bytes of a line as two-digit numerals. -/
def bytesText (l : Line) : String :=
  String.intercalate " " (l.bytes.map fun b => Text.hex 2 b.toNat)

/-- The line as it is printed. A line of code ends at its last character that is not blank; the text
of a cell is printed whole. -/
def text (l : Line) : String :=
  let start := Text.hex 4 l.address.toNat ++ "  "
  match l with
  | .cell .. => start ++ l.bytesText ++ gap ++ l.comment
  | _ =>
    String.ofList
      (Text.trimEnd (start ++ l.mnemonic ++ " " ++ l.operand ++ gap ++ l.comment).toList)

end Line

/-- A listing as it is printed, a line feed after each line. -/
def renderListing (lines : List Line) : String := String.join (lines.map fun l => l.text ++ "\n")

end RetroListing
