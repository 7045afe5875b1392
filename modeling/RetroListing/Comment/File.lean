/-
Comment files. A file has one comment to a line: an address or a range of addresses in hexadecimal,
a language code, and the text up to the end of the line. Blank lines and lines that start with a
semicolon are skipped. The first line that is neither decides the error.
-/
import RetroListing.Comment.Table
import RetroListing.Text.Blank
import RetroListing.Text.Numeral

namespace RetroListing.Comment

/-! ## Errors -/

/-- Why a line is no comment. -/
inductive LineFault where
  /-- The line has not the form of a comment. -/
  | shape
  /-- The range ends before it starts. -/
  | descending (low high : UInt16)
  /-- No language has the code. -/
  | unknownLanguage (code : String)
  deriving DecidableEq, Repr

def LineFault.message : LineFault → String
  | .shape => "expected 'ADDR[-ADDR] LANG TEXT'"
  | .descending low high =>
    "range end " ++ Text.dollarAddress high ++ " is below start " ++ Text.dollarAddress low
  | .unknownLanguage code => "unknown language '" ++ code ++ "'"

/-- The first line of a file that is at fault, counted from one. -/
structure FileError where
  line : Nat
  fault : LineFault
  deriving DecidableEq, Repr

def FileError.message (e : FileError) : String :=
  "line " ++ toString e.line ++ ": " ++ e.fault.message

/-! ## The parts of a line -/

/-- An address of one to four hexadecimal digits, and what follows it. -/
def address? (cs : List Char) : Option (UInt16 × List Char) :=
  let digits := cs.takeWhile Text.isHexDigit
  if 1 ≤ digits.length ∧ digits.length ≤ 4 then
    some (UInt16.ofNat (Text.hexValue digits), cs.dropWhile Text.isHexDigit)
  else none

/-- An address or two addresses joined by a hyphen, and what follows them. -/
def addresses? (cs : List Char) : Option ((UInt16 × UInt16) × List Char) :=
  match address? cs with
  | none => none
  | some (low, '-' :: rest) => (address? rest).map fun (high, rest) => ((low, high), rest)
  | some (low, rest) => some ((low, low), rest)

/-- What follows one or more blanks. -/
def afterBlanks? : List Char → Option (List Char)
  | [] => none
  | c :: cs => if Text.isBlank c then some (Text.trimStart cs) else none

/-- Two letters, and what follows them. -/
def code? : List Char → Option (String × List Char)
  | a :: b :: rest => if a.isAlpha && b.isAlpha then some (String.ofList [a, b], rest) else none
  | _ => none

/-- A line with the form of a comment. -/
structure Shape where
  low : UInt16
  high : UInt16
  code : String
  text : String
  deriving DecidableEq, Repr

/-- The form of a trimmed line, if it is that of a comment. -/
def shape? (line : List Char) : Option Shape := do
  let ((low, high), rest) ← addresses? line
  let rest ← afterBlanks? rest
  let (code, rest) ← code? rest
  let text ← afterBlanks? rest
  if text.isEmpty then none else some ⟨low, high, code, String.ofList text⟩

/-- The comment that a form stands for. -/
def Shape.entry (s : Shape) : Except LineFault Entry :=
  if s.high < s.low then .error (.descending s.low s.high)
  else
    match Language.ofCode? s.code with
    | none => .error (.unknownLanguage s.code)
    | some language => .ok ⟨s.low, s.high, language, s.text⟩

/-! ## Lines and files -/

/-- Whether a trimmed line holds no comment. -/
def isSkipped (line : List Char) : Bool := line.isEmpty || line.head? == some ';'

/-- The comment on a line; `none` for a line that is skipped. -/
def readLine (line : List Char) : Except LineFault (Option Entry) :=
  let line := Text.trim line
  if isSkipped line then .ok none
  else
    match shape? line with
    | none => .error .shape
    | some s => s.entry.map some

/-- The comments on lines of which the first has number `n`. -/
def readLines (n : Nat) : List (List Char) → Except FileError (List Entry)
  | [] => .ok []
  | line :: rest =>
    match readLine line with
    | .error fault => .error ⟨n, fault⟩
    | .ok none => readLines (n + 1) rest
    | .ok (some e) => (readLines (n + 1) rest).map (e :: ·)

/-- The comments of a file, in order. -/
def parseFile (content : String) : Except FileError (List Entry) :=
  readLines 1 (content.toList.splitOn '\n')

end RetroListing.Comment
