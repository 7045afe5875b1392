/-
The text of JSON strings. A string is kept as it is written between its quotes; here is how a text
is written there, and which text a written string stands for. An escape may name half of a surrogate
pair, and a string with a half left over stands for no text.
-/
import RetroListing.Text.Hex
import RetroListing.Text.Numeral

namespace RetroListing.Json

/-! ## Writing -/

/-- One character as it is written between quotes. -/
def escapeChar (c : Char) : List Char :=
  if c = '"' then ['\\', '"']
  else if c = '\\' then ['\\', '\\']
  else if c = '\x08' then ['\\', 'b']
  else if c = '\t' then ['\\', 't']
  else if c = '\n' then ['\\', 'n']
  else if c = '\x0c' then ['\\', 'f']
  else if c = '\r' then ['\\', 'r']
  else if c.toNat < 0x20 then '\\' :: 'u' :: Text.hexDigits Text.lowerDigit 4 c.toNat
  else [c]

/-- A text as it is written between quotes. -/
def escape (text : String) : String := String.ofList (text.toList.flatMap escapeChar)

/-! ## Reading -/

/-- The code point that a one-letter escape stands for. -/
def escapeCode? : Char → Option Nat
  | '"' => some 0x22
  | '\\' => some 0x5C
  | '/' => some 0x2F
  | 'b' => some 0x08
  | 'f' => some 0x0C
  | 'n' => some 0x0A
  | 'r' => some 0x0D
  | 't' => some 0x09
  | _ => none

/-- The code that the digits of a `\u` escape stand for, if they are digits. -/
def unitCode? (digits : List Char) : Option Nat :=
  if digits.all Text.isHexDigit then some (Text.hexValue digits) else none

/-- The code points of a written string, halves of surrogate pairs among them; `none` if an escape
is malformed. -/
def codes? : List Char → Option (List Nat)
  | [] => some []
  | '\\' :: 'u' :: a :: b :: c :: d :: rest => do
    let code ← unitCode? [a, b, c, d]
    let codes ← codes? rest
    return code :: codes
  | '\\' :: e :: rest => do
    let code ← escapeCode? e
    let codes ← codes? rest
    return code :: codes
  | '\\' :: [] => none
  | c :: rest => (codes? rest).map (c.toNat :: ·)

def isHighSurrogate (code : Nat) : Bool := 0xD800 ≤ code && code < 0xDC00

def isLowSurrogate (code : Nat) : Bool := 0xDC00 ≤ code && code < 0xE000

/-- The characters with given codes, where two halves of a surrogate pair make one character. -/
def joinCodes? : List Nat → Option (List Char)
  | [] => some []
  | code :: rest =>
    if isHighSurrogate code then
      match rest with
      | [] => none
      | low :: rest =>
        if isLowSurrogate low then
          (joinCodes? rest).map
            (Char.ofNat (0x10000 + (code - 0xD800) * 0x400 + (low - 0xDC00)) :: ·)
        else none
    else if isLowSurrogate code then none
    else (joinCodes? rest).map (Char.ofNat code :: ·)

/-- The text that a written string stands for. -/
def unescape? (written : String) : Option String :=
  ((codes? written.toList).bind joinCodes?).map String.ofList

end RetroListing.Json
