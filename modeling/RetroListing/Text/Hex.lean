/-
Hexadecimal numerals as listings and messages write them: addresses with four digits, bytes with
two, escapes with as many as needed.
-/

namespace RetroListing.Text

/-- The digit for `n` in upper case. -/
def upperDigit (n : Nat) : Char := if n < 10 then Char.ofNat (48 + n) else Char.ofNat (55 + n)

/-- The digit for `n` in lower case. -/
def lowerDigit (n : Nat) : Char := if n < 10 then Char.ofNat (48 + n) else Char.ofNat (87 + n)

/-- The `width` lowest hexadecimal digits of `n`, highest first. -/
def hexDigits (digit : Nat → Char) : (width n : Nat) → List Char
  | 0, _ => []
  | width + 1, n => hexDigits digit width (n / 16) ++ [digit (n % 16)]

/-- How many hexadecimal digits `n` needs. -/
def hexWidth (n : Nat) : Nat := Nat.log2 n / 4 + 1

/-- `n` in upper case, filled with zeros up to `width` digits. -/
def hex (width n : Nat) : String := String.ofList (hexDigits upperDigit (max width (hexWidth n)) n)

/-- `n` in lower case, as short as possible. -/
def lowerHex (n : Nat) : String := String.ofList (hexDigits lowerDigit (hexWidth n) n)

/-- An address: a dollar sign and four digits. -/
def dollarAddress (address : UInt16) : String := "$" ++ hex 4 address.toNat

end RetroListing.Text
