/-
Unsigned numerals in a radix below a limit. A numeral is one or more digits after an optional
plus sign; it is read from the left, and the first character that is no digit, or the first digit
that takes the value to the limit, decides the error.
-/

namespace RetroListing.Text

/-- Why a text is no numeral below the limit. -/
inductive NumeralError where
  | empty
  | invalidDigit
  | tooLarge
  deriving DecidableEq, Repr

def NumeralError.message : NumeralError → String
  | .empty => "cannot parse integer from empty string"
  | .invalidDigit => "invalid digit found in string"
  | .tooLarge => "number too large to fit in target type"

/-- The value of `c` as a digit in `radix`, which is at most sixteen. -/
def digit? (radix : Nat) (c : Char) : Option Nat :=
  let value? :=
    if '0' ≤ c ∧ c ≤ '9' then some (c.toNat - 48)
    else if 'a' ≤ c ∧ c ≤ 'f' then some (c.toNat - 87)
    else if 'A' ≤ c ∧ c ≤ 'F' then some (c.toNat - 55)
    else none
  value?.filter (· < radix)

/-- A hexadecimal digit in either case. -/
def isHexDigit (c : Char) : Bool := (digit? 16 c).isSome

/-- Reads digits after a part of the numeral whose value is `value`. -/
def readDigits (radix limit value : Nat) : List Char → Except NumeralError Nat
  | [] => .ok value
  | c :: cs =>
    match digit? radix c with
    | none => .error .invalidDigit
    | some d =>
      if value * radix + d < limit then readDigits radix limit (value * radix + d) cs
      else .error .tooLarge

/-- The value of a numeral in `radix`, if it is below `limit`. -/
def readNumeral (radix limit : Nat) : List Char → Except NumeralError Nat
  | [] => .error .empty
  | ['+'] => .error .invalidDigit
  | '+' :: digits => readDigits radix limit 0 digits
  | digits => readDigits radix limit 0 digits

/-- The value of hexadecimal digits; a character that is no digit counts as zero. -/
def hexValue (digits : List Char) : Nat :=
  digits.foldl (fun value c => value * 16 + (digit? 16 c).getD 0) 0

end RetroListing.Text
