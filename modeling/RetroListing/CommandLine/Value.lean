/-
The values of command-line options: offsets, addresses and region switches.
-/
import RetroListing.Text.Blank
import RetroListing.Text.Case
import RetroListing.Text.Numeral

namespace RetroListing.CommandLine

/-! ## Numbers -/

/-- The digits after the mark of a hexadecimal numeral, a dollar sign or `0x`. -/
def afterHexMark? : List Char → Option (List Char)
  | '$' :: digits => some digits
  | '0' :: 'x' :: digits => some digits
  | _ => none

/-- The first offset that does not fit in 64 bits. -/
def offsetLimit : Nat := 0x10000000000000000

/-- The first number that does not fit in an address. -/
def addressLimit : Nat := 0x10000

/-- An offset: hexadecimal after a mark, else decimal, in 64 bits. -/
def readOffset (text : String) : Except Text.NumeralError Nat :=
  match afterHexMark? text.toList with
  | some digits => Text.readNumeral 16 offsetLimit digits
  | none => Text.readNumeral 10 offsetLimit text.toList

/-- What is said of a text that is no offset. -/
def offsetMessage (text : String) (e : Text.NumeralError) : String :=
  "invalid number '" ++ text ++ "': " ++ e.message

/-- An address: hexadecimal with or without a mark, in 16 bits. -/
def readAddress (text : String) : Except Text.NumeralError UInt16 :=
  let digits := (afterHexMark? text.toList).getD text.toList
  (Text.readNumeral 16 addressLimit digits).map UInt16.ofNat

/-- What is said of a text that is no address. -/
def addressMessage (text : String) (e : Text.NumeralError) : String :=
  "invalid address '" ++ text ++ "': " ++ e.message

/-! ## Region switches -/

/-- Why a text is no region switch. -/
inductive SwitchError where
  | noState (text : String)
  | badState (state : String)
  deriving DecidableEq, Repr

def SwitchError.message : SwitchError → String
  | .noState text => "expected NAME=on|off, got '" ++ text ++ "'"
  | .badState state => "region state must be on or off, got '" ++ state ++ "'"

/-- The parts before and after the last equals sign. -/
def splitLastEquals? (cs : List Char) : Option (List Char × List Char) :=
  match cs.reverse.dropWhile (· != '=') with
  | [] => none
  | _ :: name => some (name.reverse, (cs.reverse.takeWhile (· != '=')).reverse)

/-- The state that a word stands for, in either letter case. -/
def state? (word : String) : Option Bool :=
  if ["on", "true", "1"].any (Text.sameName · word) then some true
  else if ["off", "false", "0"].any (Text.sameName · word) then some false
  else none

/-- A region switch: a name, an equals sign and a state. -/
def readSwitch (text : String) : Except SwitchError (String × Bool) :=
  match splitLastEquals? text.toList with
  | none => .error (.noState text)
  | some (name, state) =>
    match state? (String.ofList state) with
    | none => .error (.badState (String.ofList state))
    | some enabled => .ok (String.ofList (Text.trim name), enabled)

end RetroListing.CommandLine
