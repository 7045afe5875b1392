/-
Program files with a load address: the first two bytes say, low byte first, where the rest goes.
-/

namespace RetroListing.Prg

/-- A program and where it is loaded. -/
structure Image where
  origin : UInt16
  payload : List UInt8
  deriving DecidableEq, Repr

/-- What is said of a file of `size` bytes that is too short for a load address. -/
def shortMessage (size : Nat) : String := "PRG file too short: " ++ toString size ++ " bytes"

/-- The image in a file, if it has a load address. -/
def split? : List UInt8 → Option Image
  | low :: high :: payload => some ⟨high.toUInt16 <<< 8 ||| low.toUInt16, payload⟩
  | _ => none

end RetroListing.Prg
