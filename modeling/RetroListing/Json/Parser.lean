/-
JSON documents read into values. A document is one value with nothing after it.
-/
import RetroListing.Json.Basic
import RetroListing.Json.Token

namespace RetroListing.Json

mutual

/-- The value that the tokens start with, and the tokens after it. Each nested value and each
further item or member costs one unit of `fuel`. -/
def value? : (fuel : Nat) → List Token → Option (Json × List Token)
  | 0, _ => none
  | _, .null :: rest => some (.null, rest)
  | _, .bool b :: rest => some (.bool b, rest)
  | _, .number written :: rest => some (.number written, rest)
  | _, .string written :: rest => some (.string written, rest)
  | _, .openBracket :: .closeBracket :: rest => some (.array [], rest)
  | fuel + 1, .openBracket :: rest =>
    (items? fuel rest).map fun (items, rest) => (.array items, rest)
  | _, .openBrace :: .closeBrace :: rest => some (.object [], rest)
  | fuel + 1, .openBrace :: rest =>
    (members? fuel rest).map fun (members, rest) => (.object members, rest)
  | _, _ => none

/-- The items of an array up to its end, at least one. -/
def items? : (fuel : Nat) → List Token → Option (List Json × List Token)
  | 0, _ => none
  | fuel + 1, tokens =>
    match value? fuel tokens with
    | some (item, .comma :: rest) =>
      (items? fuel rest).map fun (items, rest) => (item :: items, rest)
    | some (item, .closeBracket :: rest) => some ([item], rest)
    | _ => none

/-- The members of an object up to its end, at least one. -/
def members? : (fuel : Nat) → List Token → Option (List (String × Json) × List Token)
  | fuel + 1, .string name :: .colon :: tokens =>
    match value? fuel tokens with
    | some (value, .comma :: rest) =>
      (members? fuel rest).map fun (members, rest) => ((name, value) :: members, rest)
    | some (value, .closeBrace :: rest) => some ([(name, value)], rest)
    | _ => none
  | _, _ => none

end

/-- The value that a document holds. A token costs at most two units of fuel, so that the fuel never
runs out. -/
def parse? (document : String) : Option Json := do
  let tokens ← tokens? document.toList
  match value? (2 * tokens.length + 1) tokens with
  | some (value, []) => some value
  | _ => none

end RetroListing.Json
