/-
JSON values, with numbers and strings kept as they are written, and their indented form.
-/
import RetroListing.Json.Text

namespace RetroListing

/-- A JSON value. -/
inductive Json where
  | null
  | bool (b : Bool)
  /-- A number, as it is written. -/
  | number (written : String)
  /-- A string, as it is written between its quotes. -/
  | string (written : String)
  | array (items : List Json)
  /-- Members in order, each with its name as it is written between quotes. -/
  | object (members : List (String × Json))
  deriving Repr

namespace Json

/-- The string that stands for a text. -/
def ofText (text : String) : Json := .string (escape text)

/-- The object with members named by texts. -/
def ofMembers (members : List (String × Json)) : Json :=
  .object (members.map fun (name, value) => (escape name, value))

/-- The text that a string stands for; `none` for any other value. -/
def text? : Json → Option String
  | .string written => unescape? written
  | _ => none

/-! ## Indented form -/

/-- A line feed and the indentation of a depth, two spaces for each level. -/
def newline (depth : Nat) : String := "\n" ++ String.ofList (List.replicate (2 * depth) ' ')

mutual

/-- A value at a depth, each item and member on a line of its own. -/
def pretty (depth : Nat) : Json → String
  | .null => "null"
  | .bool b => if b then "true" else "false"
  | .number written => written
  | .string written => "\"" ++ written ++ "\""
  | .array [] => "[]"
  | .array (item :: items) =>
    "[" ++ newline (depth + 1) ++ pretty (depth + 1) item ++ prettyItems (depth + 1) items ++
      newline depth ++ "]"
  | .object [] => "\x7b\x7d"
  | .object ((name, value) :: members) =>
    "\x7b" ++ newline (depth + 1) ++ "\"" ++ name ++ "\": " ++ pretty (depth + 1) value ++
      prettyMembers (depth + 1) members ++ newline depth ++ "\x7d"

/-- The items of an array after the first. -/
def prettyItems (depth : Nat) : List Json → String
  | [] => ""
  | item :: items => "," ++ newline depth ++ pretty depth item ++ prettyItems depth items

/-- The members of an object after the first. -/
def prettyMembers (depth : Nat) : List (String × Json) → String
  | [] => ""
  | (name, value) :: members =>
    "," ++ newline depth ++ "\"" ++ name ++ "\": " ++ pretty depth value ++
      prettyMembers depth members

end

/-- The value as an indented document. -/
def render (j : Json) : String := pretty 0 j

end Json

end RetroListing
