/-
The languages in which comments are written.
-/
import RetroListing.Text.Case

namespace RetroListing

/-- A language of comments. -/
inductive Language where
  | english
  | italian
  deriving DecidableEq, Repr

namespace Language

/-- Every language, in order. -/
def all : List Language := [.english, .italian]

/-- The two-letter code that marks a comment. -/
def code : Language → String
  | .english => "en"
  | .italian => "it"

/-- The name shown to a reader. -/
def name : Language → String
  | .english => "English"
  | .italian => "Italian"

/-- The language with a code, in either letter case. -/
def ofCode? (code : String) : Option Language := all.find? fun l => Text.sameName l.code code

/-- The language with a code or a name, in either letter case. -/
def ofText? (text : String) : Option Language :=
  (ofCode? text).or (all.find? fun l => Text.sameName l.name text)

/-- What is said of a text that names no language. -/
def unknownMessage (text : String) : String :=
  "Unknown language '" ++ text ++ "' (known: " ++ String.intercalate ", " (all.map code) ++ ")"

/-! ## Order -/

/-- The place in `all`. -/
def rank : Language → Nat
  | .english => 0
  | .italian => 1

instance : Ord Language := ⟨compareOn rank⟩

instance : Std.TransOrd Language := inferInstanceAs (Std.TransCmp (compareOn rank))

instance : Std.LawfulEqOrd Language where
  eq_of_compare {a b} := by cases a <;> cases b <;> decide

end Language

end RetroListing
