/-
Comments on addresses. A table holds comments on single addresses and on ranges: a comment on the
address itself comes before every range, and of the ranges the one entered first decides.
-/
import RetroListing.Language
import RetroListing.Notice
import RetroListing.OrderedMap
import RetroListing.Text.Hex

namespace RetroListing.Comment

/-! ## Ranges -/

/-- A comment on the addresses from `low` to `high`, both included. -/
structure Range where
  low : UInt16
  high : UInt16
  text : String
  deriving DecidableEq, Repr

namespace Range

/-- The range between two bounds given in either order. -/
def between (a b : UInt16) (text : String) : Range := ⟨min a b, max a b, text⟩

def contains (r : Range) (address : UInt16) : Bool := r.low ≤ address && address ≤ r.high

def overlaps (r s : Range) : Bool := r.low ≤ s.high && s.low ≤ r.high

/-- Ranges that share an address but not their text. -/
def conflicts (r s : Range) : Bool := r.overlaps s && r.text != s.text

/-- The bounds as messages show them. -/
def bounds (r : Range) : String := Text.dollarAddress r.low ++ "-" ++ Text.dollarAddress r.high

end Range

/-! ## Tables -/

/-- The comments of one profile in one language. -/
structure Table where
  /-- Comments on single addresses. -/
  exact : OrderedMap UInt16 String
  /-- Comments on ranges, in the order of entry. -/
  ranges : List Range
  deriving DecidableEq

namespace Table

/-- The table without comments. -/
def empty : Table := ⟨.empty, []⟩

instance : Inhabited Table := ⟨empty⟩

/-- Whether a comment between two bounds would be kept: of two comments on the same single address
the first stays. -/
def admits (t : Table) (a b : UInt16) : Bool := !(a == b && t.exact.contains a)

/-- The table with a comment between two bounds, given in either order. -/
def insert (t : Table) (a b : UInt16) (text : String) : Table :=
  if a = b then
    if t.exact.contains a then t else { t with exact := t.exact.insert a text }
  else { t with ranges := t.ranges ++ [.between a b text] }

/-- The comment on an address. -/
def get? (t : Table) (address : UInt16) : Option String :=
  match t.exact.get? address with
  | some text => some text
  | none => (t.ranges.find? (·.contains address)).map (·.text)

/-- How many comments the table holds. -/
def size (t : Table) : Nat := t.exact.size + t.ranges.length

def isEmpty (t : Table) : Bool := t.exact.isEmpty && t.ranges.isEmpty

/-- The pairs of ranges, each with a later one, that conflict. -/
def conflictsIn : List Range → List (Range × Range)
  | [] => []
  | r :: rest => (rest.filter r.conflicts).map (r, ·) ++ conflictsIn rest

/-- The pairs of ranges of the table that conflict, in the order of entry. -/
def conflicts (t : Table) : List (Range × Range) := conflictsIn t.ranges

end Table

/-! ## Warnings -/

/-- What is wrong with a comment that is entered. -/
inductive Warning where
  /-- The single address has another comment, which stays. -/
  | dropped (address : UInt16) (kept new : String)
  /-- The range shares an address with an earlier range of another text. -/
  | overlap (new earlier : Range)
  deriving DecidableEq, Repr

def Warning.notice : Warning → Notice
  | .dropped address kept new =>
    ⟨.warn, "Conflicting comments for " ++ Text.dollarAddress address ++ ": keeping '" ++ kept ++
      "', dropping '" ++ new ++ "'"⟩
  | .overlap new earlier =>
    ⟨.warn, "Comment range " ++ new.bounds ++ " overlaps " ++ earlier.bounds ++
      " with different text"⟩

/-- The warning that entering a comment gives. -/
def Table.insertWarning? (t : Table) (a b : UInt16) (text : String) : Option Warning :=
  if a = b then
    (t.exact.get? a).bind fun kept => if kept = text then none else some (.dropped a kept text)
  else
    let new := Range.between a b text
    (t.ranges.find? (·.conflicts new)).map (.overlap new)

/-! ## Tables by language -/

/-- A comment with its language. -/
structure Entry where
  low : UInt16
  high : UInt16
  language : Language
  text : String
  deriving DecidableEq, Repr

/-- The tables of a profile; a language without comments has none. -/
abbrev Tables := OrderedMap Language Table

namespace Tables

/-- The table of a language, without comments if there is none. -/
def table (ts : Tables) (language : Language) : Table := (ts.get? language).getD .empty

/-- The tables with one more comment. -/
def add (ts : Tables) (e : Entry) : Tables :=
  OrderedMap.insert ts e.language ((table ts e.language).insert e.low e.high e.text)

/-- The warning that one more comment gives. -/
def addWarning? (ts : Tables) (e : Entry) : Option Warning :=
  (table ts e.language).insertWarning? e.low e.high e.text

/-- The tables with more comments, entered in order. -/
def addAll (ts : Tables) : List Entry → Tables
  | [] => ts
  | e :: es => addAll (add ts e) es

/-- The warnings that entering comments in order gives. -/
def addAllWarnings (ts : Tables) : List Entry → List Warning
  | [] => []
  | e :: es => (addWarning? ts e).toList ++ addAllWarnings (add ts e) es

/-- The tables of a list of comments. -/
def ofEntries (es : List Entry) : Tables := addAll .empty es

/-- The notices that building the tables of a list of comments gives. -/
def ofEntriesLog (es : List Entry) : List Notice := (addAllWarnings .empty es).map Warning.notice

end Tables

end RetroListing.Comment
