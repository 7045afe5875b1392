/-
Names compared without regard to letter case. Only the letters `A` to `Z` have two cases here;
every other character must be the same on both sides.
-/

namespace RetroListing.Text

/-- The characters of a name with `A` to `Z` in lower case. -/
def foldCase (name : String) : List Char := name.toList.map Char.toLower

/-- Two names that differ at most in the case of the letters `A` to `Z`. -/
def sameName (a b : String) : Bool := foldCase a == foldCase b

theorem sameName_iff {a b : String} : sameName a b = true ↔ foldCase a = foldCase b := by
  simp [sameName]

end RetroListing.Text
