/-
A failure as it is reported: a headline and, where something below it failed, the cause.
-/

namespace RetroListing

/-- The wording of a failure. -/
structure Complaint where
  headline : String
  cause : Option String := none
  deriving DecidableEq, Repr

namespace Complaint

/-- Headline and cause on one line. -/
def oneLine (c : Complaint) : String :=
  match c.cause with
  | none => c.headline
  | some cause => c.headline ++ ": " ++ cause

/-- The headline, and the cause in a paragraph of its own. -/
def paragraphs (c : Complaint) : String :=
  match c.cause with
  | none => c.headline
  | some cause => c.headline ++ "\n\nCaused by:\n    " ++ cause

end Complaint

end RetroListing
