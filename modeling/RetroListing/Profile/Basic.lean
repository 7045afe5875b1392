/-
Profiles: the regions and comments of one machine, or of a user's own comments stacked on a machine.
A profile knows its parent by name only; what the parent says is asked of the registry.
-/
import RetroListing.Comment.Table
import RetroListing.Platform.Region

namespace RetroListing

/-! ## Names -/

/-- The name of a profile. -/
inductive ProfileId where
  | platform (p : Platform)
  /-- Comments that a user supplies. -/
  | user (name : String)
  deriving DecidableEq, Repr

namespace ProfileId

/-- The name shown to a reader. -/
def name : ProfileId → String
  | .platform p => p.name
  | .user name => "user:" ++ name

/-- Platforms come first, in their order, then users by name. -/
instance : Ord ProfileId where
  compare
    | .platform p, .platform q => compare p q
    | .platform _, .user _ => .lt
    | .user _, .platform _ => .gt
    | .user m, .user n => compare m n

theorem compare_swap : ∀ a b : ProfileId, compare a b = (compare b a).swap
  | .platform p, .platform q => (Std.OrientedCmp.eq_swap : compare p q = (compare q p).swap)
  | .platform _, .user _ => rfl
  | .user _, .platform _ => rfl
  | .user m, .user n => (Std.OrientedCmp.eq_swap : compare m n = (compare n m).swap)

theorem compare_isLE_trans : ∀ {a b c : ProfileId},
    (compare a b).isLE → (compare b c).isLE → (compare a c).isLE
  | .platform p, .platform q, .platform r =>
    (Std.TransCmp.isLE_trans : (compare p q).isLE → (compare q r).isLE → (compare p r).isLE)
  | .user l, .user m, .user n =>
    (Std.TransCmp.isLE_trans : (compare l m).isLE → (compare m n).isLE → (compare l n).isLE)
  | .platform _, _, .user _ => fun _ _ => rfl
  | .user _, .platform _, _ => fun h _ => nomatch h
  | _, .user _, .platform _ => fun _ h => nomatch h

theorem eq_of_compare : ∀ {a b : ProfileId}, compare a b = .eq → a = b
  | .platform p, .platform q, h =>
    congrArg _ (Std.LawfulEqCmp.eq_of_compare (show compare p q = .eq from h))
  | .user m, .user n, h =>
    congrArg _ (Std.LawfulEqCmp.eq_of_compare (show compare m n = .eq from h))
  | .platform _, .user _, h => nomatch h
  | .user _, .platform _, h => nomatch h

instance : Std.TransOrd ProfileId where
  eq_swap := compare_swap _ _
  isLE_trans := compare_isLE_trans

instance : Std.LawfulEqOrd ProfileId where
  compare_self := Std.ReflCmp.compare_self
  eq_of_compare := eq_of_compare

end ProfileId

/-! ## Profiles -/

/-- The regions and comments under one name. -/
structure Profile where
  id : ProfileId
  cpu : Cpu
  parent : Option ProfileId
  /-- The regions, in the order in which they decide. -/
  regions : List Region := []
  tables : Comment.Tables := .empty
  deriving DecidableEq

/-- What a profile alone says of an operand. -/
inductive Lookup where
  /-- Such an operand never has a comment on this processor. -/
  | ineligible
  /-- A region that is switched off covers the address. -/
  | hidden
  | found (text : String)
  | miss
  deriving DecidableEq, Repr

namespace Profile

/-- The profile of a platform with its regions, without comments. -/
def ofPlatform (p : Platform) : Profile where
  id := .platform p
  cpu := p.cpu
  parent := p.parent?.map .platform
  regions := p.regions

/-- Whether the comments at an address are shown. -/
def visible (p : Profile) (address : UInt16) : Bool := Region.visible p.regions address

/-- The profile with the region called `name` switched; `none` if it has no such region. -/
def switchRegion? (p : Profile) (name : String) (enabled : Bool) : Option Profile :=
  (Region.switch? name enabled p.regions).map fun regions => { p with regions }

/-- The profile with one more comment. -/
def addComment (p : Profile) (e : Comment.Entry) : Profile :=
  { p with tables := Comment.Tables.add p.tables e }

/-- What the profile says of an operand, without asking its parent. -/
def lookup (p : Profile) (operand : Operand) (language : Language) : Lookup :=
  if !p.cpu.annotates operand.mode then .ineligible
  else if !p.visible operand.address then .hidden
  else
    match (p.tables.get? language).bind (·.get? operand.address) with
    | some text => .found text
    | none => .miss

end Profile

end RetroListing
