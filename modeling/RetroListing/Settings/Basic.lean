/-
A user's settings: which platform and language to use when none is asked for, which regions to
switch on or off, and a file of comments of the user's own.
-/
import RetroListing.Profile.Registry
import RetroListing.Text.Quoted

namespace RetroListing

/-- The settings of a user. -/
structure Settings where
  platform : Platform := .c64
  language : Language := .english
  /-- The regions to switch, by platform and name. -/
  regions : OrderedMap Platform (OrderedMap String Bool) := .empty
  /-- A file of comments that goes on top of those of the platform. -/
  userComments : Option String := none
  deriving DecidableEq

namespace Settings

/-- The settings of a user who has set nothing. -/
def default : Settings := {}

instance : Inhabited Settings := ⟨default⟩

/-- The settings with a region of a platform to be switched. -/
def setRegion (s : Settings) (p : Platform) (name : String) (enabled : Bool) : Settings :=
  { s with regions := s.regions.insert p (((s.regions.get? p).getD .empty).insert name enabled) }

end Settings

/-! ## Switching the regions -/

namespace Profile

/-- Whether the profile has a region called `name`, in either letter case. -/
def hasRegion (p : Profile) (name : String) : Bool := p.regions.any (Text.sameName ·.name name)

/-- The profile with regions switched in turn; names that it does not have are passed over. -/
def switchRegions (p : Profile) (switches : List (String × Bool)) : Profile :=
  switches.foldl (fun p (name, enabled) => (p.switchRegion? name enabled).getD p) p

end Profile

/-- A switch in words. -/
def onOff (enabled : Bool) : String := if enabled then "on" else "off"

namespace Settings

/-- The registry with the regions of the settings switched, each on the profile of its platform. -/
def apply (s : Settings) (r : Registry) : Registry :=
  s.regions.entries.foldl
    (fun r (p, switches) => r.modify (.platform p) (·.switchRegions switches.entries)) r

/-- The switches for one platform that a registry takes. -/
def taken (r : Registry) (p : Platform) (switches : List (String × Bool)) : List (String × Bool) :=
  match r.get? (.platform p) with
  | none => []
  | some profile => switches.filter fun (name, _) => profile.hasRegion name

/-- How many switches of the settings a registry takes. -/
def appliedCount (s : Settings) (r : Registry) : Nat :=
  (s.regions.entries.flatMap fun (p, switches) => taken r p switches.entries).length

/-- What is said of a platform that has no region called `name`. -/
def noRegionNotice (p : Platform) (name : String) : Notice :=
  ⟨.warn, p.name ++ " has no region named " ++ Text.quoted name⟩

/-- The notices that the switches for one platform give. -/
def platformLog (r : Registry) (p : Platform) (switches : List (String × Bool)) : List Notice :=
  match r.get? (.platform p) with
  | none => [⟨.warn, "No profile for platform " ++ p.name ++ ", ignoring its regions"⟩]
  | some profile => switches.map fun (name, enabled) =>
    if profile.hasRegion name then
      ⟨.debug, p.name ++ ": region " ++ name ++ " " ++ onOff enabled⟩
    else noRegionNotice p name

/-- The notices that applying the settings gives. -/
def applyLog (s : Settings) (r : Registry) : List Notice :=
  s.regions.entries.flatMap fun (p, switches) => platformLog r p switches.entries

end Settings

end RetroListing
