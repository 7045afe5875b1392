/-
Settings as JSON. A document may leave out members, which then have their default, and may hold
members of other names, which are passed over; a known member must not be given twice. An array
gives the members in their order without their names.
-/
import RetroListing.Json.Parser
import RetroListing.Settings.Basic

namespace RetroListing

/-! ## Names -/

/-- The name of a platform in settings. -/
def Platform.tag : Platform → String
  | .generic => "Generic"
  | .c64 => "Commodore64"
  | .c64StereoSid => "Commodore64StereoSid"
  | .c128 => "Commodore128"
  | .vic20 => "CommodoreVIC20"
  | .plus4 => "CommodorePlus4"
  | .atari => "Atari8Bit"
  | .drive1541 => "Commodore1541"
  | .odyssey2 => "Odyssey2"

/-- The platform with a name in settings. -/
def Platform.ofTag? (tag : String) : Option Platform := Platform.all.find? (·.tag == tag)

/-- The name of a language in settings. -/
def Language.tag : Language → String
  | .english => "English"
  | .italian => "Italian"

/-- The language with a name in settings. -/
def Language.ofTag? (tag : String) : Option Language := Language.all.find? (·.tag == tag)

namespace Settings

/-! ## Writing -/

/-- The settings as a JSON value. -/
def toJson (s : Settings) : Json :=
  .ofMembers
    [("platform", .ofText s.platform.tag), ("language", .ofText s.language.tag),
      ("regions", .ofMembers (s.regions.entries.map fun (p, switches) =>
        (p.tag, .ofMembers (switches.entries.map fun (name, enabled) => (name, .bool enabled))))),
      ("user_comments", (s.userComments.map Json.ofText).getD .null)]

/-- The settings as a document. -/
def render (s : Settings) : String := s.toJson.render

/-! ## Reading -/

/-- The members of an object with their names as texts; `none` if it is no object or a name stands
for no text. -/
def members? : Json → Option (List (String × Json))
  | .object members => members.mapM fun (name, value) => (Json.unescape? name).map (·, value)
  | _ => none

/-- A choice by name: the name itself, or an object with the name as its one member, which is
null. -/
def choice? {α : Type} (ofTag? : String → Option α) : Json → Option α
  | .string written => (Json.unescape? written).bind ofTag?
  | .object [(name, .null)] => (Json.unescape? name).bind ofTag?
  | _ => none

/-- A switch. -/
def bool? : Json → Option Bool
  | .bool b => some b
  | _ => none

/-- The switches of one platform. -/
def switches? (j : Json) : Option (OrderedMap String Bool) := do
  let members ← members? j
  let switches ← members.mapM fun (name, value) => (bool? value).map (name, ·)
  return .ofList switches

/-- The switches of all platforms. -/
def regions? (j : Json) : Option (OrderedMap Platform (OrderedMap String Bool)) := do
  let members ← members? j
  let platforms ← members.mapM fun (tag, value) => do
    let p ← Platform.ofTag? tag
    let switches ← switches? value
    return (p, switches)
  return .ofList platforms

/-- The name of a comment file, or null for none. -/
def userComments? : Json → Option (Option String)
  | .null => some none
  | j => j.text?.map some

/-- The value of a member that may be missing. -/
def member? {α : Type} (read? : Json → Option α) (missing : α) : Option Json → Option α
  | none => some missing
  | some j => read? j

/-- The settings with given values for their members. -/
def ofParts? (platform language regions userComments : Option Json) : Option Settings := do
  let platform ← member? (choice? Platform.ofTag?) default.platform platform
  let language ← member? (choice? Language.ofTag?) default.language language
  let regions ← member? regions? default.regions regions
  let userComments ← member? userComments? default.userComments userComments
  return { platform, language, regions, userComments }

/-- The value of the only member of a name, if there is one; `none` if there are more. -/
def unique? (members : List (String × Json)) (name : String) : Option (Option Json) :=
  match members.filter (·.1 == name) with
  | [] => some none
  | [(_, value)] => some (some value)
  | _ => none

/-- The settings that a JSON value stands for. -/
def ofJson? : Json → Option Settings
  | .array items =>
    if items.length ≤ 4 then ofParts? items[0]? items[1]? items[2]? items[3]? else none
  | j => do
    let members ← members? j
    ofParts? (← unique? members "platform") (← unique? members "language")
      (← unique? members "regions") (← unique? members "user_comments")

/-- The settings in a document. -/
def parse? (document : String) : Option Settings := (Json.parse? document).bind ofJson?

end Settings

end RetroListing
