/-
The registry of profiles. A look-up starts at a profile and goes on to its parent as long as nobody
answers; the walk is cut after a fixed number of profiles.
-/
import RetroListing.Profile.Basic

namespace RetroListing

/-- All profiles, under their names. -/
structure Registry where
  profiles : OrderedMap ProfileId Profile
  deriving DecidableEq

namespace Registry

/-- The registry without profiles. -/
def empty : Registry := ⟨.empty⟩

/-- The profile with a name. -/
def get? (r : Registry) (id : ProfileId) : Option Profile := r.profiles.get? id

/-- The registry with a profile under its name, whatever was there. -/
def put (r : Registry) (p : Profile) : Registry := ⟨r.profiles.insert p.id p⟩

/-- The registry with one profile changed. -/
def modify (r : Registry) (id : ProfileId) (f : Profile → Profile) : Registry :=
  ⟨r.profiles.modify id f⟩

/-! ## Chains -/

/-- How many profiles a chain has at most. -/
def maxDepth : Nat := 16

/-- The first `depth` profiles on the way from `next` through the parents. -/
def ancestry (r : Registry) : (depth : Nat) → (next : Option ProfileId) → List Profile
  | 0, _ => []
  | _, none => []
  | depth + 1, some id =>
    match r.get? id with
    | none => []
    | some p => p :: r.ancestry depth p.parent

/-- The profile called `id` and its ancestors, the nearest first. -/
def chain (r : Registry) (id : ProfileId) : List Profile := r.ancestry maxDepth (some id)

/-- Whether the chain from `id` is cut before its end. -/
def tooDeep (r : Registry) (id : ProfileId) : Bool :=
  maxDepth < (r.ancestry (maxDepth + 1) (some id)).length

/-! ## Notices -/

/-- What the registry remarks on. -/
inductive Event where
  | chainCut (id : ProfileId)
  | registered (id : ProfileId) (parent : Option ProfileId)
  | regionSwitched (id : ProfileId) (region : String) (enabled : Bool)
  | missed (id : ProfileId) (address : UInt16) (language : Language)
  deriving DecidableEq, Repr

def Event.notice : Event → Notice
  | .chainCut id =>
    ⟨.warn, "Profile chain from " ++ id.name ++ " is deeper than " ++ toString maxDepth⟩
  | .registered id parent =>
    ⟨.debug, "Registered profile " ++ id.name ++ " (parent: " ++
      (parent.map ProfileId.name).getD "none" ++ ")"⟩
  | .regionSwitched id region enabled =>
    ⟨.debug, id.name ++ ": region " ++ region ++ " set to " ++ toString enabled⟩
  | .missed id address language =>
    ⟨.trace, id.name ++ ": no comment for " ++ Text.dollarAddress address ++ " in " ++
      language.name⟩

/-- The notice that walking the chain from `id` gives. -/
def chainLog (r : Registry) (id : ProfileId) : List Notice :=
  if r.tooDeep id then [(Event.chainCut id).notice] else []

/-! ## Look-ups -/

/-- What the first profile that answers says of an operand. -/
def resolveIn (operand : Operand) (language : Language) : List Profile → Option String
  | [] => none
  | p :: rest =>
    match p.lookup operand language with
    | .found text => some text
    | .ineligible | .hidden => none
    | .miss => resolveIn operand language rest

/-- The profiles that have no comment, up to the first that answers. -/
def missesIn (operand : Operand) (language : Language) : List Profile → List Profile
  | [] => []
  | p :: rest =>
    match p.lookup operand language with
    | .miss => p :: missesIn operand language rest
    | _ => []

/-- The comment on an operand, seen from the profile called `id`. -/
def resolve (r : Registry) (id : ProfileId) (operand : Operand) (language : Language) :
    Option String :=
  resolveIn operand language (r.chain id)

/-- The notices that a look-up gives. -/
def resolveLog (r : Registry) (id : ProfileId) (operand : Operand) (language : Language) :
    List Notice :=
  r.chainLog id ++ (missesIn operand language (r.chain id)).map fun p =>
    (Event.missed p.id operand.address language).notice

/-- A bare address as an operand that the profile called `id` can comment on. -/
def addressOperand (r : Registry) (id : ProfileId) (address : UInt16) : Operand :=
  ⟨((r.get? id).map (·.cpu.addressMode)).getD .absolute, address, address⟩

/-- The comment on a bare address. -/
def resolveAddress (r : Registry) (id : ProfileId) (address : UInt16) (language : Language) :
    Option String :=
  r.resolve id (r.addressOperand id address) language

/-- The notices that a look-up of a bare address gives. -/
def resolveAddressLog (r : Registry) (id : ProfileId) (address : UInt16) (language : Language) :
    List Notice :=
  r.resolveLog id (r.addressOperand id address) language

/-! ## Registration -/

/-- Why a profile cannot be registered. -/
inductive Error where
  | unknownParent (id parent : ProfileId)
  | ownAncestor (id : ProfileId)
  | unknownProfile (id : ProfileId)
  deriving DecidableEq, Repr

def Error.message : Error → String
  | .unknownParent id parent =>
    "Profile " ++ id.name ++ " refers to unknown parent " ++ parent.name
  | .ownAncestor id => "Profile " ++ id.name ++ " would be its own ancestor"
  | .unknownProfile id => "Unknown profile " ++ id.name

/-- Why the registry does not take a profile: its parent must be there, and the parent's chain must
not hold a profile of the same name. -/
def insertError? (r : Registry) (p : Profile) : Option Error :=
  match p.parent with
  | none => none
  | some parent =>
    if !r.profiles.contains parent then some (.unknownParent p.id parent)
    else if (r.chain parent).any (·.id = p.id) then some (.ownAncestor p.id)
    else none

/-- The registry with a profile added, or put in place of the one of its name. -/
def insert (r : Registry) (p : Profile) : Except Error Registry :=
  match r.insertError? p with
  | some e => .error e
  | none => .ok (r.put p)

/-- The notices that adding a profile gives. -/
def insertLog (r : Registry) (p : Profile) : List Notice :=
  let walked :=
    match p.parent with
    | none => []
    | some parent => if r.profiles.contains parent then r.chainLog parent else []
  walked ++ if (r.insertError? p).isNone then [(Event.registered p.id p.parent).notice] else []

/-- The profile of a user's comments on top of a parent. -/
def overlayProfile (name : String) (parent : Profile) (parentId : ProfileId)
    (entries : List Comment.Entry) : Profile where
  id := .user name
  cpu := parent.cpu
  parent := some parentId
  tables := .ofEntries entries

/-- The registry with a user's comments stacked on the profile called `parent`. -/
def addOverlay (r : Registry) (name : String) (parent : ProfileId)
    (entries : List Comment.Entry) : Except Error Registry :=
  match r.get? parent with
  | none => .error (.unknownProfile parent)
  | some p => r.insert (overlayProfile name p parent entries)

/-- The notices that stacking comments gives. -/
def addOverlayLog (r : Registry) (name : String) (parent : ProfileId)
    (entries : List Comment.Entry) : List Notice :=
  match r.get? parent with
  | none => []
  | some p =>
    Comment.Tables.ofEntriesLog entries ++ r.insertLog (overlayProfile name p parent entries)

/-! ## Regions -/

/-- The nearest profile in the chain from `id` with a region called `name`, with that region
switched. -/
def switchedProfile? (r : Registry) (id : ProfileId) (name : String) (enabled : Bool) :
    Option Profile :=
  (r.chain id).findSome? (·.switchRegion? name enabled)

/-- The registry with a region switched on the nearest profile that has it; `none` if none has. -/
def switchRegion? (r : Registry) (id : ProfileId) (name : String) (enabled : Bool) :
    Option Registry :=
  (r.switchedProfile? id name enabled).map r.put

/-- The notices that switching a region gives. -/
def switchRegionLog (r : Registry) (id : ProfileId) (name : String) (enabled : Bool) :
    List Notice :=
  r.chainLog id ++ ((r.switchedProfile? id name enabled).map fun p =>
    (Event.regionSwitched p.id name enabled).notice).toList

end Registry

end RetroListing
