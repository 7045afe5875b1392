/-
The registry that the program starts from: every platform with its regions and its own comments.
-/
import RetroListing.Comment.File
import RetroListing.Complaint
import RetroListing.Platform.Bundled
import RetroListing.Profile.Registry

namespace RetroListing

namespace Platform

/-- The comments that come with a platform. -/
def bundledEntries (p : Platform) : Except Comment.FileError (List Comment.Entry) :=
  match p.bundledComments? with
  | none => .ok []
  | some content => Comment.parseFile content

/-- The notices that reading the comments of a platform gives. -/
def bundledEntriesLog (p : Platform) : List Notice :=
  match p.bundledComments?.map Comment.parseFile with
  | none => [⟨.debug, "No bundled comments for " ++ p.name⟩]
  | some (.error _) => []
  | some (.ok entries) =>
    [⟨.debug, "Loaded " ++ toString entries.length ++ " comments for " ++ p.name⟩]

/-- The profile of a platform with its own comments. -/
def bundledProfile (p : Platform) (entries : List Comment.Entry) : Profile :=
  { Profile.ofPlatform p with tables := .ofEntries entries }

end Platform

namespace Registry

/-- Why the bundled comments cannot be registered. -/
inductive BundleError where
  | malformed (p : Platform) (error : Comment.FileError)
  | rejected (error : Registry.Error)
  deriving DecidableEq, Repr

def BundleError.complaint : BundleError → Complaint
  | .malformed p error => ⟨"Bundled comments for " ++ p.name ++ " are malformed", error.message⟩
  | .rejected error => ⟨error.message, none⟩

/-- The registry with a platform and its comments added. -/
def addBundled (r : Registry) (p : Platform) : Except BundleError Registry :=
  match p.bundledEntries with
  | .error e => .error (.malformed p e)
  | .ok entries => (r.insert (p.bundledProfile entries)).mapError .rejected

/-- The notices that adding a platform gives. -/
def addBundledLog (r : Registry) (p : Platform) : List Notice :=
  match p.bundledEntries with
  | .error _ => []
  | .ok entries =>
    p.bundledEntriesLog ++ Comment.Tables.ofEntriesLog entries ++
      r.insertLog (p.bundledProfile entries)

/-- The registry with platforms added in turn. -/
def addAllBundled (r : Registry) : List Platform → Except BundleError Registry
  | [] => .ok r
  | p :: rest =>
    match r.addBundled p with
    | .error e => .error e
    | .ok r => r.addAllBundled rest

/-- The notices that adding platforms in turn gives. -/
def addAllBundledLog (r : Registry) : List Platform → List Notice
  | [] => []
  | p :: rest =>
    r.addBundledLog p ++
      match r.addBundled p with
      | .error _ => []
      | .ok r => r.addAllBundledLog rest

/-- Every platform with its regions and comments. -/
def bundled : Except BundleError Registry := empty.addAllBundled Platform.all

/-- The notices that building the bundled registry gives. -/
def bundledLog : List Notice := empty.addAllBundledLog Platform.all

end Registry

end RetroListing
