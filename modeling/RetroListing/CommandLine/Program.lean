/-
The program behind the command line: it loads the settings, reads the file it is given, and prints a
disassembly, a transcript or the list of profiles. Each command first settles what to list, in pure
functions, and then lists it; only reading files goes through the reader it is handed.
-/
import RetroListing.CommandLine.Invocation
import RetroListing.Comment.Store
import RetroListing.Cpu.Mos6502
import RetroListing.Listing.Disassembly
import RetroListing.Listing.Prg
import RetroListing.Listing.Transcript
import RetroListing.Profile.Bundled
import RetroListing.Settings.Store

namespace RetroListing.CommandLine

/-! ## Failures and reports -/

/-- Why a run gives no listing. -/
inductive Failure where
  | settings (error : Settings.LoadError)
  | unreadable (path : String) (fault : FileFault)
  | shortPrg (size : Nat)
  | bundle (error : Registry.BundleError)
  | comments (error : Comment.LoadError)
  | registry (error : Registry.Error)
  | noDecoder (p : Platform)
  | listing (error : Disassembly.Error)
  deriving DecidableEq, Repr

def Failure.complaint : Failure → Complaint
  | .settings error => error.complaint
  | .unreadable path fault => ⟨"Cannot read " ++ Text.quoted path, fault.message⟩
  | .shortPrg size => ⟨Prg.shortMessage size, none⟩
  | .bundle error => error.complaint
  | .comments error => error.complaint
  | .registry error => ⟨error.message, none⟩
  | .noDecoder p =>
    ⟨"No instruction decoder for the " ++ p.cpu.name ++ " (" ++ p.name ++ ")", none⟩
  | .listing error => ⟨error.message, none⟩

/-- A computation that may fail and that gives notices on the way, also when it fails. -/
abbrev Reporting (m : Type → Type) : Type → Type := ExceptT Failure (StateT (List Notice) m)

/-- What a run prints, or why it fails, and the notices it gives. -/
structure Report where
  outcome : Except Failure String
  log : List Notice

section

variable {m : Type → Type} [Monad m]

/-- Gives notices. -/
def tell (notices : List Notice) : Reporting m Unit := modify (· ++ notices)

/-- Goes on with a result, or fails with its error. -/
def orFail {ε α : Type} (failure : ε → Failure) : Except ε α → Reporting m α
  | .ok a => return a
  | .error e => throw (failure e)

/-- Runs a computation from the beginning. -/
def report (x : Reporting m String) : m Report := do
  let (outcome, log) ← x.run.run []
  return { outcome, log }

end

/-! ## What to list -/

namespace ScanRequest

/-- The bytes of a file and the address of the first, read from the file itself if it says so. -/
def image (q : ScanRequest) (data : List UInt8) : Except Failure Prg.Image :=
  if q.prg then
    match Prg.split? data with
    | none => .error (.shortPrg data.length)
    | some image => .ok image
  else .ok ⟨0, data⟩

/-- The part of an image to list. -/
def window (q : ScanRequest) (image : Prg.Image) : Window :=
  let start := q.start.getD 0
  { buffer := image.payload
    start
    stop := q.stop.getD image.payload.length
    pc := q.origin.getD image.origin + UInt16.ofNat start }

/-- The platform to list for. -/
def platformIn (q : ScanRequest) (s : Settings) : Platform := q.platform.getD s.platform

/-- The language to show comments in. -/
def languageIn (q : ScanRequest) (s : Settings) : Language := q.language.getD s.language

/-- The file with the user's comments. -/
def commentsIn (q : ScanRequest) (s : Settings) : Option String := q.comments.or s.userComments

end ScanRequest

/-! ## Whose comments to show -/

/-- The registry with regions switched in turn, each on the nearest profile from `p` on that has it;
names that none has are passed over. -/
def switchRegions (r : Registry) (p : Platform) : List (String × Bool) → Registry
  | [] => r
  | (name, enabled) :: rest =>
    switchRegions ((r.switchRegion? (.platform p) name enabled).getD r) p rest

/-- The notices that switching regions in turn gives. -/
def switchRegionsLog (r : Registry) (p : Platform) : List (String × Bool) → List Notice
  | [] => []
  | (name, enabled) :: rest =>
    r.switchRegionLog (.platform p) name enabled ++
      match r.switchRegion? (.platform p) name enabled with
      | none => Settings.noRegionNotice p name :: switchRegionsLog r p rest
      | some r => switchRegionsLog r p rest

/-- The registry of a run before the user's comments: the settings come first, then the request. -/
def preparedRegistry (s : Settings) (q : ScanRequest) (bundled : Registry) : Registry :=
  switchRegions (s.apply bundled) (q.platformIn s) q.regions

/-- The notices that preparing the registry gives. -/
def preparedRegistryLog (s : Settings) (q : ScanRequest) (bundled : Registry) : List Notice :=
  s.applyLog bundled ++ switchRegionsLog (s.apply bundled) (q.platformIn s) q.regions

/-- The name of the profile with the user's comments. -/
def overlayName : String := "user"

/-- The registry with the user's comments, if there are any, and the profile to start from. -/
def withUserComments (r : Registry) (p : Platform) :
    Option (List Comment.Entry) → Except Registry.Error (Registry × ProfileId)
  | none => .ok (r, .platform p)
  | some entries =>
    (r.addOverlay overlayName (.platform p) entries).map (·, .user overlayName)

/-- The notices that the user's comments give. -/
def withUserCommentsLog (r : Registry) (p : Platform) : Option (List Comment.Entry) → List Notice
  | none => []
  | some entries => r.addOverlayLog overlayName (.platform p) entries

/-- The decoder for a platform, if there is one. -/
def decoder? (p : Platform) : Option Decoder :=
  match p.cpu with
  | .mos6502 => some Mos6502.decoder
  | .intel8048 => none

/-! ## Profiles -/

/-- A region as the list of profiles shows it. -/
def regionText (r : Region) : String :=
  "  " ++ r.name ++ String.ofList (List.replicate (14 - r.name.length) ' ') ++ " $" ++
    Text.hex 4 r.start ++ "-$" ++ Text.hex 4 (r.stop - 1) ++ " " ++ onOff r.enabled ++ "\n"

/-- A platform as the list of profiles shows it. -/
def platformText (r : Registry) (p : Platform) (profile : Profile) : String :=
  p.name ++ " [" ++ p.slug ++ "] (" ++ profile.cpu.name ++ ")\n  chain: " ++
    String.intercalate " -> " ((r.chain (.platform p)).map (·.id.name)) ++ "\n" ++
    String.join (profile.regions.map regionText)

/-- The list of profiles. -/
def profilesText (r : Registry) (platforms : List Platform) : Except Registry.Error String :=
  String.join <$> platforms.mapM fun p =>
    match r.get? (.platform p) with
    | none => .error (.unknownProfile (.platform p))
    | some profile => .ok (platformText r p profile)

/-! ## Running -/

section

variable {m : Type → Type} [Monad m] (read : FileReader m)

/-- The settings of a run: those asked for, else the user's own. -/
def loadSettings (userPath config : Option String) : Reporting m Settings := do
  match config, userPath with
  | some path, _ => orFail .settings (← (Settings.loadFrom read path : m _))
  | none, some path =>
    let file ← (read.text path : m _)
    tell (Settings.ofUserFileLog path file)
    return Settings.ofUserFile path file
  | none, none => return .default

/-- The part of a file to list. -/
def loadWindow (q : ScanRequest) : Reporting m Window := do
  let data ← orFail (.unreadable q.file) (← (read q.file : m _))
  let image ← orFail id (q.image data.toList)
  return q.window image

/-- The bundled registry. -/
def loadBundled : Reporting m Registry := do
  tell Registry.bundledLog
  orFail .bundle Registry.bundled

/-- The user's comments, if there are any. -/
def loadUserComments (path : Option String) : Reporting m (Option (List Comment.Entry)) := do
  match path with
  | none => return none
  | some path =>
    let entries ← orFail .comments (← (Comment.loadFrom read path : m _))
    tell [⟨.info, "Loaded " ++ toString entries.length ++ " user comments from " ++
      Text.quoted path⟩]
    return some entries

/-- The registry of a run, and the profile to start from. -/
def loadRegistry (s : Settings) (q : ScanRequest) : Reporting m (Registry × ProfileId) := do
  let bundled ← loadBundled
  let platform := q.platformIn s
  tell (preparedRegistryLog s q bundled)
  let prepared := preparedRegistry s q bundled
  let entries ← loadUserComments read (q.commentsIn s)
  tell (withUserCommentsLog prepared platform entries)
  orFail .registry (withUserComments prepared platform entries)

/-- Prints a disassembly. -/
def disassemble (s : Settings) (q : ScanRequest) : Reporting m String := do
  let window ← loadWindow read q
  let (registry, profile) ← loadRegistry read s q
  match decoder? (q.platformIn s) with
  | none => throw (.noDecoder (q.platformIn s))
  | some decoder =>
    let view : Disassembly.View := { registry, profile, language := q.languageIn s }
    tell (view.listingLog decoder window)
    return renderListing (← orFail .listing (view.listing decoder window))

/-- Prints a transcript. -/
def transcribe (q : ScanRequest) : Reporting m String := do
  let window ← loadWindow read q
  tell window.log
  return renderListing (Transcript.lines window)

/-- Prints the list of profiles, of all platforms if none is asked for. -/
def listProfiles (s : Settings) (platform : Option Platform) : Reporting m String := do
  let bundled ← loadBundled
  tell (s.applyLog bundled)
  orFail .registry
    (profilesText (s.apply bundled) ((platform.map fun p => [p]).getD Platform.all))

/-- Does what a command line asks for; `userPath` names the user's own settings. -/
def run (userPath : Option String) (i : Invocation) : m Report :=
  report do
    let settings ← loadSettings read userPath i.config
    match i.command with
    | .disassemble request => disassemble read settings request
    | .transcribe request => transcribe read request
    | .profiles platform => listProfiles settings platform

end

end RetroListing.CommandLine
