/-
Settings in files. The user's own file may be missing, and one that cannot be used is passed over
with a warning; a file that is asked for by name must be right.
-/
import RetroListing.Complaint
import RetroListing.Files.Disk
import RetroListing.Settings.Format

namespace RetroListing.Settings

/-! ## Loading -/

/-- Why settings cannot be loaded. -/
inductive LoadError where
  | unreadable (path : String) (fault : FileFault)
  | malformed (path : String)
  deriving DecidableEq, Repr

def LoadError.complaint : LoadError → Complaint
  | .unreadable path fault => ⟨"Cannot read configuration " ++ Text.quoted path, fault.message⟩
  | .malformed path => ⟨"Malformed configuration " ++ Text.quoted path, none⟩

/-- The settings in a file that has been read, or not. -/
def ofFile (path : String) : Except FileFault String → Except LoadError Settings
  | .error fault => .error (.unreadable path fault)
  | .ok document =>
    match parse? document with
    | none => .error (.malformed path)
    | some s => .ok s

/-- The settings in the file with a name. -/
def loadFrom {m : Type → Type} [Monad m] (read : FileReader m) (path : String) :
    m (Except LoadError Settings) :=
  return ofFile path (← read.text path)

/-- The user's settings, from a file that may be missing or wrong. -/
def ofUserFile (path : String) (file : Except FileFault String) : Settings :=
  (ofFile path file).toOption.getD default

/-- The notices that the user's file gives. -/
def ofUserFileLog (path : String) (file : Except FileFault String) : List Notice :=
  match ofFile path file with
  | .ok _ => []
  | .error e =>
    match e with
    | .unreadable _ fault => if fault.isAbsence then [] else [ignored e]
    | .malformed _ => [ignored e]
where
  ignored (e : LoadError) : Notice := ⟨.warn, "Ignoring configuration: " ++ e.complaint.oneLine⟩

/-! ## Saving -/

/-- Why settings cannot be saved. -/
inductive SaveError where
  /-- The directory of the file cannot be made. -/
  | noDirectory (fault : FileFault)
  | unwritable (path : String) (fault : FileFault)
  deriving DecidableEq, Repr

def SaveError.complaint : SaveError → Complaint
  | .noDirectory fault => ⟨fault.message, none⟩
  | .unwritable path fault => ⟨"Cannot write configuration " ++ Text.quoted path, fault.message⟩

/-- The disk after the settings are saved under a path, directories made where they are needed. A
save that fails may have made directories. -/
def saveTo (s : Settings) (disk : Disk) (path : String) : Disk × Except SaveError Unit :=
  match disk.makeParents path with
  | (made, .error fault) => (made, .error (.noDirectory fault))
  | (made, .ok ()) =>
    match made.write path s.render.toUTF8 with
    | .error fault => (made, .error (.unwritable path fault))
    | .ok written => (written, .ok ())

end RetroListing.Settings
