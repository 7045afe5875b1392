/-
Comment files on disk.
-/
import RetroListing.Comment.File
import RetroListing.Complaint
import RetroListing.Files.Fault
import RetroListing.Text.Quoted

namespace RetroListing.Comment

/-- Why a comment file cannot be loaded. -/
inductive LoadError where
  | unreadable (path : String) (fault : FileFault)
  | malformed (path : String) (error : FileError)
  deriving DecidableEq, Repr

def LoadError.complaint : LoadError → Complaint
  | .unreadable path fault => ⟨"Cannot read comments file " ++ Text.quoted path, fault.message⟩
  | .malformed path error => ⟨"Malformed comments file " ++ Text.quoted path, error.message⟩

/-- The comments in a file that has been read, or not. -/
def ofFile (path : String) : Except FileFault String → Except LoadError (List Entry)
  | .error fault => .error (.unreadable path fault)
  | .ok content => (parseFile content).mapError (.malformed path)

/-- The comments in the file with a name. -/
def loadFrom {m : Type → Type} [Monad m] (read : FileReader m) (path : String) :
    m (Except LoadError (List Entry)) :=
  return ofFile path (← read.text path)

end RetroListing.Comment
