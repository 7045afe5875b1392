/-
What can go wrong with files, in the words of the system.
-/

namespace RetroListing

/-- Why a file cannot be read or written. -/
inductive FileFault where
  | notFound
  | alreadyExists
  | notDirectory
  | isDirectory
  | nameTooLong
  /-- The name holds a character that no file name can hold. -/
  | badName
  /-- The file is not text. -/
  | notText
  /-- Any other reason, in words. -/
  | other (reason : String)
  deriving DecidableEq, Repr

namespace FileFault

def message : FileFault → String
  | .notFound => "No such file or directory (os error 2)"
  | .alreadyExists => "File exists (os error 17)"
  | .notDirectory => "Not a directory (os error 20)"
  | .isDirectory => "Is a directory (os error 21)"
  | .nameTooLong => "File name too long (os error 36)"
  | .badName => "file name contained an unexpected NUL byte"
  | .notText => "stream did not contain valid UTF-8"
  | .other reason => reason

/-- Whether there is nothing at all under the name. -/
def isAbsence : FileFault → Bool
  | .notFound | .notDirectory | .nameTooLong | .badName => true
  | _ => false

end FileFault

/-- A way to read the files that the program is given, by name. -/
abbrev FileReader (m : Type → Type) : Type := String → m (Except FileFault ByteArray)

namespace FileReader

/-- The text of a file. -/
def text {m : Type → Type} [Monad m] (read : FileReader m) (path : String) :
    m (Except FileFault String) := do
  match ← read path with
  | .error fault => return .error fault
  | .ok bytes =>
    match String.fromUTF8? bytes with
    | none => return .error .notText
    | some text => return .ok text

end FileReader

end RetroListing
