/-
Paths: names of files and directories, with slashes between their parts. A path that starts with a
slash leads from the root, any other from the working directory. Empty parts and single dots after
the first part lead nowhere, and two dots lead to the directory above.
-/

namespace RetroListing.Path

/-- The parts of a path, between its slashes. -/
def parts (path : String) : List String := (path.toList.splitOn '/').map String.ofList

/-- Whether a path leads from the root. -/
def isAbsolute (path : String) : Bool := path.toList.head? = some '/'

/-- Whether a part leads nowhere. -/
def isIdle (part : String) : Bool := part = "" || part = "."

/-- The path with some parts, of which there is at least one. -/
def ofParts (first : String) (rest : List String) : String :=
  if first = "" ∧ rest = [] then "/" else "/".intercalate (first :: rest)

/-- The beginnings of a list of parts that end with a part that leads somewhere, and the empty one,
longest first; the list is given last part first, and so are they. -/
def beginnings : List String → List (List String)
  | [] => [[]]
  | part :: before =>
    if isIdle part then beginnings before else (part :: before) :: beginnings before

/-- The paths of the directories above what a path names, innermost first. The root is above all
that an absolute path names; of a relative path, the working directory is left out. -/
def above (path : String) : List String :=
  match parts path with
  | [] => []
  | first :: rest => (beginnings rest.reverse).tail.map fun back => ofParts first back.reverse

/-- The most bytes that a part may have. -/
def maxPartSize : Nat := 255

/-- The most bytes that a path may have. -/
def maxSize : Nat := 4095

end RetroListing.Path
