/-
Files and directories held in memory, for runs of the program that touch no disk. A path is followed
part by part: each part, also a dot, starts from a directory that is there, so that a path through
a missing directory leads nowhere even where two dots would lead back out of it. Main statement: a
file that has been written is read back as it was written.
-/
import RetroListing.Files.Fault
import RetroListing.Files.Path

namespace RetroListing

/-- A place in the tree of directories: the names that lead to it from the root, the last first. -/
abbrev Place : Type := List String

/-- What stands at a place. -/
inductive FileNode where
  | file (content : ByteArray)
  | directory

/-- The files and directories by place, and the working directory. -/
structure Disk where
  nodes : List (Place × FileNode)
  here : Place

namespace Disk

/-- The disk with nothing but the working directory and the directories above it. -/
def empty (here : Place) : Disk := ⟨[], here⟩

/-- What stands at a place. The working directory and those above it are always there. -/
def node? (disk : Disk) (place : Place) : Option FileNode :=
  if place.isSuffixOf disk.here then some .directory else disk.nodes.lookup place

/-- The disk with a node put at a place. -/
def put (disk : Disk) (place : Place) (node : FileNode) : Disk :=
  { disk with nodes := (place, node) :: disk.nodes.filter (·.1 != place) }

/-! ## Following a path -/

/-- Refuses a place that is not a directory. -/
def checkDirectory (disk : Disk) (place : Place) : Except FileFault Unit :=
  match disk.node? place with
  | none => .error .notFound
  | some (.file _) => .error .notDirectory
  | some .directory => .ok ()

/-- The place that parts of a path lead to from a place. Nothing need stand there yet. -/
def follow (disk : Disk) (place : Place) : List String → Except FileFault Place
  | [] => .ok place
  | part :: rest => do
    disk.checkDirectory place
    if Path.isIdle part then disk.follow place rest
    else if part = ".." then disk.follow place.tail rest
    else if part.utf8ByteSize ≤ Path.maxPartSize then disk.follow (part :: place) rest
    else .error .nameTooLong

/-- The place that a path leads to. -/
def locate (disk : Disk) (path : String) : Except FileFault Place :=
  if path.toList.contains '\x00' then .error .badName
  else if path.isEmpty then .error .notFound
  else if Path.maxSize < path.utf8ByteSize then .error .nameTooLong
  else disk.follow (if Path.isAbsolute path then [] else disk.here) (Path.parts path)

/-! ## Reading and writing -/

/-- The content of the file with a path. -/
def read (disk : Disk) (path : String) : Except FileFault ByteArray := do
  let place ← disk.locate path
  match disk.node? place with
  | none => .error .notFound
  | some .directory => .error .isDirectory
  | some (.file content) => .ok content

/-- The disk with a file written, in a directory that is there. -/
def write (disk : Disk) (path : String) (content : ByteArray) : Except FileFault Disk := do
  let place ← disk.locate path
  match disk.node? place with
  | some .directory => .error .isDirectory
  | _ => .ok (disk.put place (.file content))

/-- The disk without the file with a path. -/
def remove (disk : Disk) (path : String) : Disk :=
  match disk.locate path with
  | .error _ => disk
  | .ok place =>
    match disk.node? place with
    | some (.file _) => { disk with nodes := disk.nodes.filter (·.1 != place) }
    | _ => disk

/-! ## Directories -/

/-- The disk with a directory, in one that is there. -/
def makeDirectory (disk : Disk) (path : String) : Except FileFault Disk := do
  let place ← disk.locate path
  match disk.node? place with
  | none => .ok (disk.put place .directory)
  | some (.file _) => .error .alreadyExists
  | some .directory => .ok disk

/-- The disk with the first of some directories, each in the next one: where that is missing, the
others are made before it. Directories that have been made stay when a later one cannot be. -/
def makeDirectories (disk : Disk) : List String → Disk × Except FileFault Unit
  | [] => (disk, .ok ())
  | path :: above =>
    match disk.makeDirectory path with
    | .ok made => (made, .ok ())
    | .error .notFound =>
      match disk.makeDirectories above with
      | (made, .error fault) => (made, .error fault)
      | (made, .ok ()) =>
        match made.makeDirectory path with
        | .ok full => (full, .ok ())
        | .error fault => (made, .error fault)
    | .error fault => (disk, .error fault)

/-- The disk with the directories that a file needs. -/
def makeParents (disk : Disk) (path : String) : Disk × Except FileFault Unit :=
  disk.makeDirectories (Path.above path)

/-! ## What is written is read back -/

theorem lookup_filter_ne {nodes : List (Place × FileNode)} {place other : Place}
    (h : other ≠ place) :
    (nodes.filter (·.1 != place)).lookup other = nodes.lookup other := by
  induction nodes with
  | nil => rfl
  | cons entry nodes ih =>
    obtain ⟨key, node⟩ := entry
    by_cases hk : key = place
    · subst hk
      have : (other == key) = false := by simpa using h
      simp [List.lookup_cons, ih, this]
    · simp [hk, List.lookup_cons, ih]

/-- Putting a node changes nothing at other places. -/
theorem node?_put_of_ne {disk : Disk} {place other : Place} {node : FileNode} (h : other ≠ place) :
    (disk.put place node).node? other = disk.node? other := by
  have : (other == place) = false := by simpa using h
  simp [node?, put, List.lookup_cons, this, lookup_filter_ne h]

/-- A path leads to the same place after a node is put where no directory stood. -/
theorem follow_put {disk : Disk} {place : Place} {node : FileNode}
    (h : disk.node? place ≠ some .directory) {parts : List String} {start stop : Place}
    (hf : disk.follow start parts = .ok stop) :
    (disk.put place node).follow start parts = .ok stop := by
  induction parts generalizing start with
  | nil => exact hf
  | cons part rest ih =>
    unfold follow at hf ⊢
    have hs : disk.node? start = some .directory := by
      unfold checkDirectory at hf
      split at hf <;> simp_all [bind, Except.bind]
    have hne : start ≠ place := fun e => h (e ▸ hs)
    simp only [checkDirectory, node?_put_of_ne hne, hs, bind, Except.bind] at hf ⊢
    grind

theorem locate_put {disk : Disk} {place stop : Place} {node : FileNode} {path : String}
    (h : disk.node? place ≠ some .directory) (hl : disk.locate path = .ok stop) :
    (disk.put place node).locate path = .ok stop := by
  unfold locate at hl ⊢
  have : (disk.put place node).here = disk.here := rfl
  grind [follow_put]

/-- A file that has been written is read back as it was written. -/
theorem read_write {disk written : Disk} {path : String} {content : ByteArray}
    (h : disk.write path content = .ok written) : written.read path = .ok content := by
  unfold write at h
  cases hl : disk.locate path with
  | error fault => simp [hl, bind, Except.bind] at h
  | ok place =>
    simp only [hl, bind, Except.bind] at h
    have hd : disk.node? place ≠ some .directory := by
      intro e
      simp [e] at h
    have hw : written = disk.put place (.file content) := by
      split at h <;> simp_all
    subst hw
    have hn : (disk.put place (.file content)).node? place = some (.file content) := by
      have hs : place.isSuffixOf disk.here = false := by
        cases hs : place.isSuffixOf disk.here with
        | false => rfl
        | true => exact absurd (if_pos hs) hd
      have hs' : place.isSuffixOf (disk.put place (.file content)).here = false := hs
      rw [node?, hs', if_neg Bool.false_ne_true]
      exact List.lookup_cons_self
    simp [read, locate_put hd hl, hn, bind, Except.bind]

end Disk

end RetroListing
