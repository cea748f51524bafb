import SecureBoot.Files.Host

/-!
# File trees

A `FileTree` says which files and directories there are.  Paths are resolved in it name by name, the
way a system does it, and with the errors it gives.

* `FileTree.resolve` finds what a path names.
* `FileTree.read` reads a file.
* `FileTree.canReplace` says where a file may be moved to, and `FileTree.makeDirectory` makes a new
  directory.
-/

namespace SecureBoot

/-- The names from the root to a file or directory. -/
abbrev Location := List String

inductive Entry where
  | file (content : Bytes)
  | directory
  deriving DecidableEq, Repr

structure FileTree where
  entries : List (Location × Entry)
  deriving Repr

namespace FileTree

/-- What is at a location; at the root there is a directory. -/
def get? (tree : FileTree) (location : Location) : Option Entry :=
  if location = [] then some .directory
  else (tree.entries.find? fun (l, _) => l = location).map Prod.snd

/-- The tree with an entry at a location, in place of what was there. -/
def put (tree : FileTree) (location : Location) (entry : Entry) : FileTree :=
  ⟨(location, entry) :: tree.entries.filter fun (l, _) => l ≠ location⟩

/-- The longest name, in octets. -/
def maxNameLength : Nat := 255

def isTooLong (name : String) : Bool :=
  decide (maxNameLength < name.utf8ByteSize)

/-- The location that names lead to, from a location on. -/
def walk (tree : FileTree) (location : Location) : List String → Except OsError Location
  | [] => .ok location
  | name :: rest =>
    match tree.get? location with
    | none => .error .notFound
    | some (.file _) => .error .notDirectory
    | some .directory =>
      -- At the root, the name for the outer directory leads back to the root.
      if name = "." then tree.walk location rest
      else if name = ".." then tree.walk location.dropLast rest
      else if isTooLong name then .error .nameTooLong
      else
        match tree.get? (location ++ [name]) with
        | none => .error .notFound
        | some _ => tree.walk (location ++ [name]) rest

/-- Where a path starts, given the current directory. -/
def startOf (current : Location) (path : Path) : Location :=
  if path.start = .here then current else []

/-- What a path names, and where. -/
def resolve (tree : FileTree) (current : Location) (path : Path) :
    Except OsError (Location × Entry) := do
  let location ← tree.walk (startOf current path) path.names
  match tree.get? location with
  | none => .error .notFound
  | some .directory => .ok (location, .directory)
  | some (.file content) =>
    if path.trailing then .error .notDirectory else .ok (location, .file content)

/-- The location of the directory that a path names. -/
def resolveDirectory (tree : FileTree) (current : Location) (path : Path) :
    Except OsError Location := do
  match ← tree.resolve current path with
  | (location, .directory) => .ok location
  | (_, .file _) => .error .notDirectory

def read (tree : FileTree) (current : Location) (path : Path) : Except ReadFault Bytes :=
  match tree.resolve current path with
  | .error error => .error (.opening error)
  | .ok (_, .directory) => .error (.reading .isDirectory)
  | .ok (_, .file content) => .ok content

def isDirectory (tree : FileTree) (current : Location) (path : Path) : Bool :=
  (tree.resolveDirectory current path).isOk

/-- The location of the directory in which a path's last name is, and that name, if it is an
ordinary one. -/
def resolveLast (tree : FileTree) (current : Location) (path : Path) :
    Except OsError (Location × Option String) := do
  match path.names.getLast? with
  | none => .ok ([], none)
  | some name =>
    let location ← tree.resolveDirectory current { path with names := path.names.dropLast,
                                                             trailing := false }
    .ok (location, if name = "." ∨ name = ".." then none else some name)

/-- The location to which a file may be moved under a path. -/
def canReplace (tree : FileTree) (current : Location) (path : Path) : Except OsError Location := do
  match ← tree.resolveLast current path with
  | (_, none) => .error .busy
  | (location, some name) =>
    if isTooLong name then .error .nameTooLong
    -- A slash at the end asks for a directory, but what is moved is a file.
    else if path.trailing then .error .notDirectory
    else if tree.get? (location ++ [name]) = some .directory then .error .isDirectory
    else .ok (location ++ [name])

def makeDirectory (tree : FileTree) (current : Location) (path : Path) :
    Except OsError FileTree := do
  match ← tree.resolveLast current path with
  | (_, none) => .error .exists
  | (location, some name) =>
    if isTooLong name then .error .nameTooLong
    else if (tree.get? (location ++ [name])).isSome then .error .exists
    else .ok (tree.put (location ++ [name]) .directory)

end FileTree

end SecureBoot
