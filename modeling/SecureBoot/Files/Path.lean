/-!
# Paths

A `Path` is a sequence of names, from the root of all files or from the current directory.

* `Path.parse` reads a path and `Path.render` writes it.
* `Path.absolute` completes a path from the current directory, without looking at any file.
* `Path.parent?`, `Path.fileName?` and `Path.fileStem?` take a path apart.
-/

namespace SecureBoot

inductive Path.Start where
  | here
  | root
  /-- At the root, written with two slashes, which a system may read as something else. -/
  | doubleRoot
  deriving DecidableEq, Repr

structure Path where
  start : Path.Start
  /-- The names, outermost first; `.` and `..` are names. -/
  names : List String
  /-- Whether a slash follows the last name, which asks for a directory. -/
  trailing : Bool
  deriving DecidableEq, Repr

namespace Path

/-! ## Text -/

def splitSlashes : List Char → List (List Char)
  | [] => [[]]
  | '/' :: text => [] :: splitSlashes text
  | c :: text =>
    match splitSlashes text with
    | piece :: more => (c :: piece) :: more
    | [] => [[c]]

def parse (text : String) : Path where
  start :=
    match text.toList with
    -- Three slashes or more are read as one.
    | '/' :: '/' :: '/' :: _ => .root
    | '/' :: '/' :: _ => .doubleRoot
    | '/' :: _ => .root
    | _ => .here
  names := ((splitSlashes text.toList).filter (· ≠ [])).map String.ofList
  trailing := text.toList.getLast? == some '/'

def render (path : Path) : String :=
  let start :=
    match path.start with
    | .here => ""
    | .root => "/"
    | .doubleRoot => "//"
  start ++ String.intercalate "/" path.names ++
    (if path.trailing && !path.names.isEmpty then "/" else "")

/-! ## Parts -/

/-- A path from the root: one from the current directory is completed.  The name `.` is left out. -/
def absolute (current path : Path) : Path :=
  let names := path.names.filter (· ≠ ".")
  match path.start with
  | .here => { current with names := current.names ++ names, trailing := path.trailing }
  | _ => { path with names := names }

/-- The names that lead somewhere: the name `.` does not, but it may stand at the front. -/
def steps (path : Path) : List String :=
  match path.start, path.names with
  | .here, "." :: names => "." :: names.filter (· ≠ ".")
  | _, names => names.filter (· ≠ ".")

/-- The path without its last step. -/
def parent? (path : Path) : Option Path :=
  if path.steps.isEmpty then none
  else some { path with names := path.steps.dropLast, trailing := false }

/-- The last name, unless it does not name anything by itself. -/
def fileName? (path : Path) : Option String :=
  match path.steps.getLast? with
  | some name => if name = "." ∨ name = ".." then none else some name
  | none => none

/-- A name without what follows its last dot; a dot at its front does not count. -/
def stem (name : String) : String :=
  match name.toList.reverse.dropWhile (· ≠ '.') with
  | _ :: c :: before => String.ofList (c :: before).reverse
  | _ => name

/-- The last name without its extension. -/
def fileStem? (path : Path) : Option String :=
  path.fileName?.map stem

/-- The text for a name inside the directory that a text names. -/
def join (directory name : String) : String :=
  if directory.toList.getLast? = some '/' then directory ++ name else directory ++ "/" ++ name

end Path

end SecureBoot
