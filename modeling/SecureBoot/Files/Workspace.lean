import SecureBoot.Files.FileTree

/-!
# Workspaces

A `Workspace` is a machine as far as commands see it: a file tree, the temporary files in it, the
current directory, the salts to come, the key that is generated and the log.  `Session` is the
monad of its changes, and a `Host`.

Temporary files are kept beside the tree.  Their names are of a kind of their own, so that no path
of a command meets one of them.

A machine may fail where the file tree gives no reason for it: a disk is full, or a directory must
not be changed.  Its `Faults` say where; a workspace without any is a machine that never does.
-/

namespace SecureBoot

/-! ## Faults -/

/-- A write that stops: the error, and the number of octets that are in the file by then. -/
structure WriteFault where
  error : OsError
  written : Nat
  deriving DecidableEq, Repr

/-- What fails on a machine though the file tree allows it.  Reading a file that is there is not
among it. -/
structure Faults where
  /-- Why no temporary file can be made, when so many have been made. -/
  creations : Nat → Option OsError
  /-- How writing a temporary file stops, when so many have been made. -/
  writes : Nat → Option WriteFault
  /-- Why no file can be moved to a location. -/
  moves : Location → Option OsError
  /-- Why no directory can be made under a path. -/
  directories : Path → Option OsError

namespace Faults

/-- A machine on which nothing fails. -/
def empty : Faults where
  creations := fun _ => none
  writes := fun _ => none
  moves := fun _ => none
  directories := fun _ => none

/-- A location, if a file can be moved to it. -/
def permit (faults : Faults) (location : Location) : Except OsError Location :=
  match faults.moves location with
  | none => .ok location
  | some error => .error error

end Faults

/-! ## Workspaces -/

structure TemporaryFile where
  location : Location
  name : String
  content : Bytes
  deriving DecidableEq, Repr

structure Workspace where
  tree : FileTree
  current : Location
  temporaries : List TemporaryFile
  made : Nat
  faults : Faults
  salts : Nat → Salt
  drawn : Nat
  /-- The key that is generated, or why there is none. -/
  generated : Except String Rsa.PrivateKey
  verbosity : Verbosity
  /-- The lines shown, the last one first. -/
  lines : List LogLine

abbrev Session := StateM Workspace

namespace Workspace

/-- A workspace before any command. -/
def start (tree : FileTree) (current : Location) (salts : Nat → Salt)
    (faults : Faults := .empty)
    (generated : Except String Rsa.PrivateKey := .error "no key generator") : Workspace where
  tree := tree
  current := current
  temporaries := []
  made := 0
  faults := faults
  salts := salts
  drawn := 0
  generated := generated
  verbosity := .regular
  lines := []

/-- The lines of the log that were shown, in order. -/
def log (w : Workspace) : List String :=
  w.lines.reverse.map LogLine.text

def currentPath (w : Workspace) : Path :=
  ⟨.root, w.current, false⟩

/-- The workspace after a line for the log. -/
def addLine (w : Workspace) (line : LogLine) : Workspace :=
  if w.verbosity.admits line.level then { w with lines := line :: w.lines } else w

def addTemporary (w : Workspace) (location : Location) (name : String) : Workspace :=
  { w with temporaries := ⟨location, name, []⟩ :: w.temporaries, made := w.made + 1 }

def nextName (w : Workspace) : String :=
  ".tmp" ++ toString w.made

/-- The workspace with the content of a temporary file written. -/
def writeTemporary (w : Workspace) (name : String) (content : Bytes) : Workspace :=
  { w with
    temporaries := w.temporaries.map fun t => if t.name = name then { t with content } else t }

/-- The location to which a file may be moved under a path. -/
def target (w : Workspace) (path : Path) : Except OsError Location := do
  w.faults.permit (← w.tree.canReplace w.current path)

/-- The workspace without a temporary file. -/
def removeTemporary (w : Workspace) (name : String) : Workspace :=
  { w with temporaries := w.temporaries.filter fun t => t.name ≠ name }

/-- The workspace with a temporary file moved to a location. -/
def moveTemporary (w : Workspace) (name : String) (location : Location) : Workspace :=
  match w.temporaries.find? fun t => t.name = name with
  | none => w
  | some t => { w.removeTemporary name with tree := w.tree.put location (.file t.content) }

end Workspace

instance : Host Session where
  setVerbosity verbosity := modify fun w => { w with verbosity }
  log line := modify (·.addLine line)
  currentDirectory := return (← get).currentPath
  readFile path := return (← get).tree.read (← get).current path
  createTemporary directory := do
    let w ← get
    match w.tree.resolveDirectory w.current directory, w.faults.creations w.made with
    | .error error, _ => return .error error
    | .ok _, some error => return .error error
    | .ok location, none =>
      set (w.addTemporary location w.nextName)
      return .ok ⟨directory, w.nextName⟩
  writeTemporary temporary content := do
    let w ← get
    match w.faults.writes w.made with
    | none =>
      set (w.writeTemporary temporary.name content)
      return .ok ()
    | some fault =>
      -- What was written until then stays in the file.
      set (w.writeTemporary temporary.name (content.take fault.written))
      return .error fault.error
  moveTemporary temporary path := do
    let w ← get
    match w.target path with
    | .error error => return .error error
    | .ok location =>
      set (w.moveTemporary temporary.name location)
      return .ok ()
  removeTemporary temporary := modify (·.removeTemporary temporary.name)
  makeDirectory path := do
    let w ← get
    match w.tree.makeDirectory w.current path, w.faults.directories path with
    | .error error, _ => return .error error
    | .ok _, some error => return .error error
    | .ok tree, none =>
      set { w with tree }
      return .ok ()
  isDirectory path := return (← get).tree.isDirectory (← get).current path
  drawSalt := do
    let w ← get
    set { w with drawn := w.drawn + 1 }
    return w.salts w.drawn
  generateKey := return (← get).generated

end SecureBoot
