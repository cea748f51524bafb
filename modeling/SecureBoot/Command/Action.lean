import SecureBoot.Command.Failure

/-!
# Actions of commands

An `Action` is a step of a command on a host: it may use the host, and it may give up with a
`Failure`.
-/

namespace SecureBoot

abbrev Action (m : Type → Type) := ExceptT Failure m

namespace Action

variable {m : Type → Type} [Monad m] [Host m] {α ε : Type}

def say (lines : List LogLine) : Action m Unit :=
  lines.forM fun line => (Host.log line : m Unit)

/-- The value of a result, or else the failure that its error is. -/
def ofResult (result : Except ε α) (failure : ε → Failure) : Action m α :=
  match result with
  | .ok value => pure value
  | .error error => throw (failure error)

def ofOption (value : Option α) (failure : Failure) : Action m α :=
  match value with
  | some value => pure value
  | none => throw failure

/-- Ask the host for something; an error is a failure. -/
def ask (request : m (Except ε α)) (failure : ε → Failure) : Action m α := do
  ofResult (← request) failure

def locate (text : String) : Action m Path := do
  let current ← (Host.currentDirectory : m Path)
  return Path.absolute current (Path.parse text)

/-- Do something, and if it fails, clean up before giving up. -/
def orElseCleaning (action : Action m α) (clean : Action m Unit) : Action m α :=
  tryCatch action fun failure => do
    clean
    throw failure

end Action

end SecureBoot
