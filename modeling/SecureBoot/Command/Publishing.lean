import SecureBoot.Command.Action
import SecureBoot.Command.Report

/-!
# Publishing outputs

A command writes each `Output` under a temporary name beside its path.  Only when all outputs of
the command are written, `Action.publish` moves them into place, one after the other.  An output
that is not moved any more is removed.
-/

namespace SecureBoot

/-- What is to be written, and where. -/
structure Output where
  product : Product
  /-- The path as the command line gives it. -/
  path : String
  content : Bytes
  deriving DecidableEq, Repr

/-- An output that is written, but not in place. -/
structure StagedOutput where
  product : Product
  path : Path
  temporary : Temporary
  deriving DecidableEq, Repr

variable {m : Type → Type} [Monad m] [Host m]

/-- Write an output into a temporary file; the file is removed if that fails. -/
def Output.write (output : Output) (temporary : Temporary) : Action m Unit :=
  Action.orElseCleaning
    (Action.ask (Host.writeTemporary temporary output.content) (.writeOutput output.product))
    (Host.removeTemporary temporary : m Unit)

def Output.stage (output : Output) : Action m StagedOutput := do
  let path ← Action.locate output.path
  match path.parent? with
  | none => throw (.noParent path)
  | some directory =>
    let temporary ← Action.ask (Host.createTemporary directory) (.createOutput output.product path)
    output.write temporary
    return ⟨output.product, path, temporary⟩

namespace StagedOutput

def commit (output : StagedOutput) : Action m Unit := do
  Action.ask (Host.moveTemporary output.temporary output.path)
    (.saveOutput output.product output.path)
  Action.say [Report.saved output.product output.path]

def discard (output : StagedOutput) : Action m Unit :=
  (Host.removeTemporary output.temporary : m Unit)

end StagedOutput

namespace Action

/-- Write outputs under temporary names, all or none. -/
def stageAll : List Output → Action m (List StagedOutput)
  | [] => return []
  | output :: more => do
    let staged ← output.stage
    let rest ← orElseCleaning (stageAll more) staged.discard
    return staged :: rest

/-- Move outputs into place until one cannot be moved, and give up those after it. -/
def commitAll : List StagedOutput → Action m Unit
  | [] => return
  | staged :: rest => do
    -- The output that cannot be moved stays under its temporary name.
    orElseCleaning staged.commit (rest.forM StagedOutput.discard)
    commitAll rest

/-- Write outputs, say what there is to say, and then move the outputs into place. -/
def publish (outputs : List Output) (lines : List LogLine) : Action m Unit := do
  let staged ← stageAll outputs
  say lines
  commitAll staged

end Action

end SecureBoot
