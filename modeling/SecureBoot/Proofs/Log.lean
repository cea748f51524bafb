import SecureBoot.Proofs.SigningCommands

/-!
# Log — actions that do nothing but add lines to the log

`Action.Tells` says all there is to say about an action that changes nothing but the log: its result
and the lines that it adds, which depend on the files alone.  There is a rule for each way to build
such an action.

`run_runProgram_of_tells` is what becomes of the log in a run of the program with such a command;
`Workspace.log_addLines` is what of it is shown.
-/

namespace SecureBoot

open SecureBoot.Action Workspace

/-! ## Lines of the log -/

namespace Workspace

/-- The workspace after several lines for the log. -/
def addLines (w : Workspace) (lines : List LogLine) : Workspace :=
  lines.foldl addLine w

theorem addLines_append (w : Workspace) (lines lines' : List LogLine) :
    w.addLines (lines ++ lines') = (w.addLines lines).addLines lines' :=
  List.foldl_append

theorem sameFiles_addLines (w : Workspace) (lines : List LogLine) :
    SameFiles w (w.addLines lines) := by
  induction lines generalizing w with
  | nil => exact .refl w
  | cons line lines ih => exact (sameFiles_addLine w line).trans (ih (w.addLine line))

/-- The lines that are shown are those that the verbosity admits. -/
theorem lines_addLines (w : Workspace) (lines : List LogLine) :
    (w.addLines lines).lines =
      (lines.filter fun line => w.verbosity.admits line.level).reverse ++ w.lines := by
  induction lines generalizing w with
  | nil => rfl
  | cons line lines ih =>
      have hverbosity : (w.addLine line).verbosity = w.verbosity := by
        unfold addLine
        split <;> rfl
      have hcons : w.addLines (line :: lines) = (w.addLine line).addLines lines := rfl
      rw [hcons, ih, hverbosity]
      by_cases hadmits : w.verbosity.admits line.level
      · simp [addLine, hadmits]
      · simp [addLine, hadmits]

theorem log_addLines {w : Workspace} (h : w.lines = []) (lines : List LogLine) :
    (w.addLines lines).log =
      (lines.filter fun line => w.verbosity.admits line.level).map LogLine.text := by
  rw [log, lines_addLines, h, List.append_nil, List.reverse_reverse]

end Workspace

/-! ## Actions that only write to the log -/

namespace Action

variable {α β ε : Type} {files : Files} {action : Action Session α}
  {next : α → Action Session β} {lines lines' : List LogLine}

/-- With these files an action has this result, and all that it does is add these lines to the
log. -/
def Tells (action : Action Session α) (files : Files) (result : Except Failure α)
    (lines : List LogLine) : Prop :=
  ∀ w, w.files = files → action.runIn w = (result, w.addLines lines)

namespace Tells

theorem pure (a : α) (files : Files) : (Pure.pure a : Action Session α).Tells files (.ok a) [] :=
  fun _ _ => rfl

theorem bind {a : α} {result : Except Failure β} (h : action.Tells files (.ok a) lines)
    (hnext : (next a).Tells files result lines') :
    (action >>= next).Tells files result (lines ++ lines') := by
  intro w hfiles
  rw [runIn_bind_of_ok (h w hfiles), addLines_append]
  exact hnext _ ((sameFiles_addLines w lines).files_eq.trans hfiles)

theorem bind_of_error {failure : Failure} (h : action.Tells files (.error failure) lines) :
    (action >>= next).Tells files (.error failure) lines := by
  intro w hfiles
  exact runIn_bind_of_error (h w hfiles)

end Tells

theorem tells_say (lines : List LogLine) (files : Files) :
    (say lines : Action Session Unit).Tells files (.ok ()) lines := by
  induction lines with
  | nil => exact fun _ _ => rfl
  | cons line lines ih =>
      intro w hfiles
      exact ih (w.addLine line) ((sameFiles_addLine w line).files_eq.trans hfiles)

theorem tells_ofResult_of_ok {result : Except ε α} {a : α} (h : result = .ok a)
    (failure : ε → Failure) (files : Files) :
    (ofResult result failure : Action Session α).Tells files (.ok a) [] := by
  rw [h]
  exact Tells.pure a files

theorem tells_ofResult_of_error {result : Except ε α} {error : ε} (h : result = .error error)
    (failure : ε → Failure) (files : Files) :
    (ofResult result failure : Action Session α).Tells files (.error (failure error)) [] := by
  rw [h]
  exact fun _ _ => rfl

theorem tells_locate (text : String) (files : Files) :
    (locate text : Action Session Path).Tells files (.ok (files.locate text)) [] := by
  rintro w rfl
  rfl

/-- Reading a file by the text that means it. -/
theorem tells_readFile (text : String) (failure : ReadFault → Failure) (files : Files) :
    (ask (Host.readFile (files.locate text)) failure : Action Session Bytes).Tells files
      ((files.contentOf text).mapError failure) [] := by
  rintro w rfl
  cases h : w.files.contentOf text with
  | ok data => exact runIn_ask_of_ok failure (congrArg (·, w) h)
  | error fault => exact runIn_ask_of_error failure (congrArg (·, w) h)

end Action

/-! ## Runs -/

/-- The line that the log has at the end of a run that fails. -/
def failureLines : Except Failure Unit → List LogLine
  | .ok () => []
  | .error failure => [⟨.error, failure.message⟩]

/-- A run of the program adds to the log what its command adds, and its failure. -/
theorem run_runProgram_of_tells {arguments : List String} {verbosity : Verbosity}
    {command : Command} {w : Workspace} {result : Except Failure Unit} {lines : List LogLine}
    (h : Invocation.parse arguments = .ok ⟨verbosity, some command⟩)
    (htells : (command.run : Action Session Unit).Tells w.files result lines) :
    (runProgram arguments : Session ExitCode).run w = (ExitCode.ofResult result,
      ({ w with verbosity } : Workspace).addLines (lines ++ failureLines result)) := by
  have hcommand := htells { w with verbosity } rfl
  have hrun : (runProgram arguments : Session ExitCode).run w =
      ((command.run : Action Session Unit).run >>= fun result =>
        match result with
        | .ok () => return .success
        | .error failure => do
          Host.log ⟨.error, failure.message⟩
          return .failure).run { w with verbosity } := by
    unfold runProgram
    rw [h]
    rfl
  unfold runIn at hcommand
  rw [hrun, StateT.run_bind, hcommand]
  cases result with
  | ok value => rw [failureLines, List.append_nil]; rfl
  | error failure => rw [addLines_append]; rfl

end SecureBoot
