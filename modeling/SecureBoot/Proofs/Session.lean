import SecureBoot.Command.Action
import SecureBoot.Files.Workspace

/-!
# Session — actions that only look at the files

Most actions of a command read files, sign or write to the log, and change no file.  What such an
action finds depends on the files alone: `Action.Finds` says that an action leaves the files as they
are and that what it returns, if it does not fail, stands in a relation to them.

`Action.Gives` says which value it returns, and that it does not fail.

There is a rule for each way to build an action.  `Action.Finds.cases` takes an action apart whose
first part is of this kind: either it has failed and nothing has happened, or the rest goes on with
the same files.  `Action.GoesOnAs` says the latter of an action with several such parts in front.
-/

namespace SecureBoot

/-! ## Files -/

/-- What there is on a machine when a command begins, and what fails on it. -/
structure Files where
  tree : FileTree
  current : Location
  faults : Faults

namespace Files

/-- The complete path that a text means. -/
def locate (files : Files) (text : String) : Path :=
  Path.absolute ⟨.root, files.current, false⟩ (Path.parse text)

/-- The content of the file that a text means. -/
def contentOf (files : Files) (text : String) : Except ReadFault Bytes :=
  files.tree.read files.current (files.locate text)

/-- The location to which a file may be moved under the path that a text means. -/
def targetOf (files : Files) (text : String) : Except OsError Location := do
  files.faults.permit (← files.tree.canReplace files.current (files.locate text))

theorem targetOf_eq_ok_iff {files : Files} {text : String} {location : Location} :
    files.targetOf text = .ok location ↔
      files.tree.canReplace files.current (files.locate text) = .ok location ∧
        files.faults.moves location = none := by
  unfold targetOf Faults.permit
  cases files.tree.canReplace files.current (files.locate text) with
  | error error =>
      refine ⟨nofun, ?_⟩
      rintro ⟨h, -⟩
      cases h
  | ok found =>
      simp only [bind, Except.bind]
      cases hfault : files.faults.moves found with
      | none =>
          refine ⟨?_, fun h => h.1⟩
          rintro ⟨⟩
          exact ⟨rfl, hfault⟩
      | some error =>
          refine ⟨nofun, ?_⟩
          rintro ⟨⟨⟩, hnone⟩
          cases hfault.symm.trans hnone

end Files

namespace Workspace

def files (w : Workspace) : Files :=
  ⟨w.tree, w.current, w.faults⟩

/-- The same files, temporary ones included. -/
structure SameFiles (w w' : Workspace) : Prop where
  files_eq : w'.files = w.files
  temporaries_eq : w'.temporaries = w.temporaries
  made_eq : w'.made = w.made

theorem SameFiles.refl (w : Workspace) : SameFiles w w :=
  ⟨rfl, rfl, rfl⟩

theorem SameFiles.trans {w w' w'' : Workspace} (h : SameFiles w w') (h' : SameFiles w' w'') :
    SameFiles w w'' :=
  ⟨h'.files_eq.trans h.files_eq, h'.temporaries_eq.trans h.temporaries_eq,
    h'.made_eq.trans h.made_eq⟩

/-- No temporary file has been made. -/
structure Fresh (w : Workspace) : Prop where
  temporaries_eq : w.temporaries = []
  made_eq : w.made = 0

theorem SameFiles.fresh {w w' : Workspace} (h : SameFiles w w') (hw : w.Fresh) : w'.Fresh :=
  ⟨h.temporaries_eq.trans hw.temporaries_eq, h.made_eq.trans hw.made_eq⟩

theorem sameFiles_addLine (w : Workspace) (line : LogLine) : SameFiles w (w.addLine line) := by
  unfold addLine
  split
  · exact ⟨rfl, rfl, rfl⟩
  · exact .refl w

end Workspace

open Workspace

variable {α β ε : Type}

/-! ## Requests -/

/-- A request to the host leaves the files as they are, and its answer stands in a relation to
them. -/
def Session.Finds (request : Session α) (Found : Files → α → Prop) : Prop :=
  ∀ w, SameFiles w (request.run w).2 ∧ Found w.files (request.run w).1

namespace Session.Finds

theorem pure (a : α) : Session.Finds (Pure.pure a) fun _ found => found = a :=
  fun w => ⟨.refl w, rfl⟩

theorem bind {request : Session α} {next : α → Session β} {Found : Files → α → Prop}
    {Then : α → Files → β → Prop} (h : Session.Finds request Found)
    (hnext : ∀ a, Session.Finds (next a) (Then a)) :
    Session.Finds (request >>= next) fun files b => ∃ a, Found files a ∧ Then a files b := by
  intro w
  rcases h w with ⟨hsame, hfound⟩
  rcases hnext (request.run w).1 (request.run w).2 with ⟨hsame', hthen⟩
  rw [hsame.files_eq] at hthen
  exact ⟨hsame.trans hsame', _, hfound, hthen⟩

theorem map {request : Session α} {Found : Files → α → Prop} (h : Session.Finds request Found)
    (f : α → β) :
    Session.Finds (f <$> request) fun files b => ∃ a, Found files a ∧ b = f a := by
  intro w
  rcases h w with ⟨hsame, hfound⟩
  exact ⟨hsame, _, hfound, rfl⟩

theorem of_map {request : Session α} {f : α → β} {Found : Files → β → Prop}
    (h : Session.Finds (f <$> request) Found) :
    Session.Finds request fun files a => Found files (f a) :=
  h

theorem mono {request : Session α} {Found Found' : Files → α → Prop}
    (h : Session.Finds request Found) (himp : ∀ files a, Found files a → Found' files a) :
    Session.Finds request Found' :=
  fun w => ⟨(h w).1, himp _ _ (h w).2⟩

end Session.Finds

/-- With these files a request has an answer, and it leaves the files as they are. -/
def Session.Gives (request : Session α) (files : Files) (a : α) : Prop :=
  ∀ w, w.files = files → ∃ w', request.run w = (a, w') ∧ SameFiles w w'

theorem Session.gives_readFile {files : Files} {text : String} {data : Bytes}
    (h : files.contentOf text = .ok data) :
    Session.Gives (Host.readFile (files.locate text) : Session (Except ReadFault Bytes)) files
      (.ok data) := by
  rintro w rfl
  exact ⟨w, congrArg (·, w) h, .refl w⟩

theorem Session.finds_log (line : LogLine) :
    Session.Finds (Host.log line : Session Unit) fun _ _ => True :=
  fun w => ⟨sameFiles_addLine w line, trivial⟩

theorem Session.finds_currentDirectory :
    Session.Finds (Host.currentDirectory : Session Path)
      fun files path => path = ⟨.root, files.current, false⟩ :=
  fun w => ⟨.refl w, rfl⟩

theorem Session.finds_readFile (path : Path) :
    Session.Finds (Host.readFile path : Session (Except ReadFault Bytes))
      fun files result => result = files.tree.read files.current path :=
  fun w => ⟨.refl w, rfl⟩

theorem Session.finds_drawSalt :
    Session.Finds (Host.drawSalt : Session Salt) fun _ _ => True :=
  fun _ => ⟨⟨rfl, rfl, rfl⟩, trivial⟩

/-! ## Actions -/

namespace Action

/-- The result of an action in a workspace, and the workspace after it. -/
def runIn (action : Action Session α) (w : Workspace) : Except Failure α × Workspace :=
  action.run.run w

variable {w w' : Workspace} {action : Action Session α} {next : α → Action Session β}

theorem runIn_lift (request : Session α) (w : Workspace) :
    (liftM request : Action Session α).runIn w = ((request.run w).map .ok id) := rfl

theorem runIn_bind (action : Action Session α) (next : α → Action Session β) (w : Workspace) :
    (action >>= next).runIn w =
      match action.runIn w with
      | (.ok a, w') => (next a).runIn w'
      | (.error failure, w') => (.error failure, w') := by
  have hbind : (action >>= next).runIn w =
      ((action.run >>= ExceptT.bindCont next).run w) := rfl
  rw [hbind, StateT.run_bind, runIn]
  rcases action.run.run w with ⟨result, w'⟩
  cases result with
  | ok a => rfl
  | error failure => rfl

theorem runIn_bind_of_ok {a : α} (h : action.runIn w = (.ok a, w')) :
    (action >>= next).runIn w = (next a).runIn w' := by
  rw [runIn_bind, h]

theorem runIn_bind_of_error {failure : Failure} (h : action.runIn w = (.error failure, w')) :
    (action >>= next).runIn w = (.error failure, w') := by
  rw [runIn_bind, h]

theorem runIn_locate (text : String) (w : Workspace) :
    (locate text : Action Session Path).runIn w = (.ok (w.files.locate text), w) := rfl

theorem runIn_ask_of_ok {request : Session (Except ε α)} {a : α} (failure : ε → Failure)
    (h : request.run w = (.ok a, w')) : (ask request failure).runIn w = (.ok a, w') := by
  have hrequest : (liftM request : Action Session (Except ε α)).runIn w = (.ok (.ok a), w') := by
    rw [runIn_lift, h]
    rfl
  exact runIn_bind_of_ok hrequest

theorem runIn_ask_of_error {request : Session (Except ε α)} {error : ε} (failure : ε → Failure)
    (h : request.run w = (.error error, w')) :
    (ask request failure).runIn w = (.error (failure error), w') := by
  have hrequest : (liftM request : Action Session (Except ε α)).runIn w =
      (.ok (.error error), w') := by
    rw [runIn_lift, h]
    rfl
  exact runIn_bind_of_ok hrequest

theorem runIn_orElseCleaning (action : Action Session α) (clean : Action Session Unit)
    (w : Workspace) :
    (orElseCleaning action clean).runIn w =
      match action.runIn w with
      | (.ok a, w') => (.ok a, w')
      | (.error failure, w') => (do clean; throw failure : Action Session α).runIn w' := by
  rw [orElseCleaning, runIn, ExceptT.run_tryCatch, StateT.run_bind, runIn]
  rcases action.run.run w with ⟨result, w'⟩
  cases result with
  | ok a => rfl
  | error failure => rfl

theorem runIn_orElseCleaning_of_ok {a : α} (clean : Action Session Unit)
    (h : action.runIn w = (.ok a, w')) : (orElseCleaning action clean).runIn w = (.ok a, w') := by
  rw [runIn_orElseCleaning, h]

theorem runIn_orElseCleaning_of_error {failure : Failure} {clean : Action Session Unit}
    {w'' : Workspace} (h : action.runIn w = (.error failure, w'))
    (hclean : clean.runIn w' = (.ok (), w'')) :
    (orElseCleaning action clean).runIn w = (.error failure, w'') := by
  rw [runIn_orElseCleaning, h]
  exact runIn_bind_of_ok hclean

/-- An action leaves the files as they are, and what it returns stands in a relation to them. -/
def Finds (action : Action Session α) (Found : Files → α → Prop) : Prop :=
  ∀ w, SameFiles w (action.runIn w).2 ∧ ∀ a, (action.runIn w).1 = .ok a → Found w.files a

namespace Finds

variable {Found Found' : Files → α → Prop} {Then : α → Files → β → Prop}

theorem pure (a : α) : (Pure.pure a : Action Session α).Finds fun _ found => found = a := by
  intro w
  refine ⟨.refl w, ?_⟩
  intro found hfound
  exact (Except.ok.inj hfound).symm

theorem throw (failure : Failure) :
    (throwThe Failure failure : Action Session α).Finds fun _ _ => False := by
  intro w
  refine ⟨.refl w, ?_⟩
  intro found hfound
  cases hfound

theorem lift {request : Session α} (h : Session.Finds request Found) :
    (liftM request : Action Session α).Finds Found := by
  intro w
  rcases h w with ⟨hsame, hfound⟩
  refine ⟨hsame, ?_⟩
  intro found hok
  cases hok
  exact hfound

theorem bind (h : action.Finds Found) (hnext : ∀ a, (next a).Finds (Then a)) :
    (action >>= next).Finds fun files b => ∃ a, Found files a ∧ Then a files b := by
  intro w
  rcases hrun : action.runIn w with ⟨result, w'⟩
  rcases h w with ⟨hsame, hfound⟩
  rw [hrun] at hsame hfound
  cases result with
  | error failure =>
      rw [runIn_bind_of_error hrun]
      exact ⟨hsame, nofun⟩
  | ok a =>
      rw [runIn_bind_of_ok hrun]
      rcases hnext a w' with ⟨hsame', hthen⟩
      refine ⟨hsame.trans hsame', ?_⟩
      intro b hb
      rw [hsame.files_eq] at hthen
      exact ⟨a, hfound a rfl, hthen b hb⟩

theorem mono (h : action.Finds Found) (himp : ∀ files a, Found files a → Found' files a) :
    action.Finds Found' := by
  intro w
  refine ⟨(h w).1, ?_⟩
  intro a ha
  exact himp _ _ ((h w).2 a ha)

/-- An action with such a first part has failed there, or goes on with the same files. -/
theorem cases (h : action.Finds Found) (next : α → Action Session β) (w : Workspace) :
    (∃ failure w', (action >>= next).runIn w = (.error failure, w') ∧ SameFiles w w') ∨
      ∃ a w', Found w.files a ∧ SameFiles w w' ∧
        (action >>= next).runIn w = (next a).runIn w' := by
  rcases hrun : action.runIn w with ⟨result, w'⟩
  rcases h w with ⟨hsame, hfound⟩
  rw [hrun] at hsame hfound
  cases result with
  | error failure => exact .inl ⟨failure, w', runIn_bind_of_error hrun, hsame⟩
  | ok a => exact .inr ⟨a, w', hfound a rfl, hsame, runIn_bind_of_ok hrun⟩

end Finds

theorem finds_ofResult (result : Except ε α) (failure : ε → Failure) :
    (ofResult result failure : Action Session α).Finds fun _ a => result = .ok a := by
  cases result with
  | ok a => exact (Finds.pure a).mono fun _ found hfound => hfound ▸ rfl
  | error error => exact (Finds.throw (failure error)).mono fun _ _ => False.elim

theorem finds_ask {request : Session (Except ε α)} {Found : Files → Except ε α → Prop}
    (h : Session.Finds request Found) (failure : ε → Failure) :
    (ask request failure).Finds fun files a => Found files (.ok a) := by
  refine ((Finds.lift h).bind fun result => finds_ofResult result failure).mono ?_
  rintro files a ⟨result, hfound, rfl⟩
  exact hfound

theorem finds_say (lines : List LogLine) :
    (say lines : Action Session Unit).Finds fun _ _ => True := by
  induction lines with
  | nil => exact (Finds.pure ()).mono fun _ _ _ => trivial
  | cons line lines ih =>
      exact ((Finds.lift (Session.finds_log line)).bind fun _ => ih).mono fun _ _ _ => trivial

theorem finds_locate (text : String) :
    (locate text : Action Session Path).Finds fun files path => path = files.locate text := by
  refine ((Finds.lift Session.finds_currentDirectory).bind fun current =>
    Finds.pure (Path.absolute current (Path.parse text))).mono ?_
  rintro files path ⟨current, rfl, rfl⟩
  rfl

/-- A loop leaves the files as they are if its body does. -/
theorem finds_forM {body : α → Action Session Unit} (h : ∀ a, (body a).Finds fun _ _ => True)
    (items : List α) : (items.forM body : Action Session Unit).Finds fun _ _ => True := by
  induction items with
  | nil => exact (Finds.pure ()).mono fun _ _ _ => trivial
  | cons item items ih => exact ((h item).bind fun _ => ih).mono fun _ _ _ => trivial

/-! ### Actions that go on -/

/-- An action fails and changes nothing, or goes on as one of these actions with the same files. -/
def GoesOnAs (action : Action Session α) (Rest : Files → Action Session α → Prop) : Prop :=
  ∀ w, (∃ failure w', action.runIn w = (.error failure, w') ∧ SameFiles w w') ∨
    ∃ rest w', Rest w.files rest ∧ SameFiles w w' ∧ action.runIn w = rest.runIn w'

theorem goesOnAs_self (action : Action Session α) :
    action.GoesOnAs fun _ rest => rest = action :=
  fun w => .inr ⟨action, w, rfl, .refl w, rfl⟩

namespace GoesOnAs

variable {Rest Rest' : Files → Action Session α → Prop}

theorem mono (h : action.GoesOnAs Rest) (himp : ∀ files rest, Rest files rest → Rest' files rest) :
    action.GoesOnAs Rest' := by
  intro w
  rcases h w with hfailed | ⟨rest, w', hrest, hsame, hrun⟩
  · exact .inl hfailed
  · exact .inr ⟨rest, w', himp _ _ hrest, hsame, hrun⟩

end GoesOnAs

/-- Behind an action that only looks at the files, the next one goes on. -/
theorem Finds.goesOn {Found : Files → α → Prop} {Rest : α → Files → Action Session β → Prop}
    (h : action.Finds Found) (hnext : ∀ a, (next a).GoesOnAs (Rest a)) :
    (action >>= next).GoesOnAs fun files rest => ∃ a, Found files a ∧ Rest a files rest := by
  intro w
  rcases h.cases next w with hfailed | ⟨a, w', hfound, hsame, hrun⟩
  · exact .inl hfailed
  rw [hrun]
  rcases hnext a w' with ⟨failure, w'', hfailed, hsame'⟩ | ⟨rest, w'', hrest, hsame', hrun'⟩
  · exact .inl ⟨failure, w'', hfailed, hsame.trans hsame'⟩
  · rw [hsame.files_eq] at hrest
    exact .inr ⟨rest, w'', ⟨a, hfound, hrest⟩, hsame.trans hsame', hrun'⟩

/-! ### Actions that succeed -/

/-- With these files an action returns a value, and leaves the files as they are. -/
def Gives (action : Action Session α) (files : Files) (a : α) : Prop :=
  ∀ w, w.files = files → ∃ w', action.runIn w = (.ok a, w') ∧ SameFiles w w'

namespace Gives

variable {files : Files} {a : α} {b : β}

theorem pure (a : α) (files : Files) : (Pure.pure a : Action Session α).Gives files a :=
  fun w _ => ⟨w, rfl, .refl w⟩

theorem bind (h : action.Gives files a) (hnext : (next a).Gives files b) :
    (action >>= next).Gives files b := by
  intro w hfiles
  rcases h w hfiles with ⟨w', hrun, hsame⟩
  rcases hnext w' (hsame.files_eq.trans hfiles) with ⟨w'', hrun', hsame'⟩
  exact ⟨w'', (runIn_bind_of_ok hrun).trans hrun', hsame.trans hsame'⟩

end Gives

theorem gives_ofResult {result : Except ε α} {a : α} (h : result = .ok a) (failure : ε → Failure)
    (files : Files) : (ofResult result failure : Action Session α).Gives files a := by
  rw [h]
  exact Gives.pure a files

theorem gives_ask {request : Session (Except ε α)} {files : Files} {a : α}
    (h : Session.Gives request files (.ok a)) (failure : ε → Failure) :
    (ask request failure).Gives files a := by
  intro w hfiles
  rcases h w hfiles with ⟨w', hrun, hsame⟩
  exact ⟨w', runIn_ask_of_ok failure hrun, hsame⟩

theorem gives_say (lines : List LogLine) (files : Files) :
    (say lines : Action Session Unit).Gives files () := by
  induction lines with
  | nil => exact Gives.pure () files
  | cons line lines ih =>
      intro w hfiles
      have hsame := sameFiles_addLine w line
      rcases ih (w.addLine line) (hsame.files_eq.trans hfiles) with ⟨w', hrun, hsame'⟩
      exact ⟨w', hrun, hsame.trans hsame'⟩

theorem gives_locate (text : String) (files : Files) :
    (locate text : Action Session Path).Gives files (files.locate text) := by
  rintro w rfl
  exact ⟨w, rfl, .refl w⟩

/-- With these files an action returns one of these values, and leaves the files as they are. -/
def Yields (action : Action Session α) (files : Files) (Found : α → Prop) : Prop :=
  ∀ w, w.files = files → ∃ a w', action.runIn w = (.ok a, w') ∧ SameFiles w w' ∧ Found a

theorem Gives.yields {files : Files} {a : α} (h : action.Gives files a) :
    action.Yields files fun found => found = a := by
  intro w hfiles
  rcases h w hfiles with ⟨w', hrun, hsame⟩
  exact ⟨a, w', hrun, hsame, rfl⟩

theorem Yields.mono {files : Files} {Found Found' : α → Prop} (h : action.Yields files Found)
    (himp : ∀ a, Found a → Found' a) : action.Yields files Found' := by
  intro w hfiles
  rcases h w hfiles with ⟨a, w', hrun, hsame, hfound⟩
  exact ⟨a, w', hrun, hsame, himp a hfound⟩

theorem Yields.bind {files : Files} {Found : α → Prop} {Then : β → Prop}
    (h : action.Yields files Found) (hnext : ∀ a, Found a → (next a).Yields files Then) :
    (action >>= next).Yields files Then := by
  intro w hfiles
  rcases h w hfiles with ⟨a, w', hrun, hsame, hfound⟩
  rcases hnext a hfound w' (hsame.files_eq.trans hfiles) with ⟨b, w'', hrun', hsame', hthen⟩
  exact ⟨b, w'', (runIn_bind_of_ok hrun).trans hrun', hsame.trans hsame', hthen⟩

theorem yields_ask {request : Session (Except ε α)} {Found : α → Prop}
    (h : Session.Finds request fun _ result => ∃ a, result = .ok a ∧ Found a)
    (failure : ε → Failure) (files : Files) : (ask request failure).Yields files Found := by
  intro w _
  rcases hrun : request.run w with ⟨result, w'⟩
  rcases h w with ⟨hsame, a, hresult, hfound⟩
  rw [hrun] at hsame hresult
  cases hresult
  exact ⟨a, w', runIn_ask_of_ok failure hrun, hsame, hfound⟩

/-- With these files an action goes on as one of these, with the same files. -/
def Reaches (action : Action Session α) (files : Files) (Rest : Action Session α → Prop) : Prop :=
  ∀ w, w.files = files →
    ∃ rest w', Rest rest ∧ SameFiles w w' ∧ action.runIn w = rest.runIn w'

theorem reaches_self (action : Action Session α) (files : Files) {Rest : Action Session α → Prop}
    (h : Rest action) : action.Reaches files Rest :=
  fun w _ => ⟨action, w, h, .refl w, rfl⟩

theorem Yields.reaches {files : Files} {Found : α → Prop} {Rest : Action Session β → Prop}
    (h : action.Yields files Found) (hnext : ∀ a, Found a → (next a).Reaches files Rest) :
    (action >>= next).Reaches files Rest := by
  intro w hfiles
  rcases h w hfiles with ⟨a, w', hrun, hsame, hfound⟩
  rcases hnext a hfound w' (hsame.files_eq.trans hfiles) with ⟨rest, w'', hrest, hsame', hrun'⟩
  exact ⟨rest, w'', hrest, hsame.trans hsame', (runIn_bind_of_ok hrun).trans hrun'⟩

theorem Gives.reaches {files : Files} {a : α} {Rest : Action Session β → Prop}
    (h : action.Gives files a) (hnext : (next a).Reaches files Rest) :
    (action >>= next).Reaches files Rest :=
  h.yields.reaches fun _ hfound => hfound ▸ hnext

end Action

end SecureBoot
