import SecureBoot.Command.Run
import SecureBoot.Proofs.FileTree
import SecureBoot.Proofs.Session

/-!
# Directories — what making directories changes

A directory is made only where there was nothing.  So whatever way `Action.makeDirectories` takes
through the outer directories, and whether or not it succeeds, there are at most more directories
afterwards (`FileTree.MoreDirectories`): no file is gone or has another content.  A directory that
is there is left alone (`Action.gives_makeDirectories`).
-/

namespace SecureBoot

/-! ## File trees -/

namespace FileTree

variable {tree grown other : FileTree} {current location found : Location} {path : Path}

/-- The same tree with more directories, perhaps. -/
def MoreDirectories (tree grown : FileTree) : Prop :=
  ∀ location, grown.get? location = tree.get? location ∨
    tree.get? location = none ∧ grown.get? location = some .directory

namespace MoreDirectories

theorem refl (tree : FileTree) : MoreDirectories tree tree :=
  fun _ => .inl rfl

theorem trans (h : MoreDirectories tree grown) (h' : MoreDirectories grown other) :
    MoreDirectories tree other := by
  intro location
  rcases h' location with hsame | ⟨hnone, hmade⟩
  · rw [hsame]
    exact h location
  · rcases h location with hsame' | ⟨-, hmade'⟩
    · exact .inr ⟨hsame'.symm.trans hnone, hmade⟩
    -- What is a directory already is not made once more.
    · cases hnone.symm.trans hmade'

end MoreDirectories

/-- A directory is made where there is nothing. -/
theorem moreDirectories_makeDirectory (h : tree.makeDirectory current path = .ok grown) :
    MoreDirectories tree grown := by
  unfold makeDirectory at h
  rcases hlast : tree.resolveLast current path with error | ⟨directory, name | name⟩
  · rw [hlast] at h
    cases h
  · rw [hlast] at h
    cases h
  rw [hlast] at h
  simp only [bind, Except.bind] at h
  by_cases hlong : isTooLong name = true
  · rw [if_pos hlong] at h
    cases h
  by_cases hthere : (tree.get? (directory ++ [name])).isSome = true
  · rw [if_neg hlong, if_pos hthere] at h
    cases h
  rw [if_neg hlong, if_neg hthere] at h
  cases h
  have hnonempty : directory ++ [name] ≠ [] :=
    List.append_ne_nil_of_right_ne_nil directory (List.cons_ne_nil name [])
  intro location
  by_cases hlocation : location = directory ++ [name]
  · rw [hlocation]
    exact .inr ⟨by simpa using hthere, get?_put_self tree hnonempty _⟩
  · exact .inl (get?_put_of_ne tree hlocation _)

/-- A walk along some names and one more stops on its way in front of the last step. -/
theorem walk_concat_eq_ok {names : List String} {name : String}
    (h : tree.walk location (names ++ [name]) = .ok found) :
    ∃ directory, tree.walk location names = .ok directory ∧
      tree.get? directory = some .directory ∧ Steps tree directory name found := by
  induction names generalizing location with
  | nil =>
      rcases walk_cons_eq_ok_iff.1 h with ⟨hhere, next, hstep, hrest⟩
      cases hrest
      exact ⟨location, rfl, hhere, hstep⟩
  | cons first names ih =>
      rcases walk_cons_eq_ok_iff.1 h with ⟨hhere, next, hstep, hrest⟩
      rcases ih hrest with ⟨directory, hwalk, hdirectory, hlast⟩
      exact ⟨directory, walk_cons_eq_ok_iff.2 ⟨hhere, next, hstep, hwalk⟩, hdirectory, hlast⟩

/-- Where a directory is, none can be made. -/
theorem makeDirectory_of_isDirectory (h : tree.isDirectory current path = true) :
    tree.makeDirectory current path = .error .exists := by
  have hresolve : ∃ location, tree.resolveDirectory current path = .ok location := by
    unfold isDirectory at h
    cases hfound : tree.resolveDirectory current path with
    | error error =>
        rw [hfound] at h
        cases h
    | ok location => exact ⟨location, rfl⟩
  rcases hresolve with ⟨location, hlocation⟩
  rcases resolveDirectory_eq_ok_iff.1 hlocation with ⟨hwalk, hdirectory⟩
  unfold makeDirectory resolveLast
  cases hname : path.names.getLast? with
  | none => rfl
  | some name =>
      rcases List.getLast?_eq_some_iff.1 hname with ⟨init, hinit⟩
      rw [hinit] at hwalk ⊢
      rcases walk_concat_eq_ok hwalk with ⟨outside, houtside, hfound, hstep⟩
      have houter : tree.resolveDirectory current
          { path with names := init, trailing := false } = .ok outside :=
        resolveDirectory_eq_ok_iff.2 ⟨houtside, hfound⟩
      simp only [List.dropLast_concat, bind, Except.bind, houter]
      -- Whichever way the last step went, it led somewhere, and so the name is taken.
      cases hstep with
      | here => rfl
      | out => rfl
      | into ordinary not_too_long get?_eq =>
          simp only [if_neg ordinary, if_neg not_too_long, get?_eq]
          rfl

end FileTree

/-- The same files with more directories, perhaps. -/
structure Files.MoreDirectories (before after : Files) : Prop where
  current_eq : after.current = before.current
  faults_eq : after.faults = before.faults
  tree : FileTree.MoreDirectories before.tree after.tree

theorem Files.MoreDirectories.refl (files : Files) : MoreDirectories files files :=
  ⟨rfl, rfl, .refl files.tree⟩

/-! ## Workspaces -/

namespace Workspace

/-- The same workspace with more directories, perhaps; temporary files are the same too. -/
structure MoreDirectories (w w' : Workspace) : Prop where
  files : Files.MoreDirectories w.files w'.files
  temporaries_eq : w'.temporaries = w.temporaries
  made_eq : w'.made = w.made

theorem MoreDirectories.trans {w w' w'' : Workspace} (h : MoreDirectories w w')
    (h' : MoreDirectories w' w'') : MoreDirectories w w'' :=
  ⟨⟨h'.files.current_eq.trans h.files.current_eq, h'.files.faults_eq.trans h.files.faults_eq,
    h.files.tree.trans h'.files.tree⟩,
    h'.temporaries_eq.trans h.temporaries_eq, h'.made_eq.trans h.made_eq⟩

theorem SameFiles.moreDirectories {w w' : Workspace} (h : SameFiles w w') :
    MoreDirectories w w' :=
  ⟨h.files_eq ▸ .refl w.files, h.temporaries_eq, h.made_eq⟩

theorem MoreDirectories.fresh {w w' : Workspace} (h : MoreDirectories w w') (hw : w.Fresh) :
    w'.Fresh :=
  ⟨h.temporaries_eq.trans hw.temporaries_eq, h.made_eq.trans hw.made_eq⟩

end Workspace

open Workspace

namespace Session

theorem run_makeDirectory (path : Path) (w : Workspace) :
    (Host.makeDirectory path : Session (Except OsError Unit)).run w =
      match w.tree.makeDirectory w.current path, w.faults.directories path with
      | .error error, _ => (.error error, w)
      | .ok _, some error => (.error error, w)
      | .ok tree, none => (.ok (), { w with tree }) := by
  have hrun : (Host.makeDirectory path : Session (Except OsError Unit)).run w =
      StateT.run (match w.tree.makeDirectory w.current path, w.faults.directories path with
        | .error error, _ => (return .error error : Session (Except OsError Unit))
        | .ok _, some error => return .error error
        | .ok tree, none => do
          set { w with tree }
          return .ok ()) w := rfl
  rw [hrun]
  cases w.tree.makeDirectory w.current path with
  | error error => rfl
  | ok tree => cases w.faults.directories path <;> rfl

theorem finds_isDirectory (path : Path) :
    Session.Finds (Host.isDirectory path : Session Bool)
      fun files found => found = files.tree.isDirectory files.current path :=
  fun w => ⟨.refl w, rfl⟩

end Session

/-! ## Actions -/

namespace Action

variable {α β : Type} {action : Action Session α} {next : α → Action Session β}

/-- An action makes directories at most, whether it succeeds or not. -/
def MakesDirectories (action : Action Session α) : Prop :=
  ∀ w, MoreDirectories w (action.runIn w).2

theorem Finds.makesDirectories {Found : Files → α → Prop} (h : action.Finds Found) :
    action.MakesDirectories :=
  fun w => (h w).1.moreDirectories

theorem MakesDirectories.bind (h : action.MakesDirectories)
    (hnext : ∀ a, (next a).MakesDirectories) : (action >>= next).MakesDirectories := by
  intro w
  have hfirst := h w
  rcases hrun : action.runIn w with ⟨result, w'⟩
  rw [hrun] at hfirst
  cases result with
  | error failure =>
      rw [runIn_bind_of_error hrun]
      exact hfirst
  | ok a =>
      rw [runIn_bind_of_ok hrun]
      exact hfirst.trans (hnext a w')

theorem makesDirectories_makeDirectory (path : Path) :
    (liftM (Host.makeDirectory path : Session (Except OsError Unit)) :
      Action Session (Except OsError Unit)).MakesDirectories := by
  intro w
  rw [runIn_lift, Session.run_makeDirectory]
  cases hmake : w.tree.makeDirectory w.current path with
  | error error => exact (SameFiles.refl w).moreDirectories
  | ok tree =>
      cases w.faults.directories path with
      | some error => exact (SameFiles.refl w).moreDirectories
      | none => exact ⟨⟨rfl, rfl, FileTree.moreDirectories_makeDirectory hmake⟩, rfl, rfl⟩

/-- A directory that cannot be made may be there already. -/
theorem makesDirectories_unlessDirectory (path : Path) (failure : Failure) :
    (do if ← (Host.isDirectory path : Session Bool) then return else throw failure :
      Action Session Unit).MakesDirectories := by
  refine (Finds.lift (Session.finds_isDirectory path)).makesDirectories.bind fun found => ?_
  cases found with
  | true => exact (Finds.pure ()).makesDirectories
  | false => exact (Finds.throw failure).makesDirectories

theorem makesDirectories_makeLastDirectory (name : String) (path : Path) :
    (makeLastDirectory name path : Action Session Unit).MakesDirectories := by
  refine (makesDirectories_makeDirectory path).bind fun result => ?_
  cases result with
  | ok value => exact (Finds.pure ()).makesDirectories
  | error error => exact makesDirectories_unlessDirectory path (.createDirectory name error)

/-- Making a directory changes nothing else if making the directories it is in does not. -/
theorem makesDirectories_of_outer (name : String) (depth : Nat) (path : Path)
    (h : ∀ outer parent, depth = outer + 1 →
      (makeDirectories name outer parent : Action Session Unit).MakesDirectories) :
    (makeDirectories name depth path : Action Session Unit).MakesDirectories := by
  unfold makeDirectories
  by_cases hhere : path.start = .here ∧ path.names = []
  · rw [if_pos hhere]
    exact (Finds.pure ()).makesDirectories
  rw [if_neg hhere]
  -- The directory was made, an outer one is missing, or there is another error.
  refine (makesDirectories_makeDirectory path).bind fun result => ?_
  split
  · exact (Finds.pure ()).makesDirectories
  · split
    · rename_i outer parent _
      exact (h outer parent rfl).bind fun _ => makesDirectories_makeLastDirectory name path
    · exact (Finds.throw _).makesDirectories
  · rename_i error _
    exact makesDirectories_unlessDirectory path (.createDirectory name error)

/-- Making a directory and those it is in changes nothing else, even if it fails on the way. -/
theorem makesDirectories_makeDirectories (name : String) (depth : Nat) (path : Path) :
    (makeDirectories name depth path : Action Session Unit).MakesDirectories := by
  induction depth generalizing path with
  | zero => exact makesDirectories_of_outer name 0 path nofun
  | succ depth ih =>
      refine makesDirectories_of_outer name (depth + 1) path ?_
      rintro outer parent hdepth
      rw [← Nat.succ.inj hdepth]
      exact ih parent

/-- A directory that is there is left alone. -/
theorem gives_makeDirectories {files : Files} {path : Path}
    (h : files.tree.isDirectory files.current path = true) (name : String) (depth : Nat) :
    (makeDirectories name depth path : Action Session Unit).Gives files () := by
  unfold makeDirectories
  by_cases hhere : path.start = .here ∧ path.names = []
  · rw [if_pos hhere]
    exact Gives.pure () files
  rw [if_neg hhere]
  rintro w rfl
  have hmake : (liftM (Host.makeDirectory path : Session (Except OsError Unit)) :
      Action Session (Except OsError Unit)).runIn w = (.ok (.error .exists), w) := by
    have hmade : w.tree.makeDirectory w.current path = .error .exists :=
      FileTree.makeDirectory_of_isDirectory h
    rw [runIn_lift, Session.run_makeDirectory, hmade]
    rfl
  have hthere : (liftM (Host.isDirectory path : Session Bool) : Action Session Bool).runIn w =
      (.ok true, w) :=
    congrArg (fun found : Bool => (Except.ok found, w)) h
  rw [runIn_bind_of_ok hmake]
  simp only
  rw [runIn_bind_of_ok hthere]
  exact ⟨w, rfl, .refl w⟩

end Action

end SecureBoot
