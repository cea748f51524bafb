import SecureBoot.Command.Publishing
import SecureBoot.Proofs.FileTree
import SecureBoot.Proofs.Session

/-!
# Publishing — what becomes of the outputs of a command

Outputs are staged under temporary names, and then moved into place one after the other.  A
staging that fails, be it that a temporary file cannot be made or that it cannot be written,
leaves the files and the temporary files as they were (`Output.stage_cases`,
`Action.stageAll_cases`).  Moving one output places its content in the file tree, or changes
nothing (`StagedOutput.commit_cases`).

`Action.publish_places`: after a publishing, the first so many outputs are in place and nothing else
has changed; they are all there just if it has succeeded, and then no temporary file is left.
`Action.publish_ends` tells the ways apart in which it can end (`Ending`).
-/

namespace SecureBoot

/-! ## Faults -/

namespace Faults

/-- The temporary file that comes after so many others can be made and written. -/
structure SparesNext (faults : Faults) (made : Nat) : Prop where
  creation : faults.creations made = none
  write : faults.writes (made + 1) = none

/-- This many temporary files that come after so many others can be made and written. -/
def Spares (faults : Faults) (made : Nat) : Nat → Prop
  | 0 => True
  | count + 1 => faults.SparesNext made ∧ faults.Spares (made + 1) count

theorem spares_empty (made count : Nat) : empty.Spares made count := by
  induction count generalizing made with
  | zero => trivial
  | succ count ih => exact ⟨⟨rfl, rfl⟩, ih (made + 1)⟩

end Faults

/-! ## Outputs in place -/

namespace Files

/-- The files with an output in place. -/
def place (files : Files) (output : Output) : Except OsError Files :=
  (files.targetOf output.path).map fun location =>
    { files with tree := files.tree.put location (.file output.content) }

/-- The files with outputs in place, one placed after the other. -/
def placeAll : Files → List Output → Except OsError Files
  | files, [] => .ok files
  | files, output :: more => do (← files.place output).placeAll more

theorem place_eq_ok_iff {files files' : Files} {output : Output} :
    files.place output = .ok files' ↔
      ∃ location, files.targetOf output.path = .ok location ∧
        { files with tree := files.tree.put location (.file output.content) } = files' := by
  unfold place
  cases files.targetOf output.path with
  | error error =>
      refine ⟨nofun, ?_⟩
      rintro ⟨location, h, -⟩
      cases h
  | ok location =>
      constructor
      · intro h
        exact ⟨location, rfl, Except.ok.inj h⟩
      · rintro ⟨found, h, hput⟩
        cases h
        exact congrArg Except.ok hput

theorem placeAll_cons_eq_ok {files files' : Files} {output : Output} {more : List Output}
    (h : files.placeAll (output :: more) = .ok files') :
    ∃ files₁, files.place output = .ok files₁ ∧ files₁.placeAll more = .ok files' := by
  unfold placeAll at h
  cases hplace : files.place output with
  | error error =>
      rw [hplace] at h
      cases h
  | ok files₁ =>
      rw [hplace] at h
      exact ⟨files₁, rfl, h⟩

theorem placeAll_append (files : Files) (outputs more : List Output) :
    files.placeAll (outputs ++ more) = (files.placeAll outputs).bind (·.placeAll more) := by
  induction outputs generalizing files with
  | nil => rfl
  | cons output outputs ih =>
      simp only [List.cons_append, placeAll, bind, Except.bind]
      cases files.place output with
      | error error => rfl
      | ok files₁ => exact ih files₁

variable {files files' : Files} {outputs : List Output}

/-- What was found under the target of a text is the content of its file. -/
theorem contentOf_of_targetOf {text : String} {location : Location} {content : Bytes}
    (h : files.targetOf text = .ok location)
    (hfile : files.tree.get? location = some (.file content)) :
    files.contentOf text = .ok content :=
  FileTree.read_of_canReplace (targetOf_eq_ok_iff.1 h).1 hfile

section Place

variable {output : Output} (h : files.place output = .ok files')

include h

theorem sameDirectories_place : FileTree.SameDirectories files.tree files'.tree := by
  rcases place_eq_ok_iff.1 h with ⟨location, htarget, rfl⟩
  exact FileTree.sameDirectories_put files.tree
    (FileTree.not_directory_of_canReplace (targetOf_eq_ok_iff.1 htarget).1) output.content

/-- Outputs in place do not change which paths lead where. -/
theorem targetOf_place {text : String} {location : Location} :
    files'.targetOf text = .ok location ↔ files.targetOf text = .ok location := by
  have hdirectories := sameDirectories_place h
  rcases place_eq_ok_iff.1 h with ⟨found, -, rfl⟩
  rw [targetOf_eq_ok_iff, targetOf_eq_ok_iff]
  exact and_congr_left fun _ => hdirectories.canReplace_iff.symm

/-- Nothing else is different. -/
theorem get?_place {location : Location} (hlocation : files.targetOf output.path ≠ .ok location) :
    files'.tree.get? location = files.tree.get? location := by
  rcases place_eq_ok_iff.1 h with ⟨found, htarget, rfl⟩
  refine FileTree.get?_put_of_ne files.tree ?_ _
  rintro rfl
  exact hlocation htarget

end Place

theorem targetOf_placeAll (h : files.placeAll outputs = .ok files') {text : String}
    {location : Location} :
    files'.targetOf text = .ok location ↔ files.targetOf text = .ok location := by
  induction outputs generalizing files with
  | nil =>
      cases h
      exact Iff.rfl
  | cons output more ih =>
      rcases placeAll_cons_eq_ok h with ⟨files₁, hplace, hmore⟩
      exact (ih hmore).trans (targetOf_place hplace)

/-- Outputs that are in place had a place. -/
theorem exists_target_of_placeAll (h : files.placeAll outputs = .ok files') :
    ∀ output ∈ outputs, ∃ location, files.targetOf output.path = .ok location := by
  induction outputs generalizing files with
  | nil => exact nofun
  | cons output more ih =>
      rcases placeAll_cons_eq_ok h with ⟨files₁, hplace, hmore⟩
      intro other hother
      rcases List.mem_cons.1 hother with rfl | hother
      · rcases place_eq_ok_iff.1 hplace with ⟨location, htarget, -⟩
        exact ⟨location, htarget⟩
      · rcases ih hmore other hother with ⟨location, htarget⟩
        exact ⟨location, (targetOf_place hplace).1 htarget⟩

/-- Where no output belongs, nothing changes. -/
theorem get?_placeAll (h : files.placeAll outputs = .ok files') {location : Location}
    (hlocation : ∀ output ∈ outputs, files.targetOf output.path ≠ .ok location) :
    files'.tree.get? location = files.tree.get? location := by
  induction outputs generalizing files with
  | nil =>
      cases h
      rfl
  | cons output more ih =>
      rcases placeAll_cons_eq_ok h with ⟨files₁, hplace, hmore⟩
      have hfirst : files₁.tree.get? location = files.tree.get? location :=
        get?_place hplace (hlocation output List.mem_cons_self)
      rw [ih hmore, hfirst]
      intro other hother htarget
      exact hlocation other (List.mem_cons_of_mem output hother)
        ((targetOf_place hplace).1 htarget)

/-- There is a directory for the temporary file of an output. -/
def HasDirectory (files : Files) (text : String) : Prop :=
  ∃ directory location, (files.locate text).parent? = some directory ∧
    files.tree.resolveDirectory files.current directory = .ok location

/-- There is a place for an output, and a directory for its temporary file. -/
structure Placeable (files : Files) (text : String) : Prop where
  exists_directory : files.HasDirectory text
  exists_target : ∃ location, files.targetOf text = .ok location

/-- Two texts do not lead to one place. -/
def Apart (files : Files) (text other : String) : Prop :=
  ∀ location, files.targetOf text = .ok location → files.targetOf other ≠ .ok location

theorem apart_of_targetOf {text other : String} {location location' : Location}
    (h : files.targetOf text = .ok location) (h' : files.targetOf other = .ok location')
    (hne : location ≠ location') : files.Apart text other := by
  intro found hfound hother
  refine hne ?_
  rw [← Except.ok.inj (hfound.symm.trans h), Except.ok.inj (hother.symm.trans h')]

/-- Outputs at different places are all there in the end. -/
theorem contentOf_placeAll (h : files.placeAll outputs = .ok files')
    (hapart : outputs.Pairwise fun output other => files.Apart output.path other.path) :
    ∀ output ∈ outputs, files'.contentOf output.path = .ok output.content := by
  induction outputs generalizing files with
  | nil => exact nofun
  | cons output more ih =>
      rcases placeAll_cons_eq_ok h with ⟨files₁, hplace, hmore⟩
      rcases List.pairwise_cons.1 hapart with ⟨hfirst, hrest⟩
      intro other hother
      rcases List.mem_cons.1 hother with rfl | hother
      -- The outputs after this one are moved to other places.
      · rcases place_eq_ok_iff.1 hplace with ⟨location, htarget, hput⟩
        have hfile : files₁.tree.get? location = some (.file other.content) := by
          rw [← hput]
          exact FileTree.get?_put_self _
            (FileTree.ne_root_of_canReplace (targetOf_eq_ok_iff.1 htarget).1) _
        have hkept : files'.tree.get? location = files₁.tree.get? location := by
          refine get?_placeAll hmore ?_
          intro later hlater htaken
          exact hfirst later hlater location htarget ((targetOf_place hplace).1 htaken)
        exact contentOf_of_targetOf ((targetOf_placeAll h).2 htarget) (hkept.trans hfile)
      · refine ih hmore (hrest.imp ?_) other hother
        intro first second hne location htarget htaken
        exact hne location ((targetOf_place hplace).1 htarget)
          ((targetOf_place hplace).1 htaken)

end Files

/-! ## Temporary files -/

namespace Workspace

/-- The name that a workspace gives to a temporary file after so many others. -/
def temporaryName (made : Nat) : String :=
  ".tmp" ++ toString made

theorem temporaryName_injective {i j : Nat} (h : temporaryName i = temporaryName j) : i = j := by
  have hrepr : i.repr = j.repr := (String.append_right_inj ".tmp").1 h
  rw [Nat.repr_eq_ofList_toDigits, Nat.repr_eq_ofList_toDigits] at hrepr
  have hdigits : Nat.toDigits 10 i = Nat.toDigits 10 j := String.ofList_injective hrepr
  calc
    i = Nat.ofDigitChars 10 (Nat.toDigits 10 i) 0 := Nat.ofDigitChars_ten_toDigits.symm
    _ = Nat.ofDigitChars 10 (Nat.toDigits 10 j) 0 := by rw [hdigits]
    _ = j := Nat.ofDigitChars_ten_toDigits

/-- The names of the temporary files were given one after the other. -/
def Numbered (w : Workspace) : Prop :=
  ∀ t ∈ w.temporaries, ∃ i < w.made, t.name = temporaryName i

variable {w w' : Workspace}

theorem numbered_of_temporaries (h : w.temporaries = []) : w.Numbered := by
  unfold Numbered
  rw [h]
  exact nofun

theorem nextName_ne {i : Nat} (h : i ≠ w.made) : w.nextName ≠ temporaryName i :=
  fun heq => h (temporaryName_injective heq).symm

theorem Numbered.ne_nextName (h : w.Numbered) {t : TemporaryFile} (ht : t ∈ w.temporaries) :
    t.name ≠ w.nextName := by
  rcases h t ht with ⟨i, hi, hname⟩
  rw [hname]
  exact (nextName_ne (Nat.ne_of_lt hi)).symm

/-- The content of the temporary file of a name. -/
def contentUnder (w : Workspace) (name : String) : Option Bytes :=
  (w.temporaries.find? fun t => t.name = name).map TemporaryFile.content

/-- The workspace with one more temporary file. -/
def withTemporary (w : Workspace) (location : Location) (content : Bytes) : Workspace :=
  { w with temporaries := ⟨location, w.nextName, content⟩ :: w.temporaries, made := w.made + 1 }

theorem Numbered.withTemporary {w : Workspace} (h : w.Numbered) (location : Location)
    (content : Bytes) : (w.withTemporary location content).Numbered := by
  intro t ht
  rcases List.mem_cons.1 ht with rfl | ht
  · exact ⟨w.made, Nat.lt_succ_self w.made, rfl⟩
  · rcases h t ht with ⟨i, hi, hname⟩
    exact ⟨i, Nat.lt_succ_of_lt hi, hname⟩

theorem writeTemporary_addTemporary (h : w.Numbered) (location : Location) (content : Bytes) :
    (w.addTemporary location w.nextName).writeTemporary w.nextName content =
      w.withTemporary location content := by
  -- Only the new file has the new name.
  have hold : (w.temporaries.map fun t => if t.name = w.nextName then { t with content } else t) =
      w.temporaries :=
    (List.map_congr_left fun t ht => if_neg (h.ne_nextName ht)).trans (List.map_id' _)
  unfold writeTemporary addTemporary withTemporary
  rw [List.map_cons, hold, if_pos rfl]

theorem contentUnder_nextName (w : Workspace) (location : Location) (content : Bytes) :
    (w.withTemporary location content).contentUnder w.nextName = some content := by
  simp [contentUnder, withTemporary]

theorem contentUnder_withTemporary {i : Nat} (h : i < w.made) (location : Location)
    (content : Bytes) :
    (w.withTemporary location content).contentUnder (temporaryName i) =
      w.contentUnder (temporaryName i) := by
  simp only [contentUnder, withTemporary, List.find?_cons,
    decide_eq_false (nextName_ne (Nat.ne_of_lt h))]

theorem contentUnder_congr (h : w'.temporaries = w.temporaries) (name : String) :
    w'.contentUnder name = w.contentUnder name := by
  unfold contentUnder
  rw [h]

/-- The temporary files that have other names. -/
def temporariesBut (w : Workspace) (names : List String) : List TemporaryFile :=
  w.temporaries.filter fun t => t.name ∉ names

theorem temporariesBut_nil (w : Workspace) : w.temporariesBut [] = w.temporaries :=
  List.filter_eq_self.2 fun _ _ => decide_eq_true List.not_mem_nil

theorem temporaries_removeTemporary (w : Workspace) (name : String) :
    (w.removeTemporary name).temporaries = w.temporariesBut [name] := by
  unfold removeTemporary temporariesBut
  simp only [List.mem_singleton, ne_eq]

/-- What is not removed keeps its content. -/
theorem contentUnder_of_temporariesBut {names : List String}
    (h : w'.temporaries = w.temporariesBut names) {name : String} (hname : name ∉ names) :
    w'.contentUnder name = w.contentUnder name := by
  unfold contentUnder
  rw [h, temporariesBut, List.find?_filter]
  refine congrArg (fun found => (w.temporaries.find? found).map TemporaryFile.content)
    (funext fun t => ?_)
  by_cases ht : t.name = name
  · simp [ht, hname]
  · simp [ht]

theorem contentUnder_removeTemporary {name other : String} (h : name ≠ other) :
    (w.removeTemporary other).contentUnder name = w.contentUnder name :=
  contentUnder_of_temporariesBut (temporaries_removeTemporary w other) (mt List.mem_singleton.1 h)

theorem temporariesBut_congr (h : w'.temporaries = w.temporaries) (names : List String) :
    w'.temporariesBut names = w.temporariesBut names := by
  unfold temporariesBut
  rw [h]

theorem temporariesBut_cons (w : Workspace) (name : String) (names : List String) :
    w.temporariesBut (name :: names) = (w.temporariesBut names).filter fun t => t.name ≠ name := by
  unfold temporariesBut
  rw [List.filter_filter]
  refine List.filter_congr fun t _ => ?_
  simp [not_or]

theorem temporariesBut_removeTemporary (w : Workspace) (name : String) (names : List String) :
    (w.removeTemporary name).temporariesBut names = w.temporariesBut (name :: names) := by
  unfold temporariesBut removeTemporary
  rw [List.filter_filter]
  refine List.filter_congr fun t _ => ?_
  simp [not_or, Bool.and_comm]

theorem removeTemporary_withTemporary (h : w.Numbered) (location : Location) (content : Bytes) :
    ((w.withTemporary location content).removeTemporary w.nextName).temporaries =
      w.temporaries := by
  have hold : (w.temporaries.filter fun t => t.name ≠ w.nextName) = w.temporaries :=
    List.filter_eq_self.2 fun t ht => decide_eq_true (h.ne_nextName ht)
  have hnew : decide (w.nextName ≠ w.nextName) = false := decide_eq_false (not_not_intro rfl)
  simp only [removeTemporary, withTemporary, List.filter_cons, hnew, Bool.false_eq_true, if_false,
    hold]

/-- No two temporary files have one name. -/
def Distinct (w : Workspace) : Prop :=
  (w.temporaries.map TemporaryFile.name).Nodup

theorem distinct_of_temporaries (h : w.temporaries = []) : w.Distinct := by
  unfold Distinct
  rw [h]
  exact List.nodup_nil

theorem Distinct.of_sublist (h : w.Distinct) (hsublist : w'.temporaries.Sublist w.temporaries) :
    w'.Distinct :=
  (hsublist.map TemporaryFile.name).nodup h

theorem Distinct.withTemporary {w : Workspace} (h : w.Distinct) (hw : w.Numbered)
    (location : Location) (content : Bytes) : (w.withTemporary location content).Distinct := by
  refine List.nodup_cons.2 ⟨?_, h⟩
  intro hmem
  rcases List.mem_map.1 hmem with ⟨t, ht, hname⟩
  exact hw.ne_nextName ht hname

/-- If all temporary files have the name of one with this content, it is the only one. -/
theorem Distinct.exists_temporaries_eq (h : w.Distinct) {name : String} {content : Bytes}
    (hcontent : w.contentUnder name = some content)
    (hnone : (w.removeTemporary name).temporaries = []) :
    ∃ t, w.temporaries = [t] ∧ t.content = content := by
  have hname : ∀ t ∈ w.temporaries, t.name = name := by
    intro t ht
    have hfilter := List.filter_eq_nil_iff.1 hnone t ht
    simpa using hfilter
  unfold Distinct at h
  rcases Option.map_eq_some_iff.1 hcontent with ⟨t, hfind, rfl⟩
  cases htemporaries : w.temporaries with
  | nil =>
      rw [htemporaries] at hfind
      cases hfind
  | cons first more =>
      rw [htemporaries] at h hname hfind
      have hfirst : first = t := by
        rw [List.find?_cons_of_pos (by simp [hname first List.mem_cons_self])] at hfind
        exact Option.some.inj hfind
      cases more with
      | nil => exact ⟨t, by rw [hfirst], rfl⟩
      | cons second others =>
          refine absurd ?_ (List.nodup_cons.1 h).1
          rw [hname first List.mem_cons_self, ← hname second (by simp)]
          exact List.mem_cons_self

end Workspace

open SecureBoot.Action Workspace

namespace Session

theorem run_createTemporary (directory : Path) (w : Workspace) :
    (Host.createTemporary directory : Session _).run w =
      match w.tree.resolveDirectory w.current directory, w.faults.creations w.made with
      | .error error, _ | .ok _, some error => (.error error, w)
      | .ok location, none =>
          (.ok ⟨directory, w.nextName⟩, w.addTemporary location w.nextName) := by
  have hrun : (Host.createTemporary directory : Session _).run w =
      StateT.run (match w.tree.resolveDirectory w.current directory, w.faults.creations w.made with
        | .error error, _ | .ok _, some error =>
          (return .error error : Session (Except OsError Temporary))
        | .ok location, none => do
          set (w.addTemporary location w.nextName)
          return .ok ⟨directory, w.nextName⟩) w := rfl
  rw [hrun]
  cases w.tree.resolveDirectory w.current directory with
  | error error => rfl
  | ok location =>
      cases w.faults.creations w.made with
      | none => rfl
      | some error => rfl

theorem run_writeTemporary (temporary : Temporary) (content : Bytes) (w : Workspace) :
    (Host.writeTemporary temporary content : Session _).run w =
      match w.faults.writes w.made with
      | none => (.ok (), w.writeTemporary temporary.name content)
      | some fault =>
        (.error fault.error, w.writeTemporary temporary.name (content.take fault.written)) := by
  have hrun : (Host.writeTemporary temporary content : Session _).run w =
      StateT.run (match w.faults.writes w.made with
        | none => do
          set (w.writeTemporary temporary.name content)
          return .ok ()
        | some fault => do
          set (w.writeTemporary temporary.name (content.take fault.written))
          (return .error fault.error : Session (Except OsError Unit))) w := rfl
  rw [hrun]
  cases w.faults.writes w.made with
  | none => rfl
  | some fault => rfl

theorem run_moveTemporary (temporary : Temporary) (path : Path) (w : Workspace) :
    (Host.moveTemporary temporary path : Session _).run w =
      match w.target path with
      | .error error => (.error error, w)
      | .ok location => (.ok (), w.moveTemporary temporary.name location) := by
  have hrun : (Host.moveTemporary temporary path : Session _).run w =
      StateT.run (match w.target path with
        | .error error => (return .error error : Session (Except OsError Unit))
        | .ok location => do
          set (w.moveTemporary temporary.name location)
          return .ok ()) w := rfl
  rw [hrun]
  cases w.target path with
  | error error => rfl
  | ok location => rfl

end Session

/-! ## Staging -/

theorem StagedOutput.runIn_discard (staged : StagedOutput) (w : Workspace) :
    staged.discard.runIn w = (.ok (), w.removeTemporary staged.temporary.name) := rfl

section Staging

variable {w : Workspace} (h : w.Numbered)

include h

/-- The new temporary file of an output is written, or removed again with what is in it. -/
theorem Output.write_cases (output : Output) (directory : Path) (location : Location) :
    (∃ failure w', (output.write ⟨directory, w.nextName⟩).runIn
        (w.addTemporary location w.nextName) = (.error failure, w') ∧
        w'.files = w.files ∧ w'.temporaries = w.temporaries ∧
        w.faults.writes (w.made + 1) ≠ none) ∨
      (output.write ⟨directory, w.nextName⟩).runIn (w.addTemporary location w.nextName) =
          (.ok (), w.withTemporary location output.content) ∧
        w.faults.writes (w.made + 1) = none := by
  have hwrite := Session.run_writeTemporary ⟨directory, w.nextName⟩ output.content
    (w.addTemporary location w.nextName)
  simp only [writeTemporary_addTemporary h] at hwrite
  cases hfault : (w.addTemporary location w.nextName).faults.writes
      (w.addTemporary location w.nextName).made with
  | none =>
      rw [hfault] at hwrite
      exact .inr ⟨runIn_orElseCleaning_of_ok _ (runIn_ask_of_ok _ hwrite), hfault⟩
  | some fault =>
      rw [hfault] at hwrite
      refine .inl ⟨.writeOutput output.product fault.error, _,
        runIn_orElseCleaning_of_error (runIn_ask_of_error _ hwrite) rfl, rfl,
        removeTemporary_withTemporary h location (output.content.take fault.written), ?_⟩
      intro hnone
      cases hfault.symm.trans hnone

/-- Staging an output fails and leaves all files as they were, or gives the output a temporary
file. -/
theorem Output.stage_cases (output : Output) :
    (∃ failure w', output.stage.runIn w = (.error failure, w') ∧ w'.files = w.files ∧
        w'.temporaries = w.temporaries ∧
        (w.faults.SparesNext w.made → ¬w.files.HasDirectory output.path)) ∨
      w.faults.SparesNext w.made ∧ ∃ directory location,
        output.stage.runIn w =
          (.ok ⟨output.product, w.files.locate output.path, ⟨directory, w.nextName⟩⟩,
            w.withTemporary location output.content) := by
  unfold stage
  rw [runIn_bind_of_ok (runIn_locate output.path w)]
  cases hparent : (w.files.locate output.path).parent? with
  | none =>
      refine .inl ⟨_, w, rfl, rfl, rfl, ?_⟩
      rintro - ⟨directory, location, hsome, -⟩
      cases hparent.symm.trans hsome
  | some directory =>
      have hcreate := Session.run_createTemporary directory w
      cases hdirectory : w.tree.resolveDirectory w.current directory with
      | error error =>
          rw [hdirectory] at hcreate
          refine .inl ⟨_, w, runIn_bind_of_error (runIn_ask_of_error _ hcreate), rfl, rfl, ?_⟩
          rintro - ⟨other, location, hsome, hfound⟩
          cases hparent.symm.trans hsome
          cases hdirectory.symm.trans hfound
      | ok location =>
          cases hfault : w.faults.creations w.made with
          | some error =>
              rw [hdirectory, hfault] at hcreate
              refine .inl ⟨_, w, runIn_bind_of_error (runIn_ask_of_error _ hcreate), rfl, rfl, ?_⟩
              intro hspared
              cases hfault.symm.trans hspared.creation
          | none =>
              rw [hdirectory, hfault] at hcreate
              simp only
              rw [runIn_bind_of_ok (runIn_ask_of_ok _ hcreate)]
              rcases output.write_cases h directory location with
                ⟨failure, w', hwrite, hfiles, htemporaries, hstopped⟩ | ⟨hwrite, hdone⟩
              · exact .inl ⟨failure, w', runIn_bind_of_error hwrite, hfiles, htemporaries,
                  fun hspared => absurd hspared.write hstopped⟩
              · exact .inr ⟨⟨hfault, hdone⟩, directory, location, runIn_bind_of_ok hwrite⟩

end Staging

/-- The name under which a staged output is kept. -/
def StagedOutput.temporaryName (staged : StagedOutput) : String :=
  staged.temporary.name

/-- Outputs that were staged one after the other. -/
inductive Staged : Workspace → List Output → List StagedOutput → Workspace → Prop where
  | nil (w : Workspace) : Staged w [] [] w
  | cons {w w' : Workspace} (output : Output) {more : List Output} {staged : List StagedOutput}
      (directory : Path) (location : Location) (spared : w.faults.SparesNext w.made)
      (rest : Staged (w.withTemporary location output.content) more staged w') :
      Staged w (output :: more)
        (⟨output.product, w.files.locate output.path, ⟨directory, w.nextName⟩⟩ :: staged) w'

/-- Staging outputs fails on one of them and leaves nothing behind, or stages them all. -/
theorem Action.stageAll_cases (outputs : List Output) {w : Workspace} (h : w.Numbered) :
    (∃ failure w', (stageAll outputs).runIn w = (.error failure, w') ∧ outputs ≠ [] ∧
        (w.faults.Spares w.made outputs.length →
          ¬∀ output ∈ outputs, w.files.HasDirectory output.path) ∧
        w'.files = w.files ∧ w'.temporaries = w.temporaries) ∨
      ∃ staged w', (stageAll outputs).runIn w = (.ok staged, w') ∧ Staged w outputs staged w' := by
  induction outputs generalizing w with
  | nil => exact .inr ⟨[], w, rfl, .nil w⟩
  | cons output more ih =>
      unfold stageAll
      rcases output.stage_cases h with
        ⟨failure, w', hstage, hfiles, htemporaries, hcause⟩ |
          ⟨hspared, directory, location, hstage⟩
      · exact .inl ⟨failure, w', runIn_bind_of_error hstage, List.cons_ne_nil output more,
          fun hspared hall => hcause hspared.1 (hall output List.mem_cons_self), hfiles,
          htemporaries⟩
      rw [runIn_bind_of_ok hstage]
      rcases ih (h.withTemporary location output.content) with
        ⟨failure, w', hmore, -, hcause, hfiles, htemporaries⟩ | ⟨staged, w', hmore, hrest⟩
      -- The output that was staged first is removed again.
      · have hclean := runIn_orElseCleaning_of_error hmore (StagedOutput.runIn_discard
          ⟨output.product, w.files.locate output.path, ⟨directory, w.nextName⟩⟩ w')
        refine .inl ⟨failure, _, runIn_bind_of_error hclean, List.cons_ne_nil output more,
          fun hspared' hall => hcause hspared'.2 fun other hother =>
            hall other (List.mem_cons_of_mem output hother),
          hfiles, ?_⟩
        rw [← removeTemporary_withTemporary h location output.content]
        exact congrArg (List.filter fun t => t.name ≠ w.nextName) htemporaries
      · exact .inr ⟨_, w', runIn_bind_of_ok (runIn_orElseCleaning_of_ok _ hmore),
          .cons output directory location hspared hrest⟩

/-- Every output has its content under a temporary name of its own. -/
inductive Pending (w : Workspace) : List Output → List StagedOutput → Prop where
  | nil : Pending w [] []
  | cons {output : Output} {more : List Output} {staged : StagedOutput} {rest : List StagedOutput}
      (path_eq : staged.path = w.files.locate output.path)
      (content_eq : w.contentUnder staged.temporary.name = some output.content)
      (name_ne : ∀ other ∈ rest, other.temporary.name ≠ staged.temporary.name)
      (rest_pending : Pending w more rest) : Pending w (output :: more) (staged :: rest)

/-- What else changes in the workspace does not matter to pending outputs. -/
theorem Pending.of_contentUnder {w w' : Workspace} {outputs : List Output}
    {staged : List StagedOutput} (h : Pending w outputs staged) (hcurrent : w'.current = w.current)
    (hcontent : ∀ other ∈ staged,
      w'.contentUnder other.temporary.name = w.contentUnder other.temporary.name) :
    Pending w' outputs staged := by
  induction h with
  | nil => exact .nil
  | @cons output more staged rest hpath hfound hname _ ih =>
      have hlocate : w'.files.locate output.path = w.files.locate output.path := by
        unfold Files.locate Workspace.files
        rw [hcurrent]
      refine .cons (hpath.trans hlocate.symm) ?_ hname (ih ?_)
      · rw [hcontent staged List.mem_cons_self, hfound]
      · intro other hother
        exact hcontent other (List.mem_cons_of_mem staged hother)

namespace Staged

variable {w w' : Workspace} {outputs : List Output} {staged : List StagedOutput}

theorem files_eq (h : Staged w outputs staged w') : w'.files = w.files := by
  induction h with
  | nil w => rfl
  | cons output directory location spared rest ih => exact ih

/-- Temporary files that were there before keep their content. -/
theorem contentUnder_eq (h : Staged w outputs staged w') {i : Nat} (hi : i < w.made) :
    w'.contentUnder (temporaryName i) = w.contentUnder (temporaryName i) := by
  induction h with
  | nil w => rfl
  | cons output directory location spared rest ih =>
      exact (ih (Nat.lt_succ_of_lt hi)).trans
        (contentUnder_withTemporary hi location output.content)

theorem exists_name_eq (h : Staged w outputs staged w') :
    ∀ other ∈ staged, ∃ i, w.made ≤ i ∧ other.temporary.name = temporaryName i := by
  induction h with
  | nil w => exact nofun
  | @cons w w' output more staged directory location spared rest ih =>
      intro other hother
      rcases List.mem_cons.1 hother with rfl | hother
      · exact ⟨w.made, Nat.le_refl _, rfl⟩
      · rcases ih other hother with ⟨i, hi, hname⟩
        exact ⟨i, Nat.le_of_succ_le hi, hname⟩

theorem pending (h : Staged w outputs staged w') : Pending w' outputs staged := by
  induction h with
  | nil w => exact .nil
  | @cons w w' output more staged directory location spared rest ih =>
      refine .cons ?_ ?_ ?_ ih
      · rw [rest.files_eq]
        rfl
      · exact (rest.contentUnder_eq (Nat.lt_succ_self w.made)).trans
          (contentUnder_nextName w location output.content)
      · intro other hother
        rcases rest.exists_name_eq other hother with ⟨i, hi, hname⟩
        rw [hname]
        exact (nextName_ne (Nat.ne_of_gt hi)).symm

/-- The temporary files of staged outputs could be made and written. -/
theorem spares (h : Staged w outputs staged w') : w.faults.Spares w.made outputs.length := by
  induction h with
  | nil w => trivial
  | cons output directory location spared rest ih => exact ⟨spared, ih⟩

/-- With the staged outputs gone, what is left is what was there before. -/
theorem temporariesBut_eq (h : Staged w outputs staged w') (hw : w.Numbered) :
    w'.temporariesBut (staged.map StagedOutput.temporaryName) = w.temporaries := by
  induction h with
  | nil w => exact temporariesBut_nil w
  | @cons w w' output more staged directory location spared rest ih =>
      rw [List.map_cons, temporariesBut_cons, ih (hw.withTemporary location output.content)]
      exact removeTemporary_withTemporary hw location output.content

theorem distinct (h : Staged w outputs staged w') (hw : w.Numbered) (hdistinct : w.Distinct) :
    w'.Distinct := by
  induction h with
  | nil w => exact hdistinct
  | cons output directory location spared rest ih =>
      exact ih (hw.withTemporary location output.content)
        (hdistinct.withTemporary hw location output.content)

end Staged

/-! ## Moving into place -/

/-- Moving an output into place fails and changes nothing, or places its content. -/
theorem StagedOutput.commit_cases (staged : StagedOutput) {w : Workspace} {content : Bytes}
    (h : w.contentUnder staged.temporary.name = some content) :
    (∃ failure, staged.commit.runIn w = (.error failure, w) ∧
        ∀ location, w.target staged.path ≠ .ok location) ∨
      ∃ location w', w.target staged.path = .ok location ∧
        staged.commit.runIn w = (.ok (), w') ∧
        w'.files = { w.files with tree := w.tree.put location (.file content) } ∧
        w'.temporaries = (w.removeTemporary staged.temporary.name).temporaries := by
  have hmove := Session.run_moveTemporary staged.temporary staged.path w
  unfold commit
  cases htarget : w.target staged.path with
  | error error =>
      rw [htarget] at hmove
      exact .inl ⟨_, runIn_bind_of_error (runIn_ask_of_error _ hmove), nofun⟩
  | ok location =>
      rw [htarget] at hmove
      rcases gives_say [Report.saved staged.product staged.path] _
        (w.moveTemporary staged.temporary.name location) rfl with ⟨w', hsay, hsame⟩
      -- The temporary file that is moved is the one with the output's content.
      have hmoved : w.moveTemporary staged.temporary.name location =
          { w.removeTemporary staged.temporary.name with
            tree := w.tree.put location (.file content) } := by
        rcases Option.map_eq_some_iff.1 h with ⟨t, hfound, rfl⟩
        unfold moveTemporary
        rw [hfound]
      refine .inr ⟨location, w', rfl, ?_, ?_, ?_⟩
      · rw [runIn_bind_of_ok (runIn_ask_of_ok _ hmove)]
        exact hsay
      · rw [hsame.files_eq, hmoved]
        rfl
      · rw [hsame.temporaries_eq, hmoved]

/-- Giving up outputs does not change files, and removes nothing but their temporary files. -/
theorem exists_runIn_discardAll (staged : List StagedOutput) (w : Workspace) :
    ∃ w', (staged.forM StagedOutput.discard : Action Session Unit).runIn w = (.ok (), w') ∧
      w'.files = w.files ∧
      w'.temporaries = w.temporariesBut (staged.map StagedOutput.temporaryName) := by
  induction staged generalizing w with
  | nil =>
      exact ⟨w, rfl, rfl, (temporariesBut_nil w).symm⟩
  | cons other staged ih =>
      rcases ih (w.removeTemporary other.temporary.name) with ⟨w', hrun, hfiles, htemporaries⟩
      exact ⟨w', hrun, hfiles, htemporaries.trans (temporariesBut_removeTemporary w _ _)⟩

/-- The first of some outputs cannot be moved to its path and stays under its temporary name; of all
other temporary files, these are left. -/
def LeftBehind (files : Files) (rest : List Output) (left : List TemporaryFile) (w' : Workspace) :
    Prop :=
  ∃ output more name, rest = output :: more ∧
    (∀ location, files.targetOf output.path ≠ .ok location) ∧
    w'.contentUnder name = some output.content ∧ (w'.removeTemporary name).temporaries = left

/-- The first so many of some outputs are in place and nothing else has changed in the files; they
are all there just if all went well, and then these temporary files are left. -/
structure Published (w : Workspace) (outputs : List Output) (left : List TemporaryFile)
    (result : Except Failure Unit) (w' : Workspace) (placed rest : List Output) : Prop where
  append_eq : placed ++ rest = outputs
  placed_eq : w.files.placeAll placed = .ok w'.files
  ok_iff : result = .ok () ↔ rest = []
  temporaries_eq : result = .ok () → w'.temporaries = left

/-- Nothing is in place after a failure that comes before the first output is moved. -/
theorem Published.of_error {w w' : Workspace} {outputs : List Output} {left : List TemporaryFile}
    {failure : Failure} (hfiles : w'.files = w.files) (hne : outputs ≠ []) :
    Published w outputs left (.error failure) w' [] outputs where
  append_eq := rfl
  placed_eq := congrArg Except.ok hfiles.symm
  ok_iff := ⟨nofun, fun hnil => absurd hnil hne⟩
  temporaries_eq := nofun

theorem Published.files_eq {w w' : Workspace} {outputs placed rest : List Output}
    {left : List TemporaryFile} (h : Published w outputs left (.ok ()) w' placed rest) :
    w.files.placeAll outputs = .ok w'.files := by
  have happend := h.append_eq
  rw [h.ok_iff.1 rfl, List.append_nil] at happend
  exact happend ▸ h.placed_eq

theorem Action.commitAll_cases {outputs : List Output} {staged : List StagedOutput} {w : Workspace}
    (h : Pending w outputs staged) :
    ∃ result w' placed rest, (commitAll staged).runIn w = (result, w') ∧
      Published w outputs (w.temporariesBut (staged.map StagedOutput.temporaryName)) result w'
        placed rest ∧
      (result ≠ .ok () → LeftBehind w.files rest
        (w.temporariesBut (staged.map StagedOutput.temporaryName)) w') ∧
      w'.temporaries.Sublist w.temporaries := by
  induction staged generalizing outputs w with
  | nil =>
      cases h
      exact ⟨.ok (), w, [], [], rfl, ⟨rfl, rfl, ⟨fun _ => rfl, fun _ => rfl⟩,
        fun _ => (temporariesBut_nil w).symm⟩, fun hresult => absurd rfl hresult, .refl _⟩
  | cons staged others ih =>
      cases h with
      | @cons output more _ _ hpath hcontent hname hrest =>
          unfold commitAll
          rcases staged.commit_cases hcontent with
            ⟨failure, hcommit, hnone⟩ | ⟨location, w₁, htarget, hcommit, hfiles, htemporaries⟩
          · rcases exists_runIn_discardAll others w with ⟨w', hclean, hsame, hothers⟩
            rw [hpath] at hnone
            have hleft : (w'.removeTemporary staged.temporary.name).temporaries =
                w.temporariesBut ((staged :: others).map StagedOutput.temporaryName) := by
              rw [List.map_cons, temporariesBut_cons, ← hothers]
              rfl
            have hkept : w'.contentUnder staged.temporary.name = some output.content := by
              rw [contentUnder_of_temporariesBut hothers ?_, hcontent]
              intro hmem
              rcases List.mem_map.1 hmem with ⟨other, hother, heq⟩
              exact hname other hother heq
            refine ⟨_, w', [], output :: more,
              runIn_bind_of_error (runIn_orElseCleaning_of_error hcommit hclean),
              .of_error hsame (List.cons_ne_nil output more),
              fun _ => ⟨output, more, _, rfl, hnone, hkept, hleft⟩, ?_⟩
            rw [hothers]
            exact List.filter_sublist
          -- The other outputs are still pending, each under its own name.
          · have hcurrent : w₁.current = w.current := congrArg Files.current hfiles
            have hpending : Pending w₁ more others := by
              refine hrest.of_contentUnder hcurrent ?_
              intro other hother
              exact (contentUnder_congr htemporaries _).trans
                (contentUnder_removeTemporary (hname other hother))
            have hplace : w.files.place output = .ok w₁.files := by
              rw [hpath] at htarget
              exact Files.place_eq_ok_iff.2 ⟨location, htarget, hfiles.symm⟩
            have hleft : w₁.temporariesBut (others.map StagedOutput.temporaryName) =
                w.temporariesBut ((staged :: others).map StagedOutput.temporaryName) := by
              rw [List.map_cons, temporariesBut_congr htemporaries]
              exact temporariesBut_removeTemporary w staged.temporary.name _
            rcases ih hpending with ⟨result, w', placed, rest, hrun, hpublished, hbehind, hsublist⟩
            rw [hleft] at hpublished hbehind
            refine ⟨result, w', output :: placed, rest, ?_, ⟨?_, ?_, hpublished.ok_iff,
              hpublished.temporaries_eq⟩, ?_, ?_⟩
            · rw [runIn_bind_of_ok (runIn_orElseCleaning_of_ok _ hcommit)]
              exact hrun
            · rw [List.cons_append, hpublished.append_eq]
            · unfold Files.placeAll
              rw [hplace]
              exact hpublished.placed_eq
            · intro hresult
              rcases hbehind hresult with ⟨stuck, later, name, hstuck, hnone, hkept, hremoved⟩
              refine ⟨stuck, later, name, hstuck, ?_, hkept, hremoved⟩
              intro location htarget
              exact hnone location ((Files.targetOf_place hplace).2 htarget)
            · refine hsublist.trans ?_
              rw [htemporaries]
              exact List.filter_sublist

/-- A publishing fails because no temporary file could be made or written for an output, and then
nothing has happened; or it puts the first so many outputs in place and changes nothing else, and if
these are not all, the next one cannot be moved to its path. -/
theorem Action.publish_cases (outputs : List Output) (lines : List LogLine) {w : Workspace}
    (h : w.Numbered) :
    (∃ failure w', (publish outputs lines).runIn w = (.error failure, w') ∧ outputs ≠ [] ∧
        (w.faults.Spares w.made outputs.length →
          ¬∀ output ∈ outputs, w.files.HasDirectory output.path) ∧
        w'.files = w.files ∧ w'.temporaries = w.temporaries) ∨
      w.faults.Spares w.made outputs.length ∧
        ∃ result w' placed rest, (publish outputs lines).runIn w = (result, w') ∧
          Published w outputs w.temporaries result w' placed rest ∧ (w.Distinct → w'.Distinct) ∧
          (result ≠ .ok () → LeftBehind w.files rest w.temporaries w') := by
  unfold publish
  rcases stageAll_cases outputs h with
    ⟨failure, w', hstage, hfailed⟩ | ⟨staged, w₁, hstage, hstaged⟩
  · exact .inl ⟨failure, w', runIn_bind_of_error hstage, hfailed⟩
  · rcases gives_say lines _ w₁ rfl with ⟨w₂, hsay, hsame⟩
    have hpending : Pending w₂ outputs staged := by
      refine hstaged.pending.of_contentUnder (congrArg Files.current hsame.files_eq) ?_
      intro other _
      exact contentUnder_congr hsame.temporaries_eq other.temporary.name
    have hleft : w₂.temporariesBut (staged.map StagedOutput.temporaryName) = w.temporaries := by
      rw [← hstaged.temporariesBut_eq h]
      exact temporariesBut_congr hsame.temporaries_eq _
    rcases commitAll_cases hpending with
      ⟨result, w', placed, rest, hrun, hpublished, hbehind, hsublist⟩
    have hfiles : w₂.files = w.files := hsame.files_eq.trans hstaged.files_eq
    rw [hleft] at hpublished hbehind
    rw [hfiles] at hbehind
    refine .inr ⟨hstaged.spares, result, w', placed, rest, ?_, ⟨hpublished.append_eq, ?_,
      hpublished.ok_iff, hpublished.temporaries_eq⟩, ?_, hbehind⟩
    · rw [runIn_bind_of_ok hstage, runIn_bind_of_ok hsay]
      exact hrun
    · rw [← hfiles]
      exact hpublished.placed_eq
    · rw [hsame.temporaries_eq] at hsublist
      exact fun hdistinct => (hstaged.distinct h hdistinct).of_sublist hsublist

/-- A publishing puts the first so many outputs in place, all of them just if it succeeds, and
changes nothing else; when it succeeds, no temporary file of its own is left. -/
theorem Action.publish_places (outputs : List Output) (lines : List LogLine) {w : Workspace}
    (h : w.Numbered) :
    ∃ result w' placed rest, (publish outputs lines).runIn w = (result, w') ∧
      Published w outputs w.temporaries result w' placed rest := by
  rcases publish_cases outputs lines h with
    ⟨failure, w', hrun, hne, -, hfiles, -⟩ | ⟨-, result, w', placed, rest, hrun, hpublished, -⟩
  · exact ⟨.error failure, w', [], outputs, hrun, .of_error hfiles hne⟩
  · exact ⟨result, w', placed, rest, hrun, hpublished⟩

/-- How a publishing ends that has found no temporary files: it has put all outputs in place, or
could not make or write the temporary file of one of them and has done nothing, or has got stuck
at one that cannot be moved to its path, with the outputs before it in place and its temporary
file left. -/
inductive Ending (files : Files) (outputs : List Output) : Except Failure Unit → Workspace → Prop
  where
  | finished {w' : Workspace} (spares : files.faults.Spares 0 outputs.length)
      (placed_eq : files.placeAll outputs = .ok w'.files)
      (temporaries_eq : w'.temporaries = []) : Ending files outputs (.ok ()) w'
  | unstaged {failure : Failure} {w' : Workspace}
      (cause : files.faults.Spares 0 outputs.length →
        ¬∀ output ∈ outputs, files.HasDirectory output.path)
      (files_eq : w'.files = files) (temporaries_eq : w'.temporaries = []) :
      Ending files outputs (.error failure) w'
  | stuck {failure : Failure} {w' : Workspace} {placed : List Output} {output : Output}
      {rest : List Output} {t : TemporaryFile} (spares : files.faults.Spares 0 outputs.length)
      (outputs_eq : outputs = placed ++ output :: rest)
      (placed_eq : files.placeAll placed = .ok w'.files)
      (no_target : ∀ location, files.targetOf output.path ≠ .ok location)
      (temporaries_eq : w'.temporaries = [t]) (content_eq : t.content = output.content) :
      Ending files outputs (.error failure) w'

theorem Action.publish_ends (outputs : List Output) (lines : List LogLine) {w : Workspace}
    (h : w.Fresh) :
    ∃ result w', (publish outputs lines).runIn w = (result, w') ∧
      Ending w.files outputs result w' := by
  have hcases := publish_cases outputs lines (numbered_of_temporaries h.temporaries_eq)
  rw [h.temporaries_eq, h.made_eq] at hcases
  rcases hcases with ⟨failure, w', hrun, -, hcause, hfiles, htemporaries⟩ |
    ⟨hspares, result, w', placed, rest, hrun, hpublished, hdistinct, hbehind⟩
  · exact ⟨.error failure, w', hrun, .unstaged hcause hfiles htemporaries⟩
  refine ⟨result, w', hrun, ?_⟩
  cases result with
  | ok value => exact .finished hspares hpublished.files_eq (hpublished.temporaries_eq rfl)
  | error failure =>
      rcases hbehind nofun with ⟨output, more, name, hrest, htarget, hcontent, hremoved⟩
      have hdistinct' := hdistinct (distinct_of_temporaries h.temporaries_eq)
      rcases hdistinct'.exists_temporaries_eq hcontent hremoved with ⟨t, htemporaries, ht⟩
      have happend := hpublished.append_eq
      rw [hrest] at happend
      exact .stuck hspares happend.symm hpublished.placed_eq htarget htemporaries ht

theorem Ending.of_sameFiles {files : Files} {outputs : List Output} {result : Except Failure Unit}
    {w w' : Workspace} (h : Ending files outputs result w) (hsame : SameFiles w w') :
    Ending files outputs result w' := by
  cases h with
  | finished hspares hplaced htemporaries =>
      exact .finished hspares (hsame.files_eq ▸ hplaced) (hsame.temporaries_eq.trans htemporaries)
  | unstaged hcause hfiles htemporaries =>
      exact .unstaged hcause (hsame.files_eq.trans hfiles)
        (hsame.temporaries_eq.trans htemporaries)
  | stuck hspares houtputs hplaced htarget htemporaries hcontent =>
      exact .stuck hspares houtputs (hsame.files_eq ▸ hplaced) htarget
        (hsame.temporaries_eq.trans htemporaries) hcontent

/-- A publishing does not change which paths lead where. -/
theorem Ending.targetOf_iff {files : Files} {outputs : List Output} {result : Except Failure Unit}
    {w' : Workspace} (h : Ending files outputs result w') {text : String} {location : Location} :
    w'.files.targetOf text = .ok location ↔ files.targetOf text = .ok location := by
  cases h with
  | finished _ hplaced => exact Files.targetOf_placeAll hplaced
  | unstaged _ hfiles => rw [hfiles]
  | stuck _ _ hplaced => exact Files.targetOf_placeAll hplaced

/-- A publishing fails if one of its outputs cannot be moved to its path. -/
theorem Ending.exists_failure {files : Files} {outputs : List Output}
    {result : Except Failure Unit} {w' : Workspace} (h : Ending files outputs result w')
    {output : Output} (houtput : output ∈ outputs)
    (htarget : ∀ location, files.targetOf output.path ≠ .ok location) :
    ∃ failure, result = .error failure := by
  cases h with
  | finished _ hplaced =>
      rcases Files.exists_target_of_placeAll hplaced output houtput with ⟨location, hlocation⟩
      exact absurd hlocation (htarget location)
  | unstaged => exact ⟨_, rfl⟩
  | stuck => exact ⟨_, rfl⟩

/-- A publishing that cannot make or write one of its temporary files changes nothing. -/
theorem Ending.unchanged_of_not_spares {files : Files} {outputs : List Output}
    {result : Except Failure Unit} {w' : Workspace} (h : Ending files outputs result w')
    (hfault : ¬files.faults.Spares 0 outputs.length) :
    (∃ failure, result = .error failure) ∧ w'.files = files ∧ w'.temporaries = [] := by
  cases h with
  | finished hspares => exact absurd hspares hfault
  | unstaged _ hfiles htemporaries => exact ⟨⟨_, rfl⟩, hfiles, htemporaries⟩
  | stuck hspares => exact absurd hspares hfault

/-- A publishing succeeds if its temporary files can be made and written and there is a place for
each output. -/
theorem Ending.eq_ok_of_placeable {files : Files} {outputs : List Output}
    {result : Except Failure Unit} {w' : Workspace} (h : Ending files outputs result w')
    (hspares : files.faults.Spares 0 outputs.length)
    (hplace : ∀ output ∈ outputs, files.Placeable output.path) : result = .ok () := by
  cases h with
  | finished => rfl
  | unstaged hcause =>
      exact absurd (fun output houtput => (hplace output houtput).exists_directory) (hcause hspares)
  | stuck _ houtputs _ htarget =>
      have hstuck := hplace _ (houtputs ▸ List.mem_append_right _ List.mem_cons_self)
      rcases hstuck.exists_target with ⟨location, hlocation⟩
      exact absurd hlocation (htarget location)

/-- What is said after a publishing does not change how it has ended. -/
theorem Action.publish_ends_saying (outputs : List Output) (lines said : List LogLine)
    {w : Workspace} (h : w.Fresh) :
    ∃ result w', (do publish outputs lines; say said : Action Session Unit).runIn w =
      (result, w') ∧ Ending w.files outputs result w' := by
  rcases publish_ends outputs lines h with ⟨result, w', hpublish, hending⟩
  cases result with
  | error failure => exact ⟨.error failure, w', runIn_bind_of_error hpublish, hending⟩
  | ok value =>
      rcases gives_say said _ w' rfl with ⟨w'', hsay, hsame⟩
      exact ⟨.ok (), w'', (runIn_bind_of_ok hpublish).trans hsay, hending.of_sameFiles hsame⟩

end SecureBoot
