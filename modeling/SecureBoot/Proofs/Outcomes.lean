import SecureBoot.Proofs.Simulation

/-!
# Outcomes — what commands leave behind

Until it publishes its outputs, a command only looks at files; a simulation makes directories as
well.  So a command ends before it has published anything, with the files as they were, or it ends
as the publishing of its outputs does (`Command.Ends`, `Command.exists_ends`).  The command that
generates a key is left out: its outputs are not published together.

The results hold for every machine, whatever fails on it as files are made, written and moved.

* `failed_commands_keep`: a command that fails has changed no file, unless an output other than its
  first one could not be moved into place.  Then the outputs before that one are in place.
* `runs_remove_temporaries`: no temporary file is left, unless an output could not be moved into
  place.  Then its temporary file is left, and no other one.

A temporary file that cannot be made or written does no harm: the command fails, no file has changed
and no temporary file is left (`Command.Ends.of_not_spares`).
-/

namespace SecureBoot

open SecureBoot.Action Workspace

/-! ## Actions that publish -/

namespace Action

variable {α : Type} {action : Action Session α} {next : α → Action Session Unit}
  {paths : List String}

/-- An action fails and changes nothing, or publishes outputs under these paths. -/
def Publishes (action : Action Session Unit) (paths : List String) : Prop :=
  action.GoesOnAs fun _ rest =>
    ∃ outputs lines, outputs.map Output.path = paths ∧ rest = publish outputs lines

theorem publishes_publish {outputs : List Output} (h : outputs.map Output.path = paths)
    (lines : List LogLine) : (publish outputs lines : Action Session Unit).Publishes paths :=
  (goesOnAs_self _).mono fun _ _ hrest => ⟨outputs, lines, h, hrest⟩

theorem Finds.publishes {Found : Files → α → Prop} (h : action.Finds Found)
    (hnext : ∀ a, (next a).Publishes paths) : (action >>= next).Publishes paths := by
  refine (h.goesOn hnext).mono ?_
  rintro files rest ⟨a, -, hrest⟩
  exact hrest

theorem finds_digestImage (stage : Stage) (image : String) (data : Bytes) :
    (digestImage stage image data : Action Session Digest).Finds
      fun _ digest => stage.digest data = .ok digest := by
  refine ((finds_ofResult (stage.digest data) _).bind fun digest =>
    (finds_say _).bind fun _ => Finds.pure digest).mono ?_
  rintro files found ⟨digest, hdigest, -, -, rfl⟩
  exact hdigest

end Action

namespace Command

theorem publishes_runHashKey (certificate hash : String) :
    (runHashKey certificate hash : Action Session Unit).Publishes [hash] :=
  (finds_loadCertificate certificate).publishes fun _ => publishes_publish rfl _

theorem publishes_runAlign (image aligned : String) :
    (runAlign image aligned : Action Session Unit).Publishes [aligned] :=
  (finds_loadImage image).publishes fun _ => (finds_say _).publishes fun _ =>
    publishes_publish rfl _

theorem publishes_runDigest (stage : Stage) (image output : String) :
    (runDigest stage image output : Action Session Unit).Publishes [output] :=
  (finds_loadImage image).publishes fun data => (finds_digestImage stage image data).publishes
    fun _ => (finds_say _).publishes fun _ => publishes_publish rfl _

theorem publishes_runSignDigest (source : KeySource) (stage : Stage) (image output : String) :
    (runSignDigest source stage image output : Action Session Unit).Publishes [output] :=
  source.finds_load.publishes fun key => (finds_loadImage image).publishes fun data =>
    (finds_digestImage stage image data).publishes fun digest => (finds_say _).publishes fun _ =>
      (finds_ofResult (SigningKey.ofPrivateKey key) _).publishes fun signing =>
        (finds_ask ((SigningMaterial.privateKey signing).finds_signer digest) _).publishes
          fun _ => publishes_publish rfl _

theorem publishes_runSignBoot (source : SigningSource) (sector : Option String)
    (image signed : String) :
    (runSignBoot source sector image signed : Action Session Unit).Publishes
      (signed :: sector.toList) := by
  refine source.finds_load.publishes fun loaded =>
    (finds_makeBootImage loaded.1.finds_signer image loaded.2 loaded.2).publishes fun made =>
      publishes_publish ?_ []
  cases sector with
  | none => rfl
  | some path => rfl

theorem publishes_runSignOta (source : SigningSource) (image signed : String) :
    (runSignOta source image signed : Action Session Unit).Publishes [signed] :=
  source.finds_load.publishes fun loaded => (finds_loadImage image).publishes fun data =>
    (finds_makeOtaImage loaded.1.finds_signer image data loaded.2 loaded.2).publishes fun _ =>
      publishes_publish rfl []

/-- Verifying only looks at the files. -/
theorem finds_runVerify (stage : Stage) (certificate : String) (images : List String) :
    (runVerify stage certificate images : Action Session Unit).Finds fun _ _ => True := by
  refine ((finds_loadCertificate certificate).bind fun trusted => finds_forM (fun image => ?_)
    images).mono fun _ _ _ => trivial
  refine ((finds_say _).bind fun _ => (finds_loadImage image).bind fun data =>
    (finds_verifyImage stage data trusted _).bind fun _ => finds_say _).mono fun _ _ _ => trivial

/-! ## How commands end -/

/-- Whether the command generates a key. -/
def generatesKey : Command → Bool
  | generateKey _ _ _ => true
  | _ => false

/-- The paths of the outputs of a command, in the order in which they are moved into place. -/
def outputPaths : Command → List String
  | generateKey key publicKey hash => key.path :: (publicKey.toList ++ hash.toList)
  | hashKey _ hash => [hash]
  | align _ aligned => [aligned]
  | digest _ _ output => [output]
  | signDigest _ _ _ signature => [signature]
  | signBoot _ sector _ signed => signed :: sector.toList
  | verifyBoot _ _ | verifyOta _ _ => []
  | signOta _ _ signed => [signed]
  | simulate simulation => simulation.outputPaths

/-- No file is different.  A simulation may have made directories; any other command leaves these as
they are too. -/
def Keeps (command : Command) (before after : Files) : Prop :=
  match command with
  | simulate _ => before.MoreDirectories after
  | _ => after = before

theorem keeps_self (command : Command) (files : Files) : command.Keeps files files := by
  cases command with
  | simulate simulation => exact .refl files
  | _ => rfl

theorem Keeps.faults_eq {command : Command} {before after : Files}
    (h : command.Keeps before after) : after.faults = before.faults := by
  cases command with
  | simulate simulation => exact Files.MoreDirectories.faults_eq h
  | _ => exact congrArg Files.faults h

/-- How a command ends: before it has published anything, or as the publishing of its outputs
does.  Without outputs it may succeed before that. -/
inductive Ends (command : Command) (before : Files) : Except Failure Unit → Workspace → Prop where
  | unpublished {result : Except Failure Unit} {w' : Workspace}
      (paths_eq : result = .ok () → command.outputPaths = [])
      (keeps : command.Keeps before w'.files) (temporaries_eq : w'.temporaries = []) :
      Ends command before result w'
  | published {result : Except Failure Unit} {w' : Workspace} {made : Files}
      {outputs : List Output} (keeps : command.Keeps before made)
      (paths_eq : outputs.map Output.path = command.outputPaths)
      (ending : Ending made outputs result w') : Ends command before result w'

theorem Ends.of_sameFiles {command : Command} {before : Files} {result : Except Failure Unit}
    {w w' : Workspace} (h : command.Ends before result w) (hsame : SameFiles w w') :
    command.Ends before result w' := by
  cases h with
  | unpublished hpaths hkeeps htemporaries =>
      exact .unpublished hpaths (hsame.files_eq ▸ hkeeps)
        (hsame.temporaries_eq.trans htemporaries)
  | published hkeeps hpaths hending =>
      exact .published hkeeps hpaths (hending.of_sameFiles hsame)

section Ends

variable {command : Command} {action : Action Session Unit} {w : Workspace}

theorem exists_ends_of_finds {Found : Files → Unit → Prop} (h : action.Finds Found)
    (hpaths : command.outputPaths = []) (hfresh : w.Fresh) :
    ∃ result w', action.runIn w = (result, w') ∧ command.Ends w.files result w' := by
  have hsame := (h w).1
  rcases hrun : action.runIn w with ⟨result, w'⟩
  rw [hrun] at hsame
  refine ⟨result, w', rfl, .unpublished (fun _ => hpaths) ?_ (hsame.fresh hfresh).temporaries_eq⟩
  rw [hsame.files_eq]
  exact command.keeps_self w.files

theorem exists_ends_of_publishes (h : action.Publishes command.outputPaths) (hfresh : w.Fresh) :
    ∃ result w', action.runIn w = (result, w') ∧ command.Ends w.files result w' := by
  rcases h w with
    ⟨failure, w', hrun, hsame⟩ | ⟨rest, w₁, ⟨outputs, lines, hpaths, rfl⟩, hsame, hrun⟩
  · refine ⟨.error failure, w', hrun, .unpublished nofun ?_ (hsame.fresh hfresh).temporaries_eq⟩
    rw [hsame.files_eq]
    exact command.keeps_self w.files
  · rcases publish_ends outputs lines (hsame.fresh hfresh) with ⟨result, w', hpublish, hending⟩
    rw [hsame.files_eq] at hending
    exact ⟨result, w', hrun.trans hpublish, .published (command.keeps_self w.files) hpaths hending⟩

end Ends

theorem exists_ends {command : Command} (h : command.generatesKey = false) {w : Workspace}
    (hfresh : w.Fresh) :
    ∃ result w', (command.run : Action Session Unit).runIn w = (result, w') ∧
      command.Ends w.files result w' := by
  cases command with
  | generateKey key publicKey hash => cases h
  | hashKey certificate hash =>
      exact exists_ends_of_publishes (publishes_runHashKey certificate hash) hfresh
  | align image aligned =>
      exact exists_ends_of_publishes (publishes_runAlign image aligned) hfresh
  | digest stage image output =>
      exact exists_ends_of_publishes (publishes_runDigest stage image output) hfresh
  | signDigest key stage image signature =>
      exact exists_ends_of_publishes (publishes_runSignDigest key stage image signature) hfresh
  | signBoot source sector image signed =>
      exact exists_ends_of_publishes (publishes_runSignBoot source sector image signed) hfresh
  | verifyBoot certificate images =>
      exact exists_ends_of_finds (finds_runVerify .boot certificate images) rfl hfresh
  | signOta source image signed =>
      exact exists_ends_of_publishes (publishes_runSignOta source image signed) hfresh
  | verifyOta certificate images =>
      exact exists_ends_of_finds (finds_runVerify .ota certificate images) rfl hfresh
  | simulate simulation =>
      -- A simulation makes directories before it publishes, and may fail in between.
      rcases simulation.exists_ends hfresh with ⟨result, w', hrun, hends⟩
      refine ⟨result, w', hrun, ?_⟩
      cases hends with
      | failed hmore hleft => exact .unpublished nofun hmore hleft
      | published hstems hmakes hmore hending =>
          refine .published hmore ?_ hending
          exact hstems.outputPaths_eq.symm

/-- A command that cannot make or write one of its temporary files fails, and neither a file nor a
temporary file is different. -/
theorem Ends.of_not_spares {command : Command} {before : Files} {result : Except Failure Unit}
    {after : Workspace} (h : command.Ends before result after)
    (hfault : ¬before.faults.Spares 0 command.outputPaths.length) :
    (∃ failure, result = .error failure) ∧ command.Keeps before after.files ∧
      after.temporaries = [] := by
  cases h with
  | unpublished hpaths hkeeps htemporaries =>
      cases result with
      | ok value =>
          rw [hpaths rfl] at hfault
          exact absurd trivial hfault
      | error failure => exact ⟨⟨failure, rfl⟩, hkeeps, htemporaries⟩
  | published hkeeps hpaths hending =>
      rw [← hpaths, List.length_map, ← hkeeps.faults_eq] at hfault
      rcases hending.unchanged_of_not_spares hfault with ⟨hfailure, hfiles, htemporaries⟩
      exact ⟨hfailure, hfiles ▸ hkeeps, htemporaries⟩

/-! ## Files -/

/-- The first outputs of a command are in place, and the next one cannot be moved to its path. -/
def PartlyDone (command : Command) (before after : Files) : Prop :=
  ∃ made placed stuck rest, command.Keeps before made ∧ placed ≠ [] ∧
    placed.map Output.path ++ stuck :: rest = command.outputPaths ∧
    made.placeAll placed = .ok after ∧ ∀ location, after.targetOf stuck ≠ .ok location

section Files

variable {command : Command} {before : Files} {after : Workspace}

theorem Ends.keeps_or_partlyDone {failure : Failure}
    (h : command.Ends before (.error failure) after) :
    command.Keeps before after.files ∨ command.PartlyDone before after.files := by
  cases h with
  | unpublished _ hkeeps => exact .inl hkeeps
  | @published made outputs hkeeps hpaths hending =>
      have htargets := @hending.targetOf_iff
      cases hending with
      | unstaged _ hfiles => exact .inl (hfiles ▸ hkeeps)
      | @stuck _ _ placed output rest _ _ houtputs hplaced htarget =>
          cases placed with
          | nil =>
              -- The first output is the one that cannot be moved, and so none has been.
              cases hplaced
              exact .inl hkeeps
          | cons first more =>
              refine .inr ⟨made, first :: more, output.path, rest.map Output.path, hkeeps,
                List.cons_ne_nil first more, ?_, hplaced, ?_⟩
              · rw [← hpaths, houtputs, List.map_append]
                rfl
              · exact fun location hfound => htarget location (htargets.1 hfound)

/-- The output that cannot be moved is not the first one. -/
theorem PartlyDone.exists_stuck {after : Files} (h : command.PartlyDone before after) :
    ∃ path ∈ command.outputPaths.tail, ∀ location, after.targetOf path ≠ .ok location := by
  rcases h with ⟨made, placed, stuck, rest, -, hplaced, hpaths, -, hstuck⟩
  refine ⟨stuck, ?_, hstuck⟩
  cases placed with
  | nil => exact absurd rfl hplaced
  | cons first more =>
      rw [← hpaths]
      exact List.mem_append_right _ List.mem_cons_self

end Files

end Command

/-- Whatever files there are, and whatever fails on the machine, a command that fails has changed no
file, unless one of its outputs, not the first, could not be moved to its path: then the outputs
before that one are in place.  If one of its temporary files cannot be made or written, it fails and
has changed no file. -/
theorem failed_commands_keep (tree : FileTree) (current : Location) (salts : Nat → Salt)
    (faults : Faults) (arguments : List String) (verbosity : Verbosity) (command : Command)
    (h : Invocation.parse arguments = .ok ⟨verbosity, some command⟩)
    (hkey : command.generatesKey = false) :
    ∃ code after, (runProgram arguments : Session ExitCode).run
        (Workspace.start tree current salts faults) = (code, after) ∧
      (code = .failure →
        (command.Keeps ⟨tree, current, faults⟩ after.files ∨
          command.PartlyDone ⟨tree, current, faults⟩ after.files) ∧
        ((∀ path ∈ command.outputPaths.tail, ∃ location,
          after.files.targetOf path = .ok location) →
          command.Keeps ⟨tree, current, faults⟩ after.files)) ∧
      (¬faults.Spares 0 command.outputPaths.length →
        code = .failure ∧ command.Keeps ⟨tree, current, faults⟩ after.files) := by
  rcases exists_run_of_command h (fun w => Command.exists_ends hkey (w := w))
    (fun hends hsame => hends.of_sameFiles hsame) (w := .start tree current salts faults)
    ⟨rfl, rfl⟩ with ⟨result, after, hrun, hends⟩
  refine ⟨_, after, hrun, ?_, ?_⟩
  · intro hcode
    cases result with
    | ok value => cases hcode
    | error failure =>
        have hkept := hends.keeps_or_partlyDone
        refine ⟨hkept, ?_⟩
        intro htargets
        refine hkept.resolve_right ?_
        intro hpartly
        rcases hpartly.exists_stuck with ⟨path, hpath, hstuck⟩
        rcases htargets path hpath with ⟨location, hlocation⟩
        exact hstuck location hlocation
  · intro hfault
    rcases hends.of_not_spares hfault with ⟨⟨failure, rfl⟩, hkeeps, -⟩
    exact ⟨rfl, hkeeps⟩

/-- A signed image that cannot be moved into place is not there, and neither is its sector; nor is
it there if there is no room for the sector. -/
theorem failed_commands_keep_sampleDirectory :
    ∃ (signature : Signature) (after stopped : Workspace),
      (runProgram ["sign-boot", "-g", "s", "-c", "c", "-b", "b", "i", "d"] : Session ExitCode).run
          (sampleDirectory signature .empty) = (.failure, after) ∧
        after.files = (sampleDirectory signature .empty).files ∧
        (runProgram ["sign-boot", "-g", "s", "-c", "c", "-b", "b", "i", "o"] :
          Session ExitCode).run (sampleDirectory signature (.fullAfter 1)) = (.failure, stopped) ∧
        stopped.files = (sampleDirectory signature (.fullAfter 1)).files := by
  rcases exists_sampleDirectory with ⟨signature, -, -, -, hsigning⟩
  let start := sampleDirectory signature .empty
  have hparse : Invocation.parse ["sign-boot", "-g", "s", "-c", "c", "-b", "b", "i", "d"] =
      .ok ⟨.regular, some (.signBoot (.presigned "s" "c") (some "b") "i" "d")⟩ := by
    decide +kernel
  have hparse' : Invocation.parse ["sign-boot", "-g", "s", "-c", "c", "-b", "b", "i", "o"] =
      .ok ⟨.regular, some (.signBoot (.presigned "s" "c") (some "b") "i" "o")⟩ := by
    decide +kernel
  rcases hsigning .empty _ _ _ hparse with
    ⟨result, after, first, second, hrun, hending, hfirst, -⟩
  have hdirectory : start.files.targetOf "d" = .error .isDirectory := rfl
  have hstuck : ∀ location, start.files.targetOf first.path ≠ .ok location := by
    rw [hfirst, hdirectory]
    exact nofun
  rcases hending.exists_failure List.mem_cons_self hstuck with ⟨failure, rfl⟩
  rcases failed_commands_keep start.tree [] _ .empty _ _ _ hparse rfl with
    ⟨code, after', hrun', hkept, -⟩
  cases hrun'.symm.trans hrun
  -- The second temporary file cannot be written.
  rcases failed_commands_keep start.tree [] start.salts (.fullAfter 1) _ _ _ hparse' rfl with
    ⟨code, stopped, hstopped, -, hfull⟩
  rcases hfull fun hspares => nomatch hspares.2.1.write with ⟨rfl, hnothing⟩
  refine ⟨signature, _, stopped, hrun, (hkept rfl).2 ?_, hstopped, hnothing⟩
  intro path hpath
  have hsector : start.files.targetOf "b" = .ok ["b"] := rfl
  rw [List.mem_singleton.1 hpath]
  exact ⟨["b"], hending.targetOf_iff.2 hsector⟩

/-- With a directory in the way of the signature sector, the signed image has come into being though
the command has failed. -/
theorem failed_command_leaves_image :
    ∃ (signature : Signature) (bytes : Bytes) (after : Workspace),
      (runProgram ["sign-boot", "-g", "s", "-c", "c", "-b", "d", "i", "o"] : Session ExitCode).run
          (sampleDirectory signature .empty) = (.failure, after) ∧
        (sampleDirectory signature .empty).files.contentOf "o" = .error (.opening .notFound) ∧
        after.files.contentOf "o" = .ok bytes := by
  rcases exists_sampleDirectory with ⟨signature, -, -, -, hsigning⟩
  let start := sampleDirectory signature .empty
  have hparse : Invocation.parse ["sign-boot", "-g", "s", "-c", "c", "-b", "d", "i", "o"] =
      .ok ⟨.regular, some (.signBoot (.presigned "s" "c") (some "d") "i" "o")⟩ := by
    decide +kernel
  rcases hsigning .empty _ _ _ hparse with
    ⟨result, after, first, second, hrun, hending, hfirst, hsecond⟩
  have hsigned : start.files.targetOf first.path = .ok ["o"] := by
    rw [hfirst]
    rfl
  have hdirectory : start.files.targetOf "d" = .error .isDirectory := rfl
  have hstuck : ∀ location, start.files.targetOf second.path ≠ .ok location := by
    rw [hsecond, hdirectory]
    exact nofun
  rcases hending.exists_failure (List.mem_cons_of_mem first List.mem_cons_self) hstuck with
    ⟨failure, rfl⟩
  refine ⟨signature, first.content, after, hrun, rfl, ?_⟩
  rw [← hfirst]
  cases hending with
  | unstaged hnone =>
      -- Both outputs could be staged: the directory they are in is there.
      refine absurd (List.forall_mem_cons.2 ⟨?_, List.forall_mem_singleton.2 ?_⟩)
        (hnone (Faults.spares_empty 0 2))
      · rw [hfirst]
        exact ⟨_, _, rfl, rfl⟩
      · rw [hsecond]
        exact ⟨_, _, rfl, rfl⟩
  | @stuck _ _ placed output rest t _ houtputs hplaced htarget =>
      cases placed with
      | nil =>
          cases houtputs
          exact absurd hsigned (htarget ["o"])
      | cons other more =>
          -- The second output is the one that is stuck, and the first is in place.
          rcases List.cons_eq_cons.1 houtputs with ⟨rfl, hmore⟩
          rcases List.append_eq_singleton_iff.1 hmore.symm with ⟨rfl, -⟩ | ⟨-, hnil⟩
          · exact Files.contentOf_placeAll hplaced (List.pairwise_singleton _ _) first
              List.mem_cons_self
          · exact absurd hnil (List.cons_ne_nil output rest)

/-! ## Temporary files -/

/-- One temporary file is left, that of an output that cannot be moved to its path. -/
def Command.LeavesTemporary (command : Command) (after : Workspace) : Prop :=
  ∃ t path, after.temporaries = [t] ∧ path ∈ command.outputPaths ∧
    ∀ location, after.files.targetOf path ≠ .ok location

theorem Command.Ends.temporaries {command : Command} {before : Files}
    {result : Except Failure Unit} {after : Workspace} (h : command.Ends before result after) :
    after.temporaries = [] ∨ (∃ failure, result = .error failure) ∧
      command.LeavesTemporary after := by
  cases h with
  | unpublished _ _ htemporaries => exact .inl htemporaries
  | published hkeeps hpaths hending =>
      have htargets := @hending.targetOf_iff
      cases hending with
      | finished _ _ htemporaries => exact .inl htemporaries
      | unstaged _ _ htemporaries => exact .inl htemporaries
      | @stuck failure _ placed output rest t _ houtputs hplaced htarget htemporaries =>
          refine .inr ⟨⟨failure, rfl⟩, t, output.path, htemporaries, ?_, ?_⟩
          · rw [← hpaths, houtputs]
            exact List.mem_map_of_mem (List.mem_append_right placed List.mem_cons_self)
          · exact fun location hfound => htarget location (htargets.1 hfound)

/-- Whatever files there are, and whatever fails on the machine, a run leaves no temporary file,
unless it fails because an output cannot be moved to its path: then the temporary file of this
output is left, and no other one.  If a temporary file cannot be made or written, the run fails
and none is left. -/
theorem runs_remove_temporaries (tree : FileTree) (current : Location) (salts : Nat → Salt)
    (faults : Faults) (arguments : List String) (verbosity : Verbosity) (command : Command)
    (h : Invocation.parse arguments = .ok ⟨verbosity, some command⟩)
    (hkey : command.generatesKey = false) :
    ∃ code after, (runProgram arguments : Session ExitCode).run
        (Workspace.start tree current salts faults) = (code, after) ∧
      (after.temporaries = [] ∨ code = .failure ∧ command.LeavesTemporary after) ∧
      ((∀ path ∈ command.outputPaths, ∃ location, after.files.targetOf path = .ok location) →
        after.temporaries = []) ∧
      (¬faults.Spares 0 command.outputPaths.length →
        code = .failure ∧ after.temporaries = []) := by
  rcases exists_run_of_command h (fun w => Command.exists_ends hkey (w := w))
    (fun hends hsame => hends.of_sameFiles hsame) (w := .start tree current salts faults)
    ⟨rfl, rfl⟩ with ⟨result, after, hrun, hends⟩
  have hleft := hends.temporaries
  refine ⟨_, after, hrun, ?_, ?_, ?_⟩
  · refine hleft.imp_right ?_
    rintro ⟨⟨failure, rfl⟩, hleaves⟩
    exact ⟨rfl, hleaves⟩
  · intro htargets
    refine hleft.resolve_right ?_
    rintro ⟨-, t, path, -, hpath, hstuck⟩
    rcases htargets path hpath with ⟨location, hlocation⟩
    exact hstuck location hlocation
  · intro hfault
    rcases hends.of_not_spares hfault with ⟨⟨failure, rfl⟩, -, hnone⟩
    exact ⟨rfl, hnone⟩

/-- A directory with an empty image and another directory in it. -/
def sampleImage (faults : Faults) : Workspace :=
  .start ⟨[(["i"], .file []), (["d"], .directory)]⟩ [] (fun _ => Octets.fill 32 0) faults

/-- A run that succeeds leaves no temporary file, and neither does one that finds no image or one
that finds no room for its output. -/
theorem runs_remove_temporaries_sampleImage :
    ∃ aligned refused stopped : Workspace,
      (runProgram ["align", "i", "o"] : Session ExitCode).run (sampleImage .empty) =
          (.success, aligned) ∧ aligned.temporaries = [] ∧
        (runProgram ["align", "x", "o"] : Session ExitCode).run (sampleImage .empty) =
          (.failure, refused) ∧ refused.temporaries = [] ∧
        (runProgram ["align", "i", "o"] : Session ExitCode).run (sampleImage (.fullAfter 0)) =
          (.failure, stopped) ∧ stopped.temporaries = [] := by
  let start := sampleImage .empty
  have hparse : Invocation.parse ["align", "i", "o"] =
      .ok ⟨.regular, some (.align "i" "o")⟩ := by
    decide +kernel
  have hparse' : Invocation.parse ["align", "x", "o"] =
      .ok ⟨.regular, some (.align "x" "o")⟩ := by
    decide +kernel
  rcases runs_remove_temporaries start.tree [] start.salts .empty _ _ _ hparse rfl with
    ⟨code, aligned, hrun, -, hnone, -⟩
  rcases runs_remove_temporaries start.tree [] start.salts .empty _ _ _ hparse' rfl with
    ⟨code', refused, hrun', -, hnone', -⟩
  rcases runs_remove_temporaries start.tree [] start.salts (.fullAfter 0) _ _ _ hparse rfl with
    ⟨code'', stopped, hstopped, -, -, hfull⟩
  rcases hfull fun hspares => nomatch hspares.1.write with ⟨rfl, hleft⟩
  have hcode : ((runProgram ["align", "i", "o"] : Session ExitCode).run start).1 = .success := by
    decide +kernel
  have hcode' : ((runProgram ["align", "x", "o"] : Session ExitCode).run start).1 = .failure := by
    decide +kernel
  have htarget : ((runProgram ["align", "i", "o"] : Session ExitCode).run
      start).2.files.targetOf "o" = .ok ["o"] := by
    decide +kernel
  have htarget' : ((runProgram ["align", "x", "o"] : Session ExitCode).run
      start).2.files.targetOf "o" = .ok ["o"] := by
    decide +kernel
  have hstart : Workspace.start start.tree [] start.salts .empty = start := rfl
  rw [hstart] at hrun hrun'
  rw [hrun] at hcode htarget
  rw [hrun'] at hcode' htarget'
  refine ⟨aligned, refused, stopped, hcode ▸ hrun, hnone ?_, hcode' ▸ hrun', hnone' ?_, hstopped,
    hleft⟩
  · exact List.forall_mem_singleton.2 ⟨["o"], htarget⟩
  · exact List.forall_mem_singleton.2 ⟨["o"], htarget'⟩

/-- With a directory in the way of the aligned image, its temporary file is left. -/
theorem failed_run_leaves_temporary :
    ∃ after : Workspace,
      (runProgram ["align", "i", "d"] : Session ExitCode).run (sampleImage .empty) =
          (.failure, after) ∧
        (sampleImage .empty).temporaries = [] ∧ after.temporaries = [⟨[], ".tmp0", []⟩] := by
  have hcode : ((runProgram ["align", "i", "d"] : Session ExitCode).run (sampleImage .empty)).1 =
      .failure := by
    decide +kernel
  have hleft : ((runProgram ["align", "i", "d"] : Session ExitCode).run
      (sampleImage .empty)).2.temporaries = [⟨[], ".tmp0", []⟩] := by
    decide +kernel
  exact ⟨_, Prod.ext hcode rfl, rfl, hleft⟩

end SecureBoot
