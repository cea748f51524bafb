import SecureBoot.Proofs.EncryptedKey
import SecureBoot.Proofs.KeySources
import SecureBoot.Proofs.SigningCommands

/-!
# KeyGeneration — a new key can be used

The command that generates a key publishes its outputs one by one.  `Action.Places` says that an
action puts the first so many of some outputs in place and changes nothing else; of two such actions
in a row, the second one goes on where the first one has succeeded (`Action.Places.bind`).

* `KeySource.yields_encode`: the content of the file for a private key is one from which the same
  source loads the key, with or without a password.
* `KeyRecord.loadFile_toPem`: from the file with its public key, the record of the key is loaded.
* `key_generation_places`: what a run leaves behind, whatever files there are and whatever fails.
-/

namespace SecureBoot

open SecureBoot.Action Workspace

/-! ## Outputs one by one -/

namespace Action

variable {α : Type} {files : Files} {What : List Output → Prop}

/-- With these files and no temporary ones, an action puts the first so many of some outputs in
place and changes nothing else; they are all there just if it succeeds, and then no temporary file
is left. -/
def Places (action : Action Session Unit) (files : Files) (What : List Output → Prop) : Prop :=
  ∀ w : Workspace, w.files = files → w.temporaries = [] →
    ∃ outputs result w' placed rest, What outputs ∧ action.runIn w = (result, w') ∧
      Published w outputs [] result w' placed rest

theorem places_publish (outputs : List Output) (lines : List LogLine) (files : Files) :
    (publish outputs lines : Action Session Unit).Places files (· = outputs) := by
  intro w _ htemporaries
  rcases publish_places outputs lines (numbered_of_temporaries htemporaries) with
    ⟨result, w', placed, rest, hrun, hpublished⟩
  exact ⟨outputs, result, w', placed, rest, rfl, hrun, htemporaries ▸ hpublished⟩

theorem places_pure (files : Files) :
    (pure () : Action Session Unit).Places files (· = []) := by
  intro w _ htemporaries
  exact ⟨[], .ok (), w, [], [], rfl, rfl, rfl, rfl, iff_of_true rfl rfl, fun _ => htemporaries⟩

theorem Places.mono {action : Action Session Unit} {What' : List Output → Prop}
    (h : action.Places files What) (himp : ∀ outputs, What outputs → What' outputs) :
    action.Places files What' := by
  intro w hfiles htemporaries
  rcases h w hfiles htemporaries with ⟨outputs, result, w', placed, rest, hwhat, hrun, hpublished⟩
  exact ⟨outputs, result, w', placed, rest, himp outputs hwhat, hrun, hpublished⟩

/-- Before outputs are published, an action may look at the files. -/
theorem Yields.places {action : Action Session α} {next : α → Action Session Unit}
    {Found : α → Prop} (h : action.Yields files Found)
    (hnext : ∀ a, Found a → (next a).Places files What) : (action >>= next).Places files What := by
  intro w hfiles htemporaries
  rcases h w hfiles with ⟨a, w₁, hrun, hsame, hfound⟩
  rcases hnext a hfound w₁ (hsame.files_eq.trans hfiles) (hsame.temporaries_eq.trans htemporaries)
    with ⟨outputs, result, w', placed, rest, hwhat, hrun', hpublished⟩
  refine ⟨outputs, result, w', placed, rest, hwhat, (runIn_bind_of_ok hrun).trans hrun', ?_⟩
  exact ⟨hpublished.append_eq, hsame.files_eq ▸ hpublished.placed_eq, hpublished.ok_iff,
    hpublished.temporaries_eq⟩

/-- The second of two actions goes on where the first one has succeeded. -/
theorem Places.bind {action next : Action Session Unit} {more : List Output}
    (h : action.Places files What) (hnext : ∀ files', next.Places files' (· = more)) :
    (do action; next).Places files fun outputs =>
      ∃ first, What first ∧ outputs = first ++ more := by
  intro w hfiles htemporaries
  rcases h w hfiles htemporaries with ⟨first, result, w₁, placed, rest, hwhat, hrun, hpublished⟩
  cases result with
  | error failure =>
      have hrest : rest ≠ [] := fun hnil => nomatch hpublished.ok_iff.2 hnil
      refine ⟨first ++ more, .error failure, w₁, placed, rest ++ more, ⟨first, hwhat, rfl⟩,
        runIn_bind_of_error hrun, ?_, hpublished.placed_eq, ?_, nofun⟩
      · rw [← List.append_assoc, hpublished.append_eq]
      · exact iff_of_false nofun fun hnil => hrest (List.append_eq_nil_iff.1 hnil).1
  | ok value =>
      rcases hnext w₁.files w₁ rfl (hpublished.temporaries_eq rfl) with
        ⟨outputs, result, w', placed', rest', rfl, hrun', hpublished'⟩
      refine ⟨first ++ outputs, result, w', first ++ placed', rest', ⟨first, hwhat, rfl⟩,
        (runIn_bind_of_ok hrun).trans hrun', ?_, ?_, hpublished'.ok_iff,
        hpublished'.temporaries_eq⟩
      · rw [List.append_assoc, hpublished'.append_eq]
      · rw [Files.placeAll_append, hpublished.files_eq]
        exact hpublished'.placed_eq

theorem Places.append {action next : Action Session Unit} {first more : List Output}
    (h : action.Places files (· = first)) (hnext : ∀ files', next.Places files' (· = more)) :
    (do action; next).Places files (· = first ++ more) := by
  refine (h.bind hnext).mono ?_
  rintro outputs ⟨placed, rfl, rfl⟩
  rfl

/-- An output that is not asked for is none. -/
theorem places_forM {body : String → Action Session Unit} {output : String → Output}
    (h : ∀ path files, (body path).Places files (· = [output path])) (path : Option String)
    (files : Files) :
    (path.forM body : Action Session Unit).Places files (· = path.toList.map output) := by
  cases path with
  | none => exact places_pure files
  | some path => exact h path files

end Action

/-! ## Contents -/

namespace KeySource

/-- A PEM text with the label of a private key is text. -/
theorem decode?_armour_ne_none {source : KeySource} (h : source.encoding = .pem) (data : Bytes) :
    Utf8.decode? (source.armour data) ≠ none := by
  have hlabel : ∀ b ∈ Pem.opening source.label ++ Pem.closing source.label ++
      Pem.LineEnd.lf.octets, b.toNat < 0x80 := by
    have hall : ∀ label ∈ ["ENCRYPTED PRIVATE KEY", "PRIVATE KEY"],
        (Pem.opening label ++ Pem.closing label ++ Pem.LineEnd.lf.octets).all
          (fun b => decide (b.toNat < 0x80)) = true := by
      decide
    have hmem : source.label ∈ ["ENCRYPTED PRIVATE KEY", "PRIVATE KEY"] := by
      rw [label]
      split <;> decide
    exact fun b hb => of_decide_eq_true (List.all_eq_true.1 (hall _ hmem) b hb)
  have hascii := KeyFormat.ascii_of_mem_encodeWith hlabel data
  rw [armour, h]
  simp only [Pem.encode_eq, Utf8.decode?_eq_map hascii]
  exact nofun

/-- What is read from a file is what was put into it. -/
theorem decode_armour {source : KeySource} {data : Bytes} {key : Rsa.PrivateKey}
    (hne : data ≠ []) (h : source.ofBinary? data = some key) :
    source.decode (source.armour data) = .ok key := by
  have hcontent : source.ofContent? (source.armour data) = some key := by
    rw [ofContent?, armour]
    cases source.encoding with
    | pem =>
        simp only [Pem.decode?_encode source.label hne, Option.bind_some]
        exact h
    | der => exact h
  have htext : ¬(source.encoding = .pem ∧ Utf8.decode? (source.armour data) = none) :=
    fun hnot => decode?_armour_ne_none hnot.1 data hnot.2
  rw [decode, if_neg htext, hcontent]

/-- The content of the file for a key is one from which the key is loaded. -/
theorem yields_encode (source : KeySource) {key : Rsa.PrivateKey} (h : key.Complete)
    (files : Files) :
    (source.encode key : Action Session Bytes).Yields files
      fun content => source.decode content = .ok key := by
  rcases PrivateKeyInfo.exists_ofRsa h with ⟨info, hinfo, hlength, hkey⟩
  have hne : info ≠ [] := by
    rintro rfl
    cases hkey
  intro w _
  unfold encode
  rw [hinfo]
  cases hpassword : source.password with
  | none =>
      refine ⟨source.armour info, w, rfl, .refl w, decode_armour hne ?_⟩
      rw [ofBinary?, hpassword]
      exact hkey
  | some password =>
      refine ⟨_, { w with drawn := w.drawn + 1 }, rfl, ⟨rfl, rfl, rfl⟩,
        decode_armour (Der.Element.encode_ne_nil _) ?_⟩
      rw [ofBinary?, hpassword]
      exact EncryptedKey.Envelope.rsaKey?_ofSalt hlength hkey (w.salts w.drawn) _

end KeySource

/-- The record of a key is loaded from the file with the public key. -/
theorem KeyRecord.loadFile_toPem {key : Rsa.PublicKey} {record : KeyRecord}
    (h : key.check = .ok ()) (hrecord : create key = .ok record) :
    loadFile key.toPem = .ok record := by
  rw [Rsa.PublicKey.toPem, Pem.encode_eq]
  exact (loadFile_publicKey .lf (infoOf_ne_nil key)).trans ((load_infoOf h).trans hrecord)

/-! ## The command -/

namespace Command

/-- The outputs of the command that generates a key: the key itself with some content, its public
key and its hash. -/
def generatedOutputs (source : KeySource) (publicKey hash : Option String) (key : Rsa.PublicKey)
    (record : KeyRecord) (content : Bytes) : List Output :=
  ⟨.key, source.path, content⟩ ::
    ((publicKey.toList.map fun path => ⟨.publicKey, path, key.toPem⟩) ++
      hash.toList.map fun path => ⟨.hash, path, record.hash.toBytes⟩)

variable {key : Rsa.PrivateKey} {record : KeyRecord}

theorem places_save (source : KeySource) (h : key.Complete) (files : Files) :
    (source.save key : Action Session Unit).Places files fun outputs =>
      ∃ content, source.decode content = .ok key ∧
        outputs = [⟨.key, source.path, content⟩] := by
  refine (gives_say _ files).yields.places fun _ _ => ?_
  refine (source.yields_encode h files).places fun content hcontent => ?_
  exact (places_publish _ [] files).mono fun outputs houtputs => ⟨content, hcontent, houtputs⟩

theorem places_savePublicKey (key : Rsa.PublicKey) (path : String) (files : Files) :
    (publish [⟨.publicKey, path, key.toPem⟩] [] : Action Session Unit).Places files
      (· = [⟨.publicKey, path, key.toPem⟩]) :=
  places_publish _ [] files

theorem places_saveHash (hrecord : KeyRecord.create key.toPublicKey = .ok record) (path : String)
    (files : Files) :
    (do
      let record ← makeRecord key .hashKey
      publish [⟨.hash, path, record.hash.toBytes⟩] [Report.keyHash record] :
      Action Session Unit).Places files (· = [⟨.hash, path, record.hash.toBytes⟩]) := by
  refine (gives_makeRecord hrecord _ files).yields.places ?_
  rintro made rfl
  exact places_publish _ _ files

/-- A run that has got a key puts the first so many of its outputs in place. -/
theorem exists_published_runGenerateKey (h : key.Complete)
    (hrecord : KeyRecord.create key.toPublicKey = .ok record) (source : KeySource)
    (publicKey hash : Option String) {w : Workspace} (hgenerated : w.generated = .ok key)
    (htemporaries : w.temporaries = []) :
    ∃ content result w' placed rest, source.decode content = .ok key ∧
      (runGenerateKey source publicKey hash : Action Session Unit).runIn w = (result, w') ∧
      Published w (generatedOutputs source publicKey hash key.toPublicKey record content) []
        result w' placed rest := by
  let next : Action Session Unit := do
    source.save key
    publicKey.forM fun path => publish [⟨.publicKey, path, key.toPublicKey.toPem⟩] []
    hash.forM fun path => do
      let record ← makeRecord key .hashKey
      publish [⟨.hash, path, record.hash.toBytes⟩] [Report.keyHash record]
  let w₁ := w.addLine Report.generatingKey
  have hsame : SameFiles w w₁ := sameFiles_addLine w Report.generatingKey
  have hrun : (runGenerateKey source publicKey hash : Action Session Unit).runIn w =
      next.runIn w₁ := by
    have hgenerate : (Host.generateKey : Session (Except String Rsa.PrivateKey)).run w₁ =
        (.ok key, w₁) := by
      have hkept : w₁.generated = .ok key := by
        rw [← hgenerated]
        simp only [w₁, addLine]
        split <;> rfl
      exact congrArg (·, w₁) hkept
    have hsay : (say [Report.generatingKey] : Action Session Unit).runIn w = (.ok (), w₁) := rfl
    exact (runIn_bind_of_ok hsay).trans (runIn_bind_of_ok (runIn_ask_of_ok _ hgenerate))
  have hplaces : next.Places w₁.files fun outputs => ∃ content,
      source.decode content = .ok key ∧
        outputs = generatedOutputs source publicKey hash key.toPublicKey record content := by
    have hmore (files : Files) :=
      (places_forM (places_savePublicKey key.toPublicKey) publicKey files).append
        (places_forM (places_saveHash hrecord) hash)
    refine ((places_save source h w₁.files).bind hmore).mono ?_
    rintro outputs ⟨first, ⟨content, hcontent, rfl⟩, rfl⟩
    exact ⟨content, hcontent, rfl⟩
  rcases hplaces w₁ rfl (hsame.temporaries_eq.trans htemporaries) with
    ⟨outputs, result, w', placed, rest, ⟨content, hcontent, rfl⟩, hrest, hpublished⟩
  refine ⟨content, result, w', placed, rest, hcontent, hrun.trans hrest, hpublished.append_eq, ?_,
    hpublished.ok_iff, hpublished.temporaries_eq⟩
  rw [← hsame.files_eq]
  exact hpublished.placed_eq

end Command

/-- Whatever files there are, and whatever fails on the machine, the command that generates a key
puts the first so many of its outputs in place and changes no other file.  They are all there just
if it succeeds, and then no temporary file is left.  The first output is a file from which the new
key is loaded, under the password if there is one. -/
theorem key_generation_places (tree : FileTree) (current : Location) (salts : Nat → Salt)
    (faults : Faults) (arguments : List String) (verbosity : Verbosity) (source : KeySource)
    (publicKey hash : Option String) (key : Rsa.PrivateKey) (husable : key.Usable)
    (hlt : key.privateExponent < key.modulus)
    (h : Invocation.parse arguments =
      .ok ⟨verbosity, some (.generateKey source publicKey hash)⟩) :
    ∃ record content code after placed rest, KeyRecord.create key.toPublicKey = .ok record ∧
      (runProgram arguments : Session ExitCode).run
        (Workspace.start tree current salts faults (.ok key)) = (code, after) ∧
      placed ++ rest = Command.generatedOutputs source publicKey hash key.toPublicKey record
        content ∧
      Files.placeAll ⟨tree, current, faults⟩ placed = .ok after.files ∧
      (code = .success ↔ rest = []) ∧ (code = .success → after.temporaries = []) ∧
      source.decode content = .ok key ∧
      KeyRecord.loadFile key.toPublicKey.toPem = .ok record := by
  rcases KeyRecord.exists_rsaKey husable with ⟨record, hrecord, -⟩
  rcases exists_run_runProgram h (.start tree current salts faults (.ok key)) with
    ⟨result, w', after, hrun, hprogram, hsame⟩
  rcases Command.exists_published_runGenerateKey (husable.complete hlt) hrecord source publicKey
    hash (w := { Workspace.start tree current salts faults (.ok key) with verbosity }) rfl rfl with
    ⟨content, result', w'', placed, rest, hcontent, hrun', hpublished⟩
  cases hrun.symm.trans hrun'
  have hcode : ExitCode.ofResult result = .success ↔ result = .ok () := by
    cases result with
    | ok value => exact iff_of_true rfl rfl
    | error failure => exact iff_of_false nofun nofun
  refine ⟨record, content, ExitCode.ofResult result, after, placed, rest, hrecord, hprogram,
    hpublished.append_eq, ?_, hcode.trans hpublished.ok_iff, ?_, hcontent,
    KeyRecord.loadFile_toPem husable.check hrecord⟩
  · rw [hsame.files_eq]
    exact hpublished.placed_eq
  · intro hsuccess
    rw [hsame.temporaries_eq]
    exact hpublished.temporaries_eq (hcode.1 hsuccess)

end SecureBoot
