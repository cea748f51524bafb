import SecureBoot.Command.Syntax
import SecureBoot.Proofs.Padding

/-!
# Layers — signing what is signed, and taking the layers off again

Each operation that signs adds a layer to a buffer.  A `Run` is a history of such operations, each
applied to what the one before it has made.

* `Stage.run_sign`: which operations succeed is decided by the length of the buffer; the residue of
  this length tells the layers apart.
* `Stage.undo_wrap`: undoing an operation on the buffer that it has made gives back what it signed.
  For an OTA layer this is the buffer before; for a boot layer it is the padded buffer.
* `Run.unwind_eq`: undoing one operation after the other works as long as no boot layer lies on an
  OTA layer.  Where it does, the padding between them stays, and what is under it is not taken for
  an OTA-signed image (`Run.unwind_of_boot_over_ota`).
-/

namespace SecureBoot

/-! ## Stages -/

namespace Stage

/-- What an operation signs. -/
def content : Stage → Bytes → Bytes
  | boot, buffer => Image.align buffer
  | ota, buffer => buffer

/-- The buffers that an operation can be applied to. -/
def Admits : Stage → Bytes → Prop
  | boot, _ => True
  | ota, buffer => buffer.length % 4096 = 0 ∧ buffer.length ≠ 0

/-- Apply an operation to a buffer. -/
def sign {m : Type → Type} [Monad m] {σ : Type} (stage : Stage) (buffer : Bytes) (key : KeyRecord)
    (signer : Signer m σ) : m (Except (Fault σ) Bytes) :=
  match stage with
  | boot => Except.map BootImage.toBytes <$> BootImage.sign buffer key signer
  | ota => Except.map OtaImage.toBytes <$> OtaImage.sign buffer key signer

/-- Undo an operation: what was signed, and the block behind it. -/
def undo : Stage → Bytes → Checked (Bytes × SignatureBlock)
  | boot, buffer => do
    let image ← BootImage.ofBytes buffer
    let block ← SignatureBlock.parse image.blockOctets.toBytes
    return (image.payload, block)
  | ota, buffer => do
    let image ← OtaImage.ofBytes buffer
    let block ← SignatureBlock.parse image.blockOctets.toBytes
    return (image.body, block)

/-- The block that an operation makes of the signer's signature. -/
def block (stage : Stage) (buffer : Bytes) (key : KeyRecord) (signature : Signature) :
    SignatureBlock :=
  SignatureBlock.pack (Sha256.digest (stage.content buffer)) key signature

/-- The buffer with the block behind it. -/
def wrap (stage : Stage) (buffer : Bytes) (key : KeyRecord) (signature : Signature) : Bytes :=
  let block := stage.block buffer key signature
  match stage with
  | boot => Image.align buffer ++ block.toBytes ++ BootImage.sectorFill
  | ota => buffer ++ (Sha256.digest block.toBytes).toBytes ++ block.toBytes

/-- By how much the content grows. -/
def overhead : Stage → Nat
  | boot => Layout.sectorLength
  | ota => Layout.otaRecordLength

def artifact : Stage → Artifact
  | boot => .bootImage
  | ota => .otaImage

/-! ### Success -/

theorem map_ofAnswer {σ Signed Signed' : Type} (f : Signed → Signed') (artifact : Artifact)
    (assembled : Signature → Signed) (answer : Except σ Signature) :
    Except.map f (ofAnswer artifact assembled answer) =
      ofAnswer artifact (fun signature => f (assembled signature)) answer := by
  cases answer with
  | ok signature => rfl
  | error failure => rfl

theorem whole_of_admits {buffer : Bytes} (h : ota.Admits buffer) :
    buffer.length % Layout.sectorLength = 0 ∧ Layout.sectorLength ≤ buffer.length := by
  -- A boot-signed image is nothing but a number of whole sectors.
  rcases BootImage.exists_toBytes_eq h with ⟨image, rfl⟩
  exact image.length_toBytes

theorem sign_eq_map {m : Type → Type} [Monad m] [LawfulMonad m] {σ : Type} {stage : Stage}
    {buffer : Bytes} (h : stage.Admits buffer) (key : KeyRecord) (signer : Signer m σ) :
    stage.sign buffer key signer =
      ofAnswer stage.artifact (stage.wrap buffer key) <$>
        signer (Sha256.digest (stage.content buffer)) := by
  cases stage with
  | boot =>
      unfold sign
      rw [BootImage.sign_eq_map, ← comp_map]
      exact congrArg (· <$> _) (funext fun answer => map_ofAnswer _ _ _ answer)
  | ota =>
      unfold sign
      rw [OtaImage.sign_eq_map (whole_of_admits h), ← comp_map]
      exact congrArg (· <$> _) (funext fun answer => map_ofAnswer _ _ _ answer)

section Run

variable {World σ : Type} {stage : Stage} {buffer : Bytes} {signer : Signer (StateM World) σ}
  {world world' : World} {signature : Signature}

theorem run_sign (h : stage.Admits buffer) (key : KeyRecord)
    (hanswer : (signer (Sha256.digest (stage.content buffer))).run world =
      (.ok signature, world')) :
    (stage.sign buffer key signer).run world =
      (.ok (stage.wrap buffer key signature), world') := by
  rw [sign_eq_map h, StateT.run_map, hanswer]
  rfl

theorem run_sign_of_not_admits (h : ¬stage.Admits buffer) (key : KeyRecord) :
    (stage.sign buffer key signer).run world =
      (.error ⟨some .bootImage, .imageLength buffer.length 0⟩, world) := by
  cases stage with
  | boot => exact absurd trivial h
  | ota =>
      unfold sign
      rw [OtaImage.sign_of_length h]
      rfl

/-- An operation has succeeded only on a buffer that it can be applied to, and with a signature from
its signer. -/
theorem exists_of_run_sign {key : KeyRecord} {bytes : Bytes}
    (h : (stage.sign buffer key signer).run world = (.ok bytes, world')) :
    stage.Admits buffer ∧ ∃ signature,
      (signer (Sha256.digest (stage.content buffer))).run world = (.ok signature, world') ∧
        bytes = stage.wrap buffer key signature := by
  by_cases hadmits : stage.Admits buffer
  · refine ⟨hadmits, ?_⟩
    rw [sign_eq_map hadmits, StateT.run_map] at h
    rcases hanswer : (signer (Sha256.digest (stage.content buffer))).run world with
      ⟨answer, after⟩
    rw [hanswer] at h
    cases answer with
    | ok signature =>
        cases h
        exact ⟨signature, rfl, rfl⟩
    | error failure => cases h
  · rw [run_sign_of_not_admits hadmits] at h
    cases h

end Run

/-! ### Undoing -/

section Wrap

variable (buffer : Bytes) (key : KeyRecord) (signature : Signature)

theorem exists_wrap_boot :
    ∃ image : BootImage, image.toBytes = boot.wrap buffer key signature ∧
      image.payload = boot.content buffer ∧ image.block = boot.block buffer key signature :=
  BootImage.exists_framed (Image.length_align_mod buffer) (boot.block buffer key signature)
    (Image.length_fill 2880)

theorem exists_wrap_ota (h : ota.Admits buffer) :
    ∃ image : OtaImage, image.toBytes = ota.wrap buffer key signature ∧
      image.body = ota.content buffer ∧ image.block = ota.block buffer key signature := by
  rcases OtaImage.exists_framed h (ota.block buffer key signature) with
    ⟨image, hbytes, hbody, hblock, -⟩
  exact ⟨image, hbytes, hbody, hblock⟩

theorem undo_wrap {stage : Stage} (h : stage.Admits buffer) :
    stage.undo (stage.wrap buffer key signature) =
      .ok (stage.content buffer, stage.block buffer key signature) := by
  cases stage with
  | boot =>
      rcases exists_wrap_boot buffer key signature with ⟨image, hbytes, hpayload, hblock⟩
      rw [← hbytes, undo, BootImage.ofBytes_toBytes, ok_bind, SignatureBlock.parse_toBytes, ok_bind,
        ← hpayload, ← hblock]
      rfl
  | ota =>
      rcases exists_wrap_ota buffer key signature h with ⟨image, hbytes, hbody, hblock⟩
      rw [← hbytes, undo, OtaImage.ofBytes_toBytes, ok_bind, SignatureBlock.parse_toBytes, ok_bind,
        ← hbody, ← hblock]
      rfl

theorem length_wrap (stage : Stage) :
    (stage.wrap buffer key signature).length =
      (stage.content buffer).length + stage.overhead := by
  cases stage with
  | boot =>
      unfold wrap BootImage.sectorFill
      rw [List.length_append, List.length_append, SignatureBlock.length_toBytes,
        Image.length_fill, Nat.add_assoc]
      rfl
  | ota =>
      unfold wrap
      rw [List.length_append, List.length_append, SignatureBlock.length_toBytes,
        Octets.length_toBytes, Nat.add_assoc]
      rfl

theorem admits_boot : boot.Admits buffer := trivial

theorem admits_wrap_boot : ota.Admits (boot.wrap buffer key signature) := by
  have hwhole : (Image.align buffer).length % 4096 = 0 := Image.length_align_mod buffer
  have hlength : (boot.wrap buffer key signature).length = (Image.align buffer).length + 4096 :=
    length_wrap buffer key signature boot
  exact ⟨by omega, by omega⟩

theorem length_wrap_ota (h : ota.Admits buffer) :
    (ota.wrap buffer key signature).length % 4096 = 1248 := by
  rw [length_wrap, Nat.add_mod, content, h.1]
  rfl

/-- An OTA layer is padded to a sector of its own. -/
theorem length_align_wrap_ota (h : ota.Admits buffer) :
    (Image.align (ota.wrap buffer key signature)).length = buffer.length + 4096 := by
  unfold Image.align
  rw [List.length_append, Image.length_fill, Image.paddingLength,
    length_wrap_ota buffer key signature h, length_wrap, content, Nat.add_assoc]
  rfl

end Wrap

theorem undo_ota_of_whole {buffer : Bytes} (h : buffer.length % 4096 = 0) :
    ota.undo buffer = .error ⟨some .otaImage, .imageLength buffer.length 1248⟩ := by
  have hlength : ¬(buffer.length % Layout.sectorLength = Layout.otaRecordLength ∧
      Layout.sectorLength ≤ buffer.length) := by
    rintro ⟨hmod, -⟩
    rw [h] at hmod
    cases hmod
  rw [undo, OtaImage.ofBytes, dif_neg hlength]
  rfl

end Stage

/-! ## Runs -/

/-- An operation that has succeeded, with what it was applied to, what its signer answered and what
it made. -/
structure Layer where
  stage : Stage
  key : KeyRecord
  signature : Signature
  before : Bytes
  after : Bytes

/-- What an operation makes of a buffer. -/
def Stage.layer (stage : Stage) (buffer : Bytes) (key : KeyRecord) (signature : Signature) :
    Layer :=
  ⟨stage, key, signature, buffer, stage.wrap buffer key signature⟩

namespace Layer

/-- A signer that acts on some world has answered, and the operation has made something of it. -/
def Performed (layer : Layer) : Prop :=
  ∃ (World σ : Type) (signer : Signer (StateM World) σ) (world world' : World),
    (signer (Sha256.digest (layer.stage.content layer.before))).run world =
      (.ok layer.signature, world') ∧
    (layer.stage.sign layer.before layer.key signer).run world = (.ok layer.after, world')

/-- What was signed, and the block of its digest, the key and the signature. -/
def opened (layer : Layer) : Bytes × SignatureBlock :=
  let content := layer.stage.content layer.before
  (content, SignatureBlock.pack (Sha256.digest content) layer.key layer.signature)

theorem Performed.admits {layer : Layer} (h : layer.Performed) :
    layer.stage.Admits layer.before := by
  rcases h with ⟨World, σ, signer, world, world', -, hsign⟩
  by_contra hadmits
  rw [Stage.run_sign_of_not_admits hadmits] at hsign
  cases hsign

theorem Performed.after_eq {layer : Layer} (h : layer.Performed) :
    layer.after = layer.stage.wrap layer.before layer.key layer.signature := by
  have hadmits := h.admits
  rcases h with ⟨World, σ, signer, world, world', hanswer, hsign⟩
  rw [Stage.run_sign hadmits layer.key hanswer] at hsign
  exact (Except.ok.inj (congrArg Prod.fst hsign)).symm

theorem Performed.undo_after {layer : Layer} (h : layer.Performed) :
    layer.stage.undo layer.after = .ok layer.opened := by
  rw [h.after_eq]
  exact Stage.undo_wrap layer.before layer.key layer.signature h.admits

theorem performed_layer {stage : Stage} {buffer : Bytes} (h : stage.Admits buffer)
    (key : KeyRecord) (signature : Signature) : (stage.layer buffer key signature).Performed :=
  ⟨Unit, Empty, Signer.presigned signature, (), (), rfl, Stage.run_sign h key rfl⟩

end Layer

/-- The operations that have been applied to an image, latest first, and the buffer that they have
made of it. -/
inductive Run (image : Bytes) : List Layer → Bytes → Prop where
  | start : Run image [] image
  | next {layers : List Layer} {layer : Layer} (run : Run image layers layer.before)
      (performed : layer.Performed) : Run image (layer :: layers) layer.after

namespace Run

variable {image final : Bytes} {layers above below : List Layer} {layer : Layer}

theorem performed (run : Run image layers final) : ∀ layer ∈ layers, layer.Performed := by
  induction run with
  | start =>
      intro layer hlayer
      cases hlayer
  | next run hperformed ih =>
      intro other hother
      rcases List.mem_cons.1 hother with rfl | hother
      · exact hperformed
      · exact ih other hother

theorem latest (run : Run image (layer :: below) final) :
    layer.stage.Admits layer.before ∧
      final = layer.stage.wrap layer.before layer.key layer.signature := by
  cases run with
  | next run hperformed => exact ⟨hperformed.admits, hperformed.after_eq⟩

/-- The latest operations of a run are a run of their own. -/
theorem exists_latest (run : Run image (above ++ below) final) :
    ∃ middle, Run middle above final := by
  induction above generalizing final with
  | nil => exact ⟨final, start⟩
  | cons layer above ih =>
      rw [List.cons_append] at run
      cases run with
      | next run hperformed =>
          rcases ih run with ⟨middle, hrun⟩
          exact ⟨middle, hrun.next hperformed⟩

theorem apply (run : Run image layers final) {stage : Stage} (h : stage.Admits final)
    (key : KeyRecord) (signature : Signature) :
    Run image (stage.layer final key signature :: layers) (stage.layer final key signature).after :=
  next run (Layer.performed_layer h key signature)

/-! ### The layer on top -/

theorem length_of_boot_on_top (run : Run image (layer :: below) final)
    (h : layer.stage = .boot) : final.length % 4096 = 0 := by
  rcases run.latest with ⟨-, rfl⟩
  rw [h]
  exact (Stage.admits_wrap_boot layer.before layer.key layer.signature).1

theorem length_of_ota_on_top (run : Run image (layer :: below) final)
    (h : layer.stage = .ota) : final.length % 4096 = 1248 := by
  rcases run.latest with ⟨hadmits, rfl⟩
  rw [h] at hadmits ⊢
  exact Stage.length_wrap_ota layer.before layer.key layer.signature hadmits

theorem length_align_of_ota_on_top (run : Run image (layer :: below) final)
    (h : layer.stage = .ota) : (Image.align final).length = layer.before.length + 4096 := by
  rcases run.latest with ⟨hadmits, rfl⟩
  rw [h] at hadmits ⊢
  exact Stage.length_align_wrap_ota layer.before layer.key layer.signature hadmits

/-- An OTA layer never lies on an OTA layer. -/
theorem not_ota_over_ota (run : Run image layers final) :
    ¬[Stage.ota, Stage.ota] <:+: layers.map Layer.stage := by
  induction run with
  | start => simp
  | @next layers layer run hperformed ih =>
      intro hinfix
      rcases List.infix_cons_iff.1 hinfix with hprefix | hinfix
      · rcases List.cons_prefix_cons.1 hprefix with ⟨hupper, hrest⟩
        have hadmits := hperformed.admits
        rw [← hupper] at hadmits
        -- What lies below has a length that the operation above does not admit.
        cases layers with
        | nil => cases List.prefix_nil.1 hrest
        | cons lower below =>
            have hlower := (List.cons_prefix_cons.1 hrest).1
            have hlength := run.length_of_ota_on_top hlower.symm
            rw [hadmits.1] at hlength
            cases hlength
      · exact ih hinfix

end Run

/-! ### Taking the layers off -/

/-- Undo operations, latest first, each on what the one before has given back. -/
def unwind : List Stage → Bytes → Checked (List (Bytes × SignatureBlock))
  | [], _ => .ok []
  | stage :: stages, buffer => do
    let opened ← stage.undo buffer
    let rest ← unwind stages opened.1
    return opened :: rest

theorem unwind_cons_of_undo {stage : Stage} {stages : List Stage} {buffer : Bytes}
    {opened : Bytes × SignatureBlock} (h : stage.undo buffer = .ok opened) :
    unwind (stage :: stages) buffer = (unwind stages opened.1).map (opened :: ·) := by
  rw [unwind, h, ok_bind]
  cases unwind stages opened.1 with
  | ok rest => rfl
  | error fault => rfl

theorem unwind_ota_of_whole {stages : List Stage} {buffer : Bytes}
    (h : buffer.length % 4096 = 0) :
    unwind (.ota :: stages) buffer =
      .error ⟨some .otaImage, .imageLength buffer.length 1248⟩ := by
  rw [unwind, Stage.undo_ota_of_whole h]
  rfl

namespace Run

variable {image final : Bytes} {layers below : List Layer} {layer : Layer}

/-- Padding matters only to an OTA layer, as everything else is whole sectors. -/
theorem unwind_content (run : Run image layers final) {stage : Stage}
    (h : ¬[Stage.boot, Stage.ota] <+: stage :: layers.map Layer.stage) :
    unwind (layers.map Layer.stage) (stage.content final) =
      unwind (layers.map Layer.stage) final := by
  cases stage with
  | ota => rfl
  | boot =>
      -- The image itself may need padding, but there is nothing left to be undone.
      cases layers with
      | nil => rfl
      | cons lower below =>
          cases hlower : lower.stage with
          | boot =>
              rw [Stage.content, Image.align_of_whole (run.length_of_boot_on_top hlower)]
          | ota =>
              rw [List.map_cons, hlower] at h
              exact absurd (List.prefix_append [Stage.boot, Stage.ota] _) h

/-- With no boot layer on an OTA layer, each operation gives back what it signed. -/
theorem unwind_eq (run : Run image layers final)
    (h : ¬[Stage.boot, Stage.ota] <:+: layers.map Layer.stage) :
    unwind (layers.map Layer.stage) final = .ok (layers.map Layer.opened) := by
  induction run with
  | start => rfl
  | @next layers layer run hperformed ih =>
      rw [List.map_cons, List.infix_cons_iff, not_or] at h
      have hrest : unwind (layers.map Layer.stage) layer.opened.1 =
          .ok (layers.map Layer.opened) :=
        (run.unwind_content h.1).trans (ih h.2)
      rw [List.map_cons, unwind_cons_of_undo hperformed.undo_after, hrest]
      rfl

/-- Below a boot layer on an OTA layer, whole sectors are left, padding included, and they are not
taken for an OTA-signed image. -/
theorem unwind_of_boot_over_ota (run : Run image layers final)
    (h : [Stage.boot, Stage.ota] <:+: layers.map Layer.stage) :
    ∃ lower ∈ layers, lower.stage = .ota ∧
      unwind (layers.map Layer.stage) final =
        .error ⟨some .otaImage, .imageLength (lower.before.length + 4096) 1248⟩ := by
  induction run with
  | start => cases List.infix_nil.1 h
  | @next layers layer run hperformed ih =>
      rw [List.map_cons, unwind_cons_of_undo hperformed.undo_after]
      by_cases hprefix : [Stage.boot, Stage.ota] <+: layer.stage :: layers.map Layer.stage
      -- The layer on top is the boot layer: what it gives back is the padded OTA layer.
      · rcases List.cons_prefix_cons.1 hprefix with ⟨hboot, hrest⟩
        cases layers with
        | nil => cases List.prefix_nil.1 hrest
        | cons lower below =>
            have hlower := (List.cons_prefix_cons.1 hrest).1
            refine ⟨lower, List.mem_cons_of_mem layer List.mem_cons_self, hlower.symm, ?_⟩
            have hcontent : layer.opened.1 = Image.align layer.before := by
              rw [Layer.opened, ← hboot]
              rfl
            rw [hcontent, List.map_cons, ← hlower,
              unwind_ota_of_whole (Image.length_align_mod layer.before),
              run.length_align_of_ota_on_top hlower.symm]
            rfl
      -- The boot layer lies further down, and the one on top comes off as it should.
      · have hinfix := (List.infix_cons_iff.1 h).resolve_left hprefix
        rcases ih hinfix with ⟨lower, hlower, hstage, hrest⟩
        refine ⟨lower, List.mem_cons_of_mem layer hlower, hstage, ?_⟩
        have hcontent : unwind (layers.map Layer.stage) layer.opened.1 =
            unwind (layers.map Layer.stage) layer.before := run.unwind_content hprefix
        rw [hcontent, hrest]
        rfl

end Run

/-! ## Three layers on an empty image -/

/-- A boot layer with a key and a signature of zeros. -/
def bootLayer : Layer :=
  Stage.boot.layer [] KeyRecord.blank (Octets.fill 384 0)

def otaLayer : Layer :=
  Stage.ota.layer bootLayer.after KeyRecord.blank (Octets.fill 384 0)

/-- Another boot layer, on the OTA layer. -/
def outerLayer : Layer :=
  Stage.boot.layer otaLayer.after KeyRecord.blank (Octets.fill 384 0)

theorem run_otaLayer : Run [] [otaLayer, bootLayer] otaLayer.after :=
  (Run.start.apply (Stage.admits_boot _) _ _).apply (Stage.admits_wrap_boot _ _ _) _ _

theorem run_outerLayer : Run [] [outerLayer, otaLayer, bootLayer] outerLayer.after :=
  run_otaLayer.apply (Stage.admits_boot _) _ _

/-! ## Both directions -/

/-- Which operations succeed is decided by the length of the buffer, and each is undone by itself.
So many of the latest ones are undone one after the other as there is no boot layer on an OTA layer
among them. -/
theorem layers_unwind :
    (∀ (World σ : Type) (stage : Stage) (buffer : Bytes) (key : KeyRecord)
        (signer : Signer (StateM World) σ) (signature : Signature) (world world' : World),
      (signer (Sha256.digest (stage.content buffer))).run world = (.ok signature, world') →
      ((∃ after, ((stage.sign buffer key signer).run world).1 = .ok after) ↔
        stage.Admits buffer)) ∧
    ∀ (image : Bytes) (above below : List Layer) (final : Bytes),
      Run image (above ++ below) final →
      (¬[Stage.ota, Stage.ota] <:+: (above ++ below).map Layer.stage) ∧
      (∀ layer ∈ above ++ below, layer.stage.undo layer.after = .ok layer.opened) ∧
      (¬[Stage.boot, Stage.ota] <:+: above.map Layer.stage →
        unwind (above.map Layer.stage) final = .ok (above.map Layer.opened)) ∧
      ([Stage.boot, Stage.ota] <:+: above.map Layer.stage →
        ∃ lower ∈ above, lower.stage = .ota ∧
          unwind (above.map Layer.stage) final =
            .error ⟨some .otaImage, .imageLength (lower.before.length + 4096) 1248⟩) := by
  refine ⟨?_, ?_⟩
  · intro World σ stage buffer key signer signature world world' hanswer
    constructor
    · rintro ⟨after, hafter⟩
      by_contra hadmits
      rw [Stage.run_sign_of_not_admits hadmits] at hafter
      cases hafter
    · intro hadmits
      rw [Stage.run_sign hadmits key hanswer]
      exact ⟨_, rfl⟩
  · intro image above below final run
    rcases run.exists_latest with ⟨middle, hlatest⟩
    refine ⟨run.not_ota_over_ota, ?_, hlatest.unwind_eq, hlatest.unwind_of_boot_over_ota⟩
    intro layer hlayer
    exact (run.performed layer hlayer).undo_after

/-- Two layers come off in turn; under a third one, the second is not found again. -/
theorem layers_unwind_blankKey :
    (∃ after, ((Stage.ota.sign bootLayer.after KeyRecord.blank
        (Signer.presigned (Octets.fill 384 0) : Signer (StateM Unit) Empty)).run ()).1 =
      .ok after) ∧
    unwind [.ota, .boot] otaLayer.after = .ok [otaLayer.opened, bootLayer.opened] ∧
    ∃ lower ∈ [outerLayer, otaLayer, bootLayer],
      unwind [.boot, .ota, .boot] outerLayer.after =
        .error ⟨some .otaImage, .imageLength (lower.before.length + 4096) 1248⟩ := by
  rcases layers_unwind with ⟨hsucceeds, hruns⟩
  refine ⟨?_, ?_, ?_⟩
  · exact (hsucceeds Unit Empty .ota bootLayer.after KeyRecord.blank _ (Octets.fill 384 0) () ()
      rfl).2 (Stage.admits_wrap_boot _ _ _)
  · exact (hruns [] [otaLayer, bootLayer] [] _ run_otaLayer).2.2.1 (by decide)
  · rcases (hruns [] [outerLayer, otaLayer, bootLayer] [] _ run_outerLayer).2.2.2 (by decide) with
      ⟨lower, hlower, -, herror⟩
    exact ⟨lower, hlower, herror⟩

/-- Undoing three operations in turn fails at the second. -/
theorem unwind_boot_over_ota :
    Run [] [outerLayer, otaLayer, bootLayer] outerLayer.after ∧
      unwind [.boot, .ota, .boot] outerLayer.after =
        .error ⟨some .otaImage, .imageLength 8192 1248⟩ := by
  refine ⟨run_outerLayer, ?_⟩
  rcases run_outerLayer.unwind_of_boot_over_ota (by decide) with ⟨lower, hlower, hstage, herror⟩
  have hlength : otaLayer.before.length = 4096 :=
    Stage.length_wrap [] KeyRecord.blank (Octets.fill 384 0) .boot
  -- Only one of the three is an OTA layer.
  rcases List.mem_cons.1 hlower with rfl | hlower
  · cases hstage
  rcases List.mem_cons.1 hlower with rfl | hlower
  · rw [hlength] at herror
    exact herror
  · cases List.mem_singleton.1 hlower
    cases hstage

end SecureBoot
