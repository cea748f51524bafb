import SecureBoot.Fault

/-!
# Attribution — what becomes of a fault on its way to the caller

A fault passes through several hands.  Each may attribute it to an artifact or change the signer's
failure into another one, in any order; a `Handling` is such a sequence, and `Handling.run` what it
does to a fault.

* `Handling.artifact_run`: the first attribution counts, the fault's own before all others.
* `Handling.split_run`: a check keeps what it has found, and a signer's failure goes through the
  functions in their order.
* `Handling.run_congr`: nothing else of a sequence matters, neither its later attributions nor where
  they stand between the functions.
* `attribution_laws`: all of this in one statement, and what follows for single operations.
-/

namespace SecureBoot

variable {σ τ υ : Type}

/-! ## Reasons -/

namespace Reason

/-- A reason taken apart: a check with what it has found, or a failure of the signer. -/
def split : Reason σ → Reason Empty ⊕ σ
  | blockLength length => .inl (blockLength length)
  | magic found => .inl (magic found)
  | version found => .inl (version found)
  | crc stored computed => .inl (crc stored computed)
  | blockHash => .inl blockHash
  | digest => .inl digest
  | signature => .inl signature
  | imageLength length remainder => .inl (imageLength length remainder)
  | signatureLength length => .inl (signatureLength length)
  | key fault => .inl (key fault)
  | signer failure => .inr failure

/-- A reason put together from its parts. -/
def join : Reason Empty ⊕ σ → Reason σ
  | .inl check => check.map Empty.elim
  | .inr failure => signer failure

theorem join_split (reason : Reason σ) : join reason.split = reason := by
  cases reason <;> rfl

/-- Nothing is lost when a reason is taken apart. -/
theorem split_injective : Function.Injective (split : Reason σ → Reason Empty ⊕ σ) := by
  intro reason other h
  rw [← join_split reason, h, join_split]

theorem split_map (f : σ → τ) (reason : Reason σ) :
    (reason.map f).split = reason.split.map id f := by
  cases reason <;> rfl

theorem kind_map (f : σ → τ) (reason : Reason σ) : (reason.map f).kind = reason.kind := by
  cases reason <;> rfl

end Reason

namespace Fault

theorem artifact_on (artifact : Artifact) (fault : Fault σ) :
    (fault.on artifact).artifact = fault.artifact.or (some artifact) := by
  rw [on]
  cases fault.artifact <;> rfl

/-- A fault is its artifact and the parts of its reason. -/
theorem eq_of_split {fault other : Fault σ} (hartifact : fault.artifact = other.artifact)
    (hsplit : fault.reason.split = other.reason.split) : fault = other := by
  cases fault
  cases other
  exact congr (congrArg mk hartifact) (Reason.split_injective hsplit)

end Fault

/-! ## Sequences of operations -/

/-- Attributions and changes of the signer's failure, one after the other. -/
inductive Handling : Type → Type → Type 1 where
  | done {σ : Type} : Handling σ σ
  | on {σ τ : Type} (artifact : Artifact) (later : Handling σ τ) : Handling σ τ
  | map {σ τ υ : Type} (f : σ → τ) (later : Handling τ υ) : Handling σ υ

namespace Handling

/-- What the operations do to a fault. -/
def run {σ τ : Type} : Handling σ τ → Fault σ → Fault τ
  | done, fault => fault
  | on artifact later, fault => later.run (fault.on artifact)
  | map f later, fault => later.run (fault.map f)

/-- The artifacts to which the operations attribute a fault, in their order. -/
def artifacts {σ τ : Type} : Handling σ τ → List Artifact
  | done => []
  | on artifact later => artifact :: later.artifacts
  | map _ later => later.artifacts

/-- The functions of the operations, composed in their order. -/
def function {σ τ : Type} : Handling σ τ → σ → τ
  | done => id
  | on _ later => later.function
  | map f later => later.function ∘ f

theorem artifact_run (handling : Handling σ τ) (fault : Fault σ) :
    (handling.run fault).artifact = fault.artifact.or handling.artifacts.head? := by
  induction handling with
  | done => exact (Option.or_none).symm
  | on artifact later ih =>
      -- The fault has an artifact from here on, so the later ones do not count.
      calc
        (later.run (fault.on artifact)).artifact
            = (fault.artifact.or (some artifact)).or later.artifacts.head? := by
              rw [ih, Fault.artifact_on]
        _ = fault.artifact.or (some artifact) := by
              rw [Option.or_assoc, Option.some_or]
  | map f later ih => exact ih (fault.map f)

theorem split_run (handling : Handling σ τ) (fault : Fault σ) :
    (handling.run fault).reason.split = fault.reason.split.map id handling.function := by
  induction handling with
  | done => rw [function, Sum.map_id_id, run, id]
  | on artifact later ih => exact ih (fault.on artifact)
  | map f later ih =>
      calc
        (later.run (fault.map f)).reason.split
            = (fault.reason.split.map id f).map id later.function := by
              rw [ih, Fault.map, Reason.split_map]
        _ = fault.reason.split.map id (later.function ∘ f) := by
              rw [Sum.map_map]
              rfl

theorem kind_run (handling : Handling σ τ) (fault : Fault σ) :
    (handling.run fault).kind = fault.kind := by
  induction handling with
  | done => rfl
  | on artifact later ih => exact ih (fault.on artifact)
  | map f later ih => exact (ih (fault.map f)).trans (fault.reason.kind_map f)

/-- Sequences with the same first artifact and the same function do the same to every fault. -/
theorem run_congr (handling other : Handling σ τ)
    (hartifacts : handling.artifacts.head? = other.artifacts.head?)
    (hfunction : handling.function = other.function) (fault : Fault σ) :
    handling.run fault = other.run fault := by
  refine Fault.eq_of_split ?_ ?_
  · rw [artifact_run, artifact_run, hartifacts]
  · rw [split_run, split_run, hfunction]

/-- The fault of a key stays as it is, whatever else happens on the way. -/
theorem run_ofKey (handling : Handling σ τ) (keyFault : KeyFault) :
    handling.run (Fault.ofKey keyFault) = Fault.ofKey keyFault := by
  refine Fault.eq_of_split ?_ ?_
  · rw [artifact_run]
    rfl
  · rw [split_run]
    rfl

end Handling

/-! ## Single operations -/

namespace Fault

theorem map_id (fault : Fault σ) : fault.map id = fault :=
  Handling.run_congr (.map id .done) .done rfl rfl fault

theorem map_map (f : σ → τ) (g : τ → υ) (fault : Fault σ) :
    (fault.map f).map g = fault.map (g ∘ f) :=
  Handling.run_congr (.map f (.map g .done)) (.map (g ∘ f) .done) rfl rfl fault

theorem map_on (f : σ → τ) (artifact : Artifact) (fault : Fault σ) :
    (fault.on artifact).map f = (fault.map f).on artifact :=
  Handling.run_congr (.on artifact (.map f .done)) (.map f (.on artifact .done)) rfl rfl fault

end Fault

/-- However often a fault is attributed and its signer's failure changed, in whatever order: it
has the artifact that it had, or else the first one given to it; its kind is the same; a check
keeps what it has found, and a signer's failure is changed by the composition of the functions.
So changing by the identity changes nothing, changing twice is changing once by the composition,
it does not matter whether a fault is attributed before or after, and the fault of a key stays one
of a key. -/
theorem attribution_laws (handling : Handling σ τ) (fault : Fault σ) :
    (handling.run fault).artifact = fault.artifact.or handling.artifacts.head? ∧
    (handling.run fault).kind = fault.kind ∧
    (handling.run fault).reason.split = fault.reason.split.map id handling.function ∧
    Function.Injective (Reason.split : Reason τ → Reason Empty ⊕ τ) ∧
    fault.map id = fault ∧
    (∀ (υ ω : Type) (f : σ → υ) (g : υ → ω), (fault.map f).map g = fault.map (g ∘ f)) ∧
    (∀ (υ : Type) (f : σ → υ) (artifact : Artifact),
      (fault.on artifact).map f = (fault.map f).on artifact) ∧
    ∀ keyFault : KeyFault, handling.run (Fault.ofKey keyFault) = Fault.ofKey keyFault :=
  ⟨handling.artifact_run fault, handling.kind_run fault, handling.split_run fault,
    Reason.split_injective, fault.map_id, fun _ _ f g => fault.map_map f g,
    fun _ f artifact => fault.map_on f artifact, handling.run_ofKey⟩

/-- Of two attributions the first counts, and the functions apply in the order of the sequence. -/
example : (Handling.on .bootImage (.map (· + 1) (.on .otaImage (.map (· * 2) .done)))).run
    (Fault.of (.signer 3)) = ⟨some .bootImage, .signer 8⟩ := rfl

end SecureBoot
