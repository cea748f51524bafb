import SecureBoot.Fault

/-!
# Checks — lists of checks and the first fault they find

A procedure that makes one check after the other stops at the first that fails.  `firstFault` is the
fault that such a list finds and `outcome` what the procedure gives; `outcome_bind` and
`mapError_outcome` put longer procedures together.
-/

namespace SecureBoot

/-! ## Checks -/

/-- What a check finds: a fault, unless its condition holds. -/
def faultUnless (condition : Prop) [Decidable condition] (fault : Fault Empty) :
    Option (Fault Empty) :=
  if condition then none else some fault

/-- The fault that the first failing check of a list finds. -/
def firstFault (found : List (Option (Fault Empty))) : Option (Fault Empty) :=
  found.findSome? id

/-- The outcome of a list of checks on something that is given back if all of them pass. -/
def outcome {α : Type} (found : List (Option (Fault Empty))) (value : α) : Checked α :=
  (firstFault found).elim (.ok value) .error

theorem faultUnless_eq_none_iff {condition : Prop} [Decidable condition] {fault : Fault Empty} :
    faultUnless condition fault = none ↔ condition := by
  unfold faultUnless
  by_cases h : condition
  · simp [h]
  · simp [h]

theorem map_faultUnless (f : Fault Empty → Fault Empty) (condition : Prop) [Decidable condition]
    (fault : Fault Empty) :
    (faultUnless condition fault).map f = faultUnless condition (f fault) := by
  unfold faultUnless
  split
  · rfl
  · rfl

theorem firstFault_eq_none_iff {found : List (Option (Fault Empty))} :
    firstFault found = none ↔ ∀ result ∈ found, result = none :=
  List.findSome?_eq_none_iff

theorem eq_of_faultUnless {condition : Prop} [Decidable condition] {fault found : Fault Empty}
    (h : faultUnless condition fault = some found) : found = fault := by
  unfold faultUnless at h
  by_cases hcondition : condition
  · simp [hcondition] at h
  · simp [hcondition] at h
    exact h.symm

theorem firstFault_append_eq_none_iff {first later : List (Option (Fault Empty))} :
    firstFault (first ++ later) = none ↔ firstFault first = none ∧ firstFault later = none := by
  rw [firstFault_eq_none_iff, firstFault_eq_none_iff, firstFault_eq_none_iff,
    List.forall_mem_append]

theorem firstFault_append_of_none {first : List (Option (Fault Empty))}
    (h : firstFault first = none) (later : List (Option (Fault Empty))) :
    firstFault (first ++ later) = firstFault later := by
  have hfirst : first.findSome? id = none := h
  rw [firstFault, List.findSome?_append, hfirst]
  rfl

theorem firstFault_append_of_some {first : List (Option (Fault Empty))} {fault : Fault Empty}
    (h : firstFault first = some fault) (later : List (Option (Fault Empty))) :
    firstFault (first ++ later) = some fault := by
  have hfirst : first.findSome? id = some fault := h
  rw [firstFault, List.findSome?_append, hfirst]
  rfl

theorem mem_of_firstFault {found : List (Option (Fault Empty))} {fault : Fault Empty}
    (h : firstFault found = some fault) : some fault ∈ found := by
  rcases List.exists_of_findSome?_eq_some h with ⟨result, hmem, hresult⟩
  have heq : result = some fault := hresult
  rwa [heq] at hmem

/-! ## Outcomes -/

section Outcome

variable {α β : Type}

@[simp] theorem firstFault_none_cons (found : List (Option (Fault Empty))) :
    firstFault (none :: found) = firstFault found := rfl

@[simp] theorem outcome_none_cons (found : List (Option (Fault Empty))) (value : α) :
    outcome (none :: found) value = outcome found value := rfl

@[simp] theorem outcome_some_cons (fault : Fault Empty) (found : List (Option (Fault Empty)))
    (value : α) : outcome (some fault :: found) value = .error fault := rfl

theorem outcome_eq_ok_iff {found : List (Option (Fault Empty))} {value result : α} :
    outcome found value = .ok result ↔ firstFault found = none ∧ value = result := by
  unfold outcome
  cases firstFault found with
  | none => simp
  | some fault => simp

theorem outcome_eq_error_iff {found : List (Option (Fault Empty))} {value : α}
    {fault : Fault Empty} : outcome found value = .error fault ↔ firstFault found = some fault := by
  unfold outcome
  cases firstFault found with
  | none => simp
  | some other => simp

/-- Checks after checks are the checks of both lists. -/
theorem outcome_bind (found : List (Option (Fault Empty))) (value : α)
    (next : α → List (Option (Fault Empty))) (result : α → β) :
    (outcome found value >>= fun a => outcome (next a) (result a)) =
      outcome (found ++ next value) (result value) := by
  -- Only the first fault of the earlier checks keeps the later ones from being made.
  induction found with
  | nil => rfl
  | cons first found ih =>
      cases first with
      | none => exact ih
      | some fault => rfl

theorem mapError_outcome (f : Fault Empty → Fault Empty) (found : List (Option (Fault Empty)))
    (value : α) : (outcome found value).mapError f = outcome (found.map (Option.map f)) value := by
  induction found with
  | nil => rfl
  | cons first found ih =>
      cases first with
      | none => exact ih
      | some fault => rfl

theorem ok_bind (a : α) (next : α → Checked β) : (Except.ok a >>= next) = next a := rfl

theorem mapError_bind (f : Fault Empty → Fault Empty) (x : Checked α) (next : α → Checked β) :
    (x >>= next).mapError f = x.mapError f >>= fun a => (next a).mapError f := by
  cases x with
  | ok a => rfl
  | error fault => rfl

end Outcome

end SecureBoot
