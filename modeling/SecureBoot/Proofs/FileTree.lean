import SecureBoot.Files.FileTree

/-!
# FileTree — what a file put in place changes

A file may be put in place under a path where no directory is (`canReplace_eq_ok_iff`).  This
changes no directory (`sameDirectories_put`), so that every path leads where it led before
(`SameDirectories.canReplace_iff`).  The path of the file then leads to it (`read_of_canReplace`),
and nothing is different at any other location (`get?_put_of_ne`).
-/

namespace SecureBoot.FileTree

variable {tree other : FileTree} {current location found : Location} {path : Path}

/-! ## Entries -/

theorem get?_root (tree : FileTree) : tree.get? [] = some .directory := by
  rw [get?, if_pos rfl]

theorem get?_put_self (tree : FileTree) {location : Location} (h : location ≠ [])
    (entry : Entry) : (tree.put location entry).get? location = some entry := by
  simp [get?, put, h]

theorem get?_put_of_ne (tree : FileTree) {location found : Location} (h : found ≠ location)
    (entry : Entry) : (tree.put location entry).get? found = tree.get? found := by
  have hfilter : (tree.entries.filter fun e => e.1 ≠ location).find? (fun e => e.1 = found) =
      tree.entries.find? fun e => e.1 = found := by
    rw [List.find?_filter]
    refine congrArg (List.find? · tree.entries) (funext fun e => ?_)
    by_cases he : e.1 = found
    · simp [he, h]
    · simp [he]
  have hne : ¬location = found := fun heq => h heq.symm
  by_cases hroot : found = []
  · rw [hroot, get?_root, get?_root]
  · unfold get? put
    rw [if_neg hroot, if_neg hroot, List.find?_cons_of_neg (by simp [hne])]
    exact congrArg (Option.map Prod.snd) hfilter

/-! ## Steps -/

/-- From a directory, one name of a path leads to the next location. -/
inductive Steps (tree : FileTree) (location : Location) : String → Location → Prop where
  | here : Steps tree location "." location
  | out : Steps tree location ".." location.dropLast
  | into {name : String} {entry : Entry} (ordinary : ¬(name = "." ∨ name = ".."))
      (not_too_long : ¬isTooLong name = true)
      (get?_eq : tree.get? (location ++ [name]) = some entry) :
      Steps tree location name (location ++ [name])

/-- A walk that gets somewhere starts at a directory, takes one step, and goes on. -/
theorem walk_cons_eq_ok_iff {name : String} {rest : List String} :
    tree.walk location (name :: rest) = .ok found ↔
      tree.get? location = some .directory ∧
        ∃ next, Steps tree location name next ∧ tree.walk next rest = .ok found := by
  constructor
  · intro h
    unfold walk at h
    cases hhere : tree.get? location with
    | none =>
        rw [hhere] at h
        cases h
    | some entry =>
        rw [hhere] at h
        cases entry with
        | file content => cases h
        | directory =>
            refine ⟨rfl, ?_⟩
            simp only at h
            by_cases hdot : name = "."
            · rw [if_pos hdot] at h
              exact ⟨location, hdot ▸ .here, h⟩
            by_cases hdots : name = ".."
            · rw [if_neg hdot, if_pos hdots] at h
              exact ⟨location.dropLast, hdots ▸ .out, h⟩
            by_cases hlong : isTooLong name = true
            · rw [if_neg hdot, if_neg hdots, if_pos hlong] at h
              cases h
            rw [if_neg hdot, if_neg hdots, if_neg hlong] at h
            cases hnext : tree.get? (location ++ [name]) with
            | none =>
                rw [hnext] at h
                cases h
            | some entry =>
                rw [hnext] at h
                exact ⟨_, .into (not_or.2 ⟨hdot, hdots⟩) hlong hnext, h⟩
  · rintro ⟨hhere, next, hstep, hrest⟩
    rw [walk, hhere]
    cases hstep with
    | here => exact hrest
    | out => exact hrest
    | into ordinary not_too_long get?_eq =>
        rw [not_or] at ordinary
        simp only [if_neg ordinary.1, if_neg ordinary.2, if_neg not_too_long, get?_eq]
        exact hrest

/-- A walk along names and more names is a walk after a walk. -/
theorem walk_append {names more : List String} {last : Location}
    (h : tree.walk location names = .ok found) (hmore : tree.walk found more = .ok last) :
    tree.walk location (names ++ more) = .ok last := by
  induction names generalizing location with
  | nil =>
      cases h
      exact hmore
  | cons name rest ih =>
      rcases walk_cons_eq_ok_iff.1 h with ⟨hhere, next, hstep, hrest⟩
      exact walk_cons_eq_ok_iff.2 ⟨hhere, next, hstep, ih hrest⟩

/-! ## Directories -/

/-- Two trees have the same directories. -/
def SameDirectories (tree other : FileTree) : Prop :=
  ∀ location, tree.get? location = some .directory ↔ other.get? location = some .directory

theorem SameDirectories.symm (h : SameDirectories tree other) : SameDirectories other tree :=
  fun location => (h location).symm

/-- A file in place of something that is not a directory leaves the directories as they are. -/
theorem sameDirectories_put (tree : FileTree) {location : Location}
    (h : tree.get? location ≠ some .directory) (content : Bytes) :
    SameDirectories tree (tree.put location (.file content)) := by
  intro found
  by_cases hfound : found = location
  · have hroot : location ≠ [] := by
      rintro rfl
      exact h tree.get?_root
    rw [hfound, get?_put_self tree hroot]
    exact ⟨fun hdirectory => absurd hdirectory h, nofun⟩
  · rw [get?_put_of_ne tree hfound]

/-- Whatever leads to a directory starts at one. -/
theorem directory_of_walk {names : List String} (h : tree.walk location names = .ok found)
    (hfound : tree.get? found = some .directory) : tree.get? location = some .directory := by
  cases names with
  | nil =>
      cases h
      exact hfound
  | cons name rest => exact (walk_cons_eq_ok_iff.1 h).1

/-- The names that lead to a directory lead to it wherever the directories are the same. -/
theorem SameDirectories.walk (h : SameDirectories tree other) {names : List String}
    (hwalk : tree.walk location names = .ok found) (hfound : tree.get? found = some .directory) :
    other.walk location names = .ok found := by
  induction names generalizing location with
  | nil => exact hwalk
  | cons name rest ih =>
      rcases walk_cons_eq_ok_iff.1 hwalk with ⟨hhere, next, hstep, hrest⟩
      -- What the name leads to is a directory again, as the walk goes on to one.
      have hnext : other.get? next = some .directory := (h next).1 (directory_of_walk hrest hfound)
      have hthere : Steps other location name next := by
        cases hstep with
        | here => exact .here
        | out => exact .out
        | into ordinary not_too_long _ => exact .into ordinary not_too_long hnext
      exact walk_cons_eq_ok_iff.2 ⟨(h location).1 hhere, next, hthere, ih hrest⟩

theorem resolve_of_walk (hwalk : tree.walk (startOf current path) path.names = .ok location)
    {entry : Entry} (hentry : tree.get? location = some entry)
    (htrailing : path.trailing = false ∨ entry = .directory) :
    tree.resolve current path = .ok (location, entry) := by
  unfold resolve
  rw [hwalk]
  simp only [bind, Except.bind, hentry]
  cases entry with
  | directory => rfl
  | file content =>
      have hplain : path.trailing = false := htrailing.resolve_right nofun
      simp only [hplain]
      rfl

theorem walk_of_resolve {entry : Entry} (h : tree.resolve current path = .ok (location, entry)) :
    tree.walk (startOf current path) path.names = .ok location ∧
      tree.get? location = some entry := by
  unfold resolve at h
  cases hwalk : tree.walk (startOf current path) path.names with
  | error error =>
      rw [hwalk] at h
      cases h
  | ok found =>
      rw [hwalk] at h
      simp only [bind, Except.bind] at h
      cases hfound : tree.get? found with
      | none =>
          rw [hfound] at h
          cases h
      | some entry =>
          rw [hfound] at h
          cases entry with
          | directory =>
              cases h
              exact ⟨rfl, hfound⟩
          | file content =>
              by_cases htrailing : path.trailing = true
              · rw [htrailing] at h
                cases h
              · rw [Bool.not_eq_true] at htrailing
                rw [htrailing] at h
                cases h
                exact ⟨rfl, hfound⟩

theorem resolveDirectory_eq_ok_iff :
    tree.resolveDirectory current path = .ok location ↔
      tree.walk (startOf current path) path.names = .ok location ∧
        tree.get? location = some .directory := by
  constructor
  · intro h
    unfold resolveDirectory at h
    cases hresolve : tree.resolve current path with
    | error error =>
        rw [hresolve] at h
        cases h
    | ok resolved =>
        rcases resolved with ⟨found, entry⟩
        rw [hresolve] at h
        cases entry with
        | directory =>
            cases h
            exact walk_of_resolve hresolve
        | file content => cases h
  · rintro ⟨hwalk, hdirectory⟩
    unfold resolveDirectory
    rw [resolve_of_walk hwalk hdirectory (.inr rfl)]
    rfl

theorem SameDirectories.resolveDirectory (h : SameDirectories tree other)
    (hresolve : tree.resolveDirectory current path = .ok location) :
    other.resolveDirectory current path = .ok location := by
  rcases resolveDirectory_eq_ok_iff.1 hresolve with ⟨hwalk, hdirectory⟩
  exact resolveDirectory_eq_ok_iff.2 ⟨h.walk hwalk hdirectory, (h location).1 hdirectory⟩

/-! ## Places for files -/

/-- The path without its last name. -/
def outer (path : Path) : Path :=
  { path with names := path.names.dropLast, trailing := false }

/-- A path leads to a name in a directory. -/
structure LeadsTo (tree : FileTree) (current : Location) (path : Path) (directory : Location)
    (name : String) : Prop where
  getLast?_names : path.names.getLast? = some name
  ordinary : ¬(name = "." ∨ name = "..")
  resolveDirectory_outer : tree.resolveDirectory current (outer path) = .ok directory

/-- A file may be moved to the name. -/
structure Admitted (tree : FileTree) (path : Path) (directory : Location) (name : String) :
    Prop where
  not_too_long : ¬isTooLong name = true
  not_trailing : ¬path.trailing = true
  not_directory : tree.get? (directory ++ [name]) ≠ some .directory

variable {directory : Location} {name : String}

theorem resolveLast_eq_ok_iff :
    tree.resolveLast current path = .ok (directory, some name) ↔
      LeadsTo tree current path directory name := by
  constructor
  · intro h
    unfold resolveLast at h
    cases hname : path.names.getLast? with
    | none =>
        rw [hname] at h
        cases h
    | some last =>
        rw [hname] at h
        cases hdirectory : tree.resolveDirectory current (outer path) with
        | error error =>
            rw [outer] at hdirectory
            rw [hdirectory] at h
            cases h
        | ok found =>
            have hresolved := hdirectory
            rw [outer] at hdirectory
            rw [hdirectory] at h
            simp only [bind, Except.bind] at h
            by_cases hordinary : last = "." ∨ last = ".."
            · rw [if_pos hordinary] at h
              cases h
            · rw [if_neg hordinary] at h
              cases h
              exact ⟨hname, hordinary, hresolved⟩
  · intro h
    have hdirectory := h.resolveDirectory_outer
    unfold outer at hdirectory
    unfold resolveLast
    rw [h.getLast?_names]
    simp only [bind, Except.bind, hdirectory, if_neg h.ordinary]

theorem canReplace_eq_ok_iff :
    tree.canReplace current path = .ok location ↔
      ∃ directory name, LeadsTo tree current path directory name ∧
        Admitted tree path directory name ∧ directory ++ [name] = location := by
  constructor
  · intro h
    unfold canReplace at h
    cases hlast : tree.resolveLast current path with
    | error error =>
        rw [hlast] at h
        cases h
    | ok last =>
        rcases last with ⟨directory, name | name⟩
        · rw [hlast] at h
          cases h
        · rw [hlast] at h
          simp only [bind, Except.bind] at h
          by_cases hlong : isTooLong name = true
          · rw [if_pos hlong] at h
            cases h
          by_cases htrailing : path.trailing = true
          · rw [if_neg hlong, if_pos htrailing] at h
            cases h
          by_cases hdirectory : tree.get? (directory ++ [name]) = some .directory
          · rw [if_neg hlong, if_neg htrailing, if_pos hdirectory] at h
            cases h
          · rw [if_neg hlong, if_neg htrailing, if_neg hdirectory] at h
            exact ⟨directory, name, resolveLast_eq_ok_iff.1 hlast, ⟨hlong, htrailing, hdirectory⟩,
              Except.ok.inj h⟩
  · rintro ⟨directory, name, hleads, hadmitted, rfl⟩
    unfold canReplace
    rw [resolveLast_eq_ok_iff.2 hleads]
    simp only [bind, Except.bind, if_neg hadmitted.not_too_long, if_neg hadmitted.not_trailing,
      if_neg hadmitted.not_directory]

theorem ne_root_of_canReplace (h : tree.canReplace current path = .ok location) :
    location ≠ [] := by
  rcases canReplace_eq_ok_iff.1 h with ⟨directory, name, -, -, rfl⟩
  exact List.append_ne_nil_of_right_ne_nil directory (List.cons_ne_nil name [])

theorem not_directory_of_canReplace (h : tree.canReplace current path = .ok location) :
    tree.get? location ≠ some .directory := by
  rcases canReplace_eq_ok_iff.1 h with ⟨directory, name, -, hadmitted, rfl⟩
  exact hadmitted.not_directory

/-- Places for files depend only on which directories there are. -/
theorem SameDirectories.canReplace (h : SameDirectories tree other)
    (hplace : tree.canReplace current path = .ok location) :
    other.canReplace current path = .ok location := by
  rcases canReplace_eq_ok_iff.1 hplace with ⟨directory, name, hleads, hadmitted, hlocation⟩
  refine canReplace_eq_ok_iff.2 ⟨directory, name, ?_, ?_, hlocation⟩
  · exact ⟨hleads.getLast?_names, hleads.ordinary,
      h.resolveDirectory hleads.resolveDirectory_outer⟩
  · refine ⟨hadmitted.not_too_long, hadmitted.not_trailing, ?_⟩
    intro hdirectory
    exact hadmitted.not_directory ((h _).2 hdirectory)

theorem SameDirectories.canReplace_iff (h : SameDirectories tree other) :
    tree.canReplace current path = .ok location ↔ other.canReplace current path = .ok location :=
  ⟨h.canReplace, h.symm.canReplace⟩

/-- A path under which a file may be moved to a location leads to the file there. -/
theorem read_of_canReplace (h : tree.canReplace current path = .ok location) {content : Bytes}
    (hfile : tree.get? location = some (.file content)) : tree.read current path = .ok content := by
  rcases canReplace_eq_ok_iff.1 h with ⟨directory, name, hleads, hadmitted, rfl⟩
  rcases resolveDirectory_eq_ok_iff.1 hleads.resolveDirectory_outer with ⟨hwalk, hdirectory⟩
  have hnames : path.names = path.names.dropLast ++ [name] := by
    rcases List.getLast?_eq_some_iff.1 hleads.getLast?_names with ⟨init, hinit⟩
    rw [hinit, List.dropLast_concat]
  have hstart : tree.walk (startOf current path) path.names = .ok (directory ++ [name]) := by
    rw [hnames]
    exact walk_append hwalk (walk_cons_eq_ok_iff.2
      ⟨hdirectory, _, .into hleads.ordinary hadmitted.not_too_long hfile, rfl⟩)
  have htrailing : path.trailing = false := Bool.not_eq_true _ ▸ hadmitted.not_trailing
  rw [read, resolve_of_walk hstart hfile (.inl htrailing)]

end SecureBoot.FileTree
