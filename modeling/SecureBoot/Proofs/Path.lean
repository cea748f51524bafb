import SecureBoot.Files.Path
import SecureBoot.Proofs.Publishing

/-!
# Path — the last name of a path

A path is read by splitting its text at the slashes, which is `List.splitOn`
(`Path.splitSlashes_eq_splitOn`).  So the text that `Path.join` makes of a directory and a name is
read as a path that ends in this name, as long as the name is one: it has no slash in it
(`Path.getLast?_names_join`).  The stem of a file name is such a name
(`Path.slash_not_mem_of_fileStem?`).

Where a file is moved to is told apart by the last names of the paths (`Files.apart_of_names`).
-/

namespace SecureBoot

namespace Path

/-! ## Splitting -/

theorem splitSlashes_eq_splitOn (text : List Char) : splitSlashes text = text.splitOn '/' := by
  fun_induction splitSlashes text with
  | case1 => rfl
  | case2 text ih => simp [List.splitOn_cons_eq_if_modifyHead, ih]
  | case3 c text hc piece more hsplit ih =>
      have hslash : (c == '/') = false := by simpa using hc
      rw [List.splitOn_cons_eq_if_modifyHead, hslash, ← ih, hsplit]
      rfl
  | case4 c text hc hsplit ih =>
      rw [hsplit] at ih
      exact absurd ih.symm (List.splitOn_ne_nil _ _)

theorem splitSlashes_append (text name : List Char) :
    splitSlashes (text ++ '/' :: name) = splitSlashes text ++ splitSlashes name := by
  simp only [splitSlashes_eq_splitOn]
  exact List.splitOn_append_cons_self text name

theorem splitSlashes_of_slash_not_mem {name : List Char} (h : '/' ∉ name) :
    splitSlashes name = [name] := by
  rw [splitSlashes_eq_splitOn]
  exact List.splitOn_eq_singleton h

/-- No piece between slashes has a slash in it. -/
theorem slash_not_mem_of_mem_splitSlashes {text piece : List Char}
    (h : piece ∈ splitSlashes text) : '/' ∉ piece := by
  fun_induction splitSlashes text generalizing piece with
  | case1 =>
      rw [List.mem_singleton.1 h]
      exact List.not_mem_nil
  | case2 text ih =>
      rcases List.mem_cons.1 h with rfl | h
      · exact List.not_mem_nil
      · exact ih h
  | case3 c text hc first more hsplit ih =>
      rw [hsplit] at ih
      rcases List.mem_cons.1 h with rfl | h
      · exact List.not_mem_cons_of_ne_of_not_mem (Ne.symm hc) (ih List.mem_cons_self)
      · exact ih (List.mem_cons_of_mem first h)
  | case4 c text hc hsplit ih =>
      rw [List.mem_singleton.1 h]
      exact List.not_mem_cons_of_ne_of_not_mem (Ne.symm hc) List.not_mem_nil

/-! ## Names -/

/-- A name without slashes behind a slash is the last one. -/
theorem getLast?_names_parse {text name : String} (hslash : '/' ∉ name.toList)
    (hname : name ≠ "") : (parse (text ++ "/" ++ name)).names.getLast? = some name := by
  have hsplit : splitSlashes (text ++ "/" ++ name).toList =
      splitSlashes text.toList ++ [name.toList] := by
    rw [← splitSlashes_of_slash_not_mem hslash, ← splitSlashes_append]
    simp
  have hkept : [name.toList].filter (· ≠ []) = [name.toList] := by
    simpa using hname
  unfold parse
  simp only [hsplit, List.filter_append, hkept, List.map_append, List.map_cons, List.map_nil,
    List.getLast?_concat, String.ofList_toList]

theorem getLast?_names_join {name : String} (hslash : '/' ∉ name.toList) (hname : name ≠ "")
    (directory : String) : (parse (join directory name)).names.getLast? = some name := by
  unfold join
  by_cases hlast : directory.toList.getLast? = some '/'
  · rw [if_pos hlast]
    rcases List.getLast?_eq_some_iff.1 hlast with ⟨init, hinit⟩
    have hdirectory : directory = String.ofList init ++ "/" := by
      rw [← String.ofList_toList (s := directory), hinit, String.ofList_append]
    rw [hdirectory]
    exact getLast?_names_parse hslash hname
  · rw [if_neg hlast]
    exact getLast?_names_parse hslash hname

/-- What is in the stem of a name is in the name. -/
theorem toList_stem_subset (name : String) : (stem name).toList ⊆ name.toList := by
  unfold stem
  split
  -- The stem is what stands in front of the last dot.
  · rename_i dot c before hdrop
    intro d hd
    rw [String.toList_ofList, List.mem_reverse] at hd
    have hmem : d ∈ name.toList.reverse.dropWhile (· ≠ '.') := by
      rw [hdrop]
      exact List.mem_cons_of_mem dot hd
    exact List.mem_reverse.1 (List.dropWhile_subset _ hmem)
  · exact List.Subset.refl _

theorem steps_subset (path : Path) : path.steps ⊆ path.names := by
  unfold steps
  split
  · rename_i names hnames
    rw [hnames]
    exact List.cons_subset_cons "." List.filter_sublist.subset
  · exact List.filter_sublist.subset

theorem fileName?_mem {path : Path} {name : String} (h : path.fileName? = some name) :
    name ∈ path.names := by
  unfold fileName? at h
  cases hlast : path.steps.getLast? with
  | none =>
      rw [hlast] at h
      cases h
  | some last =>
      rw [hlast] at h
      simp only at h
      by_cases hdots : last = "." ∨ last = ".."
      · rw [if_pos hdots] at h
        cases h
      · rw [if_neg hdots] at h
        cases h
        exact path.steps_subset (List.mem_of_getLast? hlast)

theorem slash_not_mem_of_fileStem? {text found : String} (h : (parse text).fileStem? = some found) :
    '/' ∉ found.toList := by
  rcases Option.map_eq_some_iff.1 h with ⟨name, hname, rfl⟩
  rcases List.mem_map.1 (fileName?_mem hname) with ⟨piece, hpiece, rfl⟩
  have hslash := slash_not_mem_of_mem_splitSlashes (List.mem_filter.1 hpiece).1
  intro hfound
  have hthere := toList_stem_subset _ hfound
  rw [String.toList_ofList] at hthere
  exact hslash hthere

end Path

/-! ## Targets -/

namespace Files

variable {files : Files} {text other name : String}

/-- A complete path ends as its text does. -/
theorem getLast?_names_locate (h : (Path.parse text).names.getLast? = some name)
    (hname : name ≠ ".") : (files.locate text).names.getLast? = some name := by
  rcases List.getLast?_eq_some_iff.1 h with ⟨init, hinit⟩
  have hfilter : ((Path.parse text).names.filter (· ≠ ".")).getLast? = some name := by
    have hkept : [name].filter (· ≠ ".") = [name] := by simpa using hname
    rw [hinit, List.filter_append, hkept, List.getLast?_concat]
  unfold locate Path.absolute
  split
  · simp only [List.getLast?_append, hfilter, Option.some_or]
  · exact hfilter

theorem getLast?_of_targetOf {location : Location} (h : files.targetOf text = .ok location) :
    location.getLast? = (files.locate text).names.getLast? := by
  have hplace := (targetOf_eq_ok_iff.1 h).1
  rcases FileTree.canReplace_eq_ok_iff.1 hplace with ⟨directory, last, hleads, -, rfl⟩
  rw [hleads.getLast?_names, List.getLast?_concat]

/-- Files under different last names are in different places. -/
theorem apart_of_names {name' : String} (h : (files.locate text).names.getLast? = some name)
    (h' : (files.locate other).names.getLast? = some name') (hne : name ≠ name') :
    files.Apart text other := by
  intro location htarget hother
  have hname := (getLast?_of_targetOf htarget).trans h
  have hname' := (getLast?_of_targetOf hother).trans h'
  exact hne (Option.some.inj (hname.symm.trans hname'))

end Files

end SecureBoot
