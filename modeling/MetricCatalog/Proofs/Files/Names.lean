/-
# The last name of a path

The names that a path leads to end with the name at its end. So two paths with
different names at their ends never lead to the same file, wherever they start.
-/

import MetricCatalog.Proofs.Files.Change

namespace MetricCatalog

namespace Path

/-! ## Pieces between slashes -/

theorem splitSlashes_ne_nil (text : List Char) : splitSlashes text ≠ [] := by
  induction text with
  | nil => simp [splitSlashes]
  | cons c rest ih =>
      obtain ⟨first, others, hrest⟩ := List.exists_cons_of_ne_nil ih
      rw [splitSlashes, hrest]
      split <;> simp

theorem splitSlashes_of_notMem {text : List Char} (htext : '/' ∉ text) :
    splitSlashes text = [text] := by
  induction text with
  | nil => rfl
  | cons c rest ih =>
      obtain ⟨hc, hrest⟩ := not_or.mp (mt List.mem_cons.mpr htext)
      rw [splitSlashes, if_neg (Ne.symm hc), ih hrest]

theorem splitSlashes_append (first second : List Char) :
    splitSlashes (first ++ '/' :: second) = splitSlashes first ++ splitSlashes second := by
  induction first with
  | nil => simp [splitSlashes]
  | cons c rest ih =>
      rw [List.cons_append, splitSlashes, splitSlashes, ih]
      by_cases hc : c = '/'
      · rw [if_pos hc, if_pos hc, List.cons_append]
      · obtain ⟨head, others, hrest⟩ := List.exists_cons_of_ne_nil (splitSlashes_ne_nil rest)
        rw [if_neg hc, if_neg hc, hrest]
        rfl

theorem notMem_of_mem_splitSlashes {text segment : List Char}
    (hsegment : segment ∈ splitSlashes text) : '/' ∉ segment := by
  induction text generalizing segment with
  | nil =>
      rw [List.mem_singleton.mp hsegment]
      simp
  | cons c rest ih =>
      rw [splitSlashes] at hsegment
      split at hsegment
      · rcases List.mem_cons.mp hsegment with rfl | hrest
        · simp
        · exact ih hrest
      · rename_i hc
        split at hsegment
        · rename_i hnil
          exact absurd hnil (splitSlashes_ne_nil rest)
        · rename_i first others hrest
          rw [hrest] at ih
          rcases List.mem_cons.mp hsegment with rfl | hother
          · intro hmem
            rcases List.mem_cons.mp hmem with hslash | hmem
            · exact hc hslash.symm
            · exact ih List.mem_cons_self hmem
          · exact ih (List.mem_cons_of_mem _ hother)

/-! ## Names of files -/

theorem fileName?_of_getLast? {path : Path} {segment : List Char} {name : String}
    (hlast : path.segments.getLast? = some segment)
    (hname : innerPart? segment = some (.name name)) : path.fileName? = some name := by
  obtain ⟨front, hfront⟩ := List.getLast?_eq_some_iff.mp hlast
  have hinner : path.segments.filterMap innerPart? =
      front.filterMap innerPart? ++ [.name name] := by
    rw [hfront, List.filterMap_append, List.filterMap_cons, hname, List.filterMap_nil]
  have hparts : ∃ start, path.parts = start ++ [.name name] := by
    unfold parts
    simp only [hinner]
    split
    · exact ⟨_ :: _, rfl⟩
    · exact ⟨_ :: _, rfl⟩
    · exact ⟨_, rfl⟩
  obtain ⟨start, hparts⟩ := hparts
  rw [fileName?, hparts, List.getLast?_concat]

theorem getLast?_parts_of_fileName? {path : Path} {name : String}
    (hname : path.fileName? = some name) : path.parts.getLast? = some (.name name) := by
  unfold fileName? at hname
  split at hname
  · rename_i hlast
    cases hname
    exact hlast
  · cases hname

theorem isAbsolute_eq_false {text : String} (hslash : '/' ∉ text.toList) :
    (⟨text⟩ : Path).isAbsolute = false := by
  rw [isAbsolute, decide_eq_false_iff_not]
  intro hhead
  exact hslash (List.mem_of_head? hhead)

/-- A name that can stand between slashes. -/
structure IsName (name : String) : Prop where
  noSlash : '/' ∉ name.toList
  part : innerPart? name.toList = some (.name name)

instance (name : String) : Decidable (IsName name) :=
  decidable_of_iff ('/' ∉ name.toList ∧ innerPart? name.toList = some (.name name))
    ⟨fun hname => ⟨hname.1, hname.2⟩, fun hname => ⟨hname.noSlash, hname.part⟩⟩

/-- The parts of a path that are names are what stands between its slashes. -/
theorem isName_of_mem_parts {path : Path} {text : String} (hmem : .name text ∈ path.parts) :
    IsName text := by
  have hinner : .name text ∈ path.segments.filterMap innerPart? := by
    unfold parts at hmem
    simp only at hmem
    split at hmem
    · exact (List.mem_cons.mp hmem).resolve_left (by simp)
    · exact (List.mem_cons.mp hmem).resolve_left (by simp)
    · exact hmem
  obtain ⟨segment, hsegment, hpart⟩ := List.mem_filterMap.mp hinner
  have htext : text.toList = segment := by
    unfold innerPart? at hpart
    split at hpart
    · cases hpart
    · split at hpart
      · cases hpart
      · cases hpart
        exact String.toList_ofList
  refine ⟨?_, ?_⟩
  · rw [htext]
    exact notMem_of_mem_splitSlashes hsegment
  · rw [htext, hpart]

theorem isName_of_fileName? {path : Path} {name : String} (hname : path.fileName? = some name) :
    IsName name :=
  isName_of_mem_parts (List.mem_of_getLast? (getLast?_parts_of_fileName? hname))

/-- A path made by going on to a name ends with it. -/
theorem fileName?_join (base : Path) {name : String} (hname : IsName name) :
    (base.join ⟨name⟩).fileName? = some name := by
  have hsingle := splitSlashes_of_notMem hname.noSlash
  have hlast : (base.join ⟨name⟩).segments.getLast? = some name.toList := by
    rw [join, if_neg (by simp [isAbsolute_eq_false hname.noSlash])]
    split
    · rename_i hopen
      rw [segments, String.toList_append]
      rcases Bool.or_eq_true_iff.mp hopen with hempty | hslash
      · rw [String.isEmpty_iff.mp hempty, String.toList_empty, List.nil_append, hsingle]
        rfl
      · obtain ⟨front, hfront⟩ := List.getLast?_eq_some_iff.mp (of_decide_eq_true hslash)
        rw [hfront, List.append_assoc, List.singleton_append, splitSlashes_append, hsingle,
          List.getLast?_concat]
    · have htext : (base.text ++ "/" ++ name).toList = base.text.toList ++ '/' :: name.toList := by
        simp
      rw [segments, htext, splitSlashes_append, hsingle, List.getLast?_concat]
  exact fileName?_of_getLast? hlast hname.part

end Path

namespace FileTree

variable {tree : FileTree} {path : Path} {names : List String} {name : String}

theorem getLast?_of_walk {base : List String} {parts : List PathPart}
    (hwalk : tree.walk base (parts ++ [.name name]) = .ok names) :
    names.getLast? = some name := by
  induction parts generalizing base with
  | nil =>
      obtain ⟨-, -, hdone⟩ := walk_cons_eq_ok.mp hwalk
      rw [walk.eq_def] at hdone
      cases hdone
      exact List.getLast?_concat
  | cons part rest ih => exact ih (walk_cons_eq_ok.mp hwalk).2.2

theorem getLast?_of_resolve (hname : path.fileName? = some name)
    (hresolve : tree.resolve path = .ok names) : names.getLast? = some name := by
  obtain ⟨-, hwalk, -⟩ := resolve_eq_ok.mp hresolve
  obtain ⟨front, hfront⟩ := List.getLast?_eq_some_iff.mp (Path.getLast?_parts_of_fileName? hname)
  rw [hfront] at hwalk
  exact getLast?_of_walk hwalk

end FileTree

end MetricCatalog
