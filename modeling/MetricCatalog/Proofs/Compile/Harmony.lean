/-
# How columns are put together

What the representations of a node say about its columns is a list of
observations. The columns that come of it have one name each, in the order in
which the names were first observed, and the greatest type that was observed
under the name. So the order of the observations matters for the order of the
columns only, and a name means the same type in every place that looks it up.
-/

import Mathlib.Data.List.Induction
import Mathlib.Data.List.Nodup
import MetricCatalog.Compile.Reading
import MetricCatalog.Query.NodeQuery

namespace MetricCatalog

namespace ColumnType

theorem rank_mostSpecific (current candidate : ColumnType) :
    (mostSpecific (some current) candidate).rank = max current.rank candidate.rank := by
  simp only [mostSpecific]
  split <;> omega

theorem mostSpecific_eq_or (current candidate : ColumnType) :
    mostSpecific (some current) candidate = current ∨
      mostSpecific (some current) candidate = candidate := by
  simp only [mostSpecific]
  split
  · exact Or.inl rfl
  · exact Or.inr rfl

end ColumnType

namespace Column

/-! ## One more observation -/

theorem names_merge (column : Column) (columns : List Column) :
    (column.merge columns).map (·.name) =
      if column.name ∈ columns.map (·.name) then columns.map (·.name)
      else columns.map (·.name) ++ [column.name] := by
  induction columns with
  | nil => rfl
  | cons first rest ih =>
      rw [merge]
      by_cases hname : first.name = column.name
      · simp [hname]
      · rw [if_neg hname, List.map_cons, ih]
        by_cases hrest : column.name ∈ rest.map (·.name)
        · simp only [List.map_cons, List.mem_cons, hrest, or_true, if_true]
        · simp only [List.map_cons, List.mem_cons, Ne.symm hname, hrest, or_self, if_false,
            List.cons_append]

/-- Only the column of the name is touched, and it is the new one or has a greater type. -/
theorem mem_merge {column other : Column} {columns : List Column}
    (hnodup : (columns.map (·.name)).Nodup) (hmem : other ∈ column.merge columns) :
    (other ∈ columns ∧ other.name ≠ column.name) ∨
      (other = column ∧ column.name ∉ columns.map (·.name)) ∨
      ∃ old ∈ columns, old.name = column.name ∧
        other = ⟨column.name, .mostSpecific (some old.type) column.type⟩ := by
  induction columns with
  | nil =>
      obtain rfl : other = column := List.mem_singleton.mp hmem
      exact Or.inr (Or.inl ⟨rfl, List.not_mem_nil⟩)
  | cons first rest ih =>
      obtain ⟨hfirst, hrest⟩ := List.nodup_cons.mp hnodup
      rw [merge] at hmem
      split at hmem
      · rename_i hname
        rcases List.mem_cons.mp hmem with rfl | hbehind
        · exact Or.inr (Or.inr ⟨first, List.mem_cons_self, hname, by rw [hname]⟩)
        · refine Or.inl ⟨List.mem_cons_of_mem _ hbehind, fun hother => hfirst ?_⟩
          exact List.mem_map.mpr ⟨other, hbehind, hother.trans hname.symm⟩
      · rename_i hname
        rcases List.mem_cons.mp hmem with rfl | hbehind
        · exact Or.inl ⟨List.mem_cons_self, hname⟩
        · rcases ih hrest hbehind with ⟨hold, hother⟩ | ⟨hnew, hfree⟩ | ⟨old, hold, hboth⟩
          · exact Or.inl ⟨List.mem_cons_of_mem _ hold, hother⟩
          · refine Or.inr (Or.inl ⟨hnew, ?_⟩)
            simp only [List.map_cons, List.mem_cons, not_or]
            exact ⟨Ne.symm hname, hfree⟩
          · exact Or.inr (Or.inr ⟨old, List.mem_cons_of_mem _ hold, hboth⟩)

/-! ## All observations -/

theorem eraseDups_concat (names : List String) (name : String) :
    (names ++ [name]).eraseDups =
      if name ∈ names then names.eraseDups else names.eraseDups ++ [name] := by
  rw [List.eraseDups_append]
  by_cases hname : name ∈ names
  · have hseen : [name].removeAll names = [] := by simp [List.removeAll, hname]
    simp [hseen, hname]
  · have hnew : [name].removeAll names = [name] := by simp [List.removeAll, hname]
    rw [hnew, if_neg hname]
    rfl

/-- Columns as they are put together from observations: one for each name that was observed, in the
order of first observation, with the greatest type that was observed under the name. -/
structure Harmonises (seen columns : List Column) : Prop where
  names : columns.map (·.name) = (seen.map (·.name)).eraseDups
  distinct : (columns.map (·.name)).Nodup
  observed : ∀ column ∈ columns, column ∈ seen
  greatest : ∀ column ∈ columns, ∀ other ∈ seen, other.name = column.name →
    other.type.rank ≤ column.type.rank

/-- One more observation is taken into account. -/
theorem Harmonises.merge {seen columns : List Column} (hharmonises : Harmonises seen columns)
    (column : Column) : Harmonises (seen ++ [column]) (column.merge columns) := by
  have hseen : column.name ∈ columns.map (·.name) ↔ column.name ∈ seen.map (·.name) := by
    rw [hharmonises.names, List.mem_eraseDups]
  refine ⟨?_, ?_, fun other hmem => ?_, fun other hmem => ?_⟩
  · rw [names_merge, List.map_append, List.map_singleton, eraseDups_concat, ← hharmonises.names]
    simp only [hseen]
  · rw [names_merge]
    split
    · exact hharmonises.distinct
    · rename_i hfree
      exact List.nodup_append.mpr ⟨hharmonises.distinct, List.nodup_singleton _, by grind⟩
  · rcases mem_merge hharmonises.distinct hmem with
      ⟨hold, -⟩ | ⟨rfl, -⟩ | ⟨old, hold, hname, rfl⟩
    · exact List.mem_append_left _ (hharmonises.observed other hold)
    · simp
    · rcases ColumnType.mostSpecific_eq_or old.type column.type with htype | htype
      · rw [htype, ← hname]
        exact List.mem_append_left _ (hharmonises.observed old hold)
      · rw [htype]
        simp
  · intro witness hwitness hsame
    rcases mem_merge hharmonises.distinct hmem with
      ⟨hold, hother⟩ | ⟨rfl, hfree⟩ | ⟨old, hold, hname, rfl⟩
    · rcases List.mem_append.mp hwitness with hbefore | hlast
      · exact hharmonises.greatest other hold witness hbefore hsame
      · rw [List.mem_singleton.mp hlast] at hsame
        exact absurd hsame.symm hother
    · rcases List.mem_append.mp hwitness with hbefore | hlast
      · refine absurd (hseen.mpr ?_) hfree
        rw [← hsame]
        exact List.mem_map_of_mem hbefore
      · exact Nat.le_of_eq (by rw [List.mem_singleton.mp hlast])
    · rw [ColumnType.rank_mostSpecific]
      rcases List.mem_append.mp hwitness with hbefore | hlast
      · have hle := hharmonises.greatest old hold witness hbefore (hsame.trans hname.symm)
        exact Nat.le_trans hle (Nat.le_max_left _ _)
      · rw [List.mem_singleton.mp hlast]
        exact Nat.le_max_right _ _

/-- By induction on the observations, the last one first. -/
theorem harmonises_foldl_merge (seen : List Column) :
    Harmonises seen (seen.foldl (fun columns column => column.merge columns) []) := by
  induction seen using List.reverseRecOn with
  | nil => exact ⟨rfl, List.nodup_nil, by simp, by simp⟩
  | append_singleton seen column ih =>
      rw [List.foldl_concat]
      exact ih.merge column

/-- The observations in several answers. An answer that tells of a failure has none. -/
def observations (answers : List (Except CompileError (List Column))) : List Column :=
  answers.flatMap fun
    | .ok columns => columns
    | .error _ => []

theorem harmonises_mergeAll (answers : List (Except CompileError (List Column))) :
    Harmonises (observations answers) (mergeAll answers) :=
  harmonises_foldl_merge (observations answers)

/-! ## Another order -/

theorem Harmonises.mem_of_perm {first second firstColumns secondColumns : List Column}
    (hfirst : Harmonises first firstColumns) (hsecond : Harmonises second secondColumns)
    (hperm : first.Perm second) {column : Column} (hmem : column ∈ firstColumns) :
    column ∈ secondColumns := by
  have hobserved : column ∈ first := hfirst.observed column hmem
  have hname : column.name ∈ secondColumns.map (·.name) := by
    rw [hsecond.names, List.mem_eraseDups]
    exact List.mem_map_of_mem (hperm.mem_iff.mp hobserved)
  obtain ⟨other, hother, hsame⟩ := List.mem_map.mp hname
  have hle := hsecond.greatest other hother column (hperm.mem_iff.mp hobserved) hsame.symm
  have hge := hfirst.greatest column hmem other
    (hperm.mem_iff.mpr (hsecond.observed other hother)) hsame
  have htype : other.type = column.type :=
    ColumnType.rank_injective (Nat.le_antisymm hge hle)
  obtain ⟨name, type⟩ := column
  obtain ⟨otherName, otherType⟩ := other
  cases hsame
  cases htype
  exact hother

/-- With the observations in another order the columns are the same, in another order. -/
theorem Harmonises.perm {first second firstColumns secondColumns : List Column}
    (hfirst : Harmonises first firstColumns) (hsecond : Harmonises second secondColumns)
    (hperm : first.Perm second) : firstColumns.Perm secondColumns :=
  (List.perm_ext_iff_of_nodup (.of_map _ hfirst.distinct) (.of_map _ hsecond.distinct)).mpr
    fun _ => ⟨hfirst.mem_of_perm hsecond hperm, hsecond.mem_of_perm hfirst hperm.symm⟩

end Column

/-! ## Looking up a column -/

/-- Of columns with distinct names, the first one of a name is the last one. -/
theorem find?_reverse_of_nodup {α : Type} {key : α → String} {items : List α}
    (hnodup : (items.map key).Nodup) (name : String) :
    items.reverse.find? (key · == name) = items.find? (key · == name) := by
  induction items with
  | nil => rfl
  | cons first rest ih =>
      obtain ⟨hfirst, hrest⟩ := List.nodup_cons.mp hnodup
      rw [List.reverse_cons, List.find?_append, ih hrest, List.find?_cons]
      by_cases hname : key first = name
      · have hnone : rest.find? (key · == name) = none := by
          rw [List.find?_eq_none]
          intro item hitem hsame
          refine hfirst ?_
          rw [hname, ← eq_of_beq hsame]
          exact List.mem_map_of_mem hitem
        simp [hnone, hname]
      · have hfalse : (key first == name) = false := by simpa using hname
        simp [hfalse]

/-- A filter finds the type of a column that the node has under the name. -/
theorem Node.columnType?_columns {node : Node} (hnodup : (node.columns.map (·.name)).Nodup)
    (name : String) :
    columnType? (node.columns.map fun column => (column.name, column.type)) name =
      (node.column? name).map (·.type) := by
  rw [columnType?, ← List.map_reverse, List.find?_map, Option.map_map, Node.column?,
    ← find?_reverse_of_nodup hnodup name]
  rfl

end MetricCatalog
