/-
# Trees of proper names

Where a tree has only names that can stand between slashes, every operation keeps
it so: what is put into a tree is put at the names that some path leads to, and
they are names of the tree's working directory or parts of the path.
-/

import MetricCatalog.Files.Snapshot
import MetricCatalog.Proofs.Files.Names

namespace MetricCatalog

namespace FileTree

variable {tree next : FileTree} {names : List String} {path : Path}

/-- All names of a tree can stand between slashes. -/
structure WellNamed (tree : FileTree) : Prop where
  entries : ∀ entry ∈ tree.entries.entries, ∀ name ∈ entry.1, Path.IsName name
  workingDirectory : ∀ name ∈ tree.workingDirectory, Path.IsName name

theorem wellNamed_empty : WellNamed ⟨.empty, []⟩ :=
  ⟨fun _ hentry => absurd hentry List.not_mem_nil, fun _ hname => absurd hname List.not_mem_nil⟩

theorem WellNamed.put (htree : tree.WellNamed) (hnames : ∀ name ∈ names, Path.IsName name)
    (entry : FileEntry) : (tree.put names entry).WellNamed where
  entries := by
    intro found hfound
    rcases KeyMap.mem_put hfound with rfl | hold
    · exact hnames
    · exact htree.entries found hold
  workingDirectory := htree.workingDirectory

theorem WellNamed.move {source : List String} (htree : tree.WellNamed)
    (hnames : ∀ name ∈ names, Path.IsName name) (entry : FileEntry) :
    (tree.move source names entry).WellNamed where
  entries := by
    intro found hfound
    rcases KeyMap.mem_put hfound with rfl | hold
    · exact hnames
    · exact htree.entries found (KeyMap.mem_of_mem_remove hold)
  workingDirectory := htree.workingDirectory

/-! ## What paths lead to -/

/-- By induction on the parts: each one leaves the names as they are, takes the last one away or
puts itself behind them. -/
theorem isName_of_walk {base : List String} {parts : List PathPart}
    (hbase : ∀ name ∈ base, Path.IsName name)
    (hparts : ∀ text, .name text ∈ parts → Path.IsName text)
    (hwalk : tree.walk base parts = .ok names) : ∀ name ∈ names, Path.IsName name := by
  induction parts generalizing base with
  | nil =>
      cases hwalk
      exact hbase
  | cons part rest ih =>
      have hrest : ∀ text, .name text ∈ rest → Path.IsName text := fun text htext =>
        hparts text (List.mem_cons_of_mem _ htext)
      refine ih (fun name hname => ?_) hrest (walk_cons_eq_ok.mp hwalk).2.2
      cases part with
      | root => exact absurd hname List.not_mem_nil
      | current => exact hbase name hname
      | parent => exact hbase name (base.dropLast_subset hname)
      | name text =>
          rcases List.mem_append.mp hname with hold | hnew
          · exact hbase name hold
          · rw [List.mem_singleton.mp hnew]
            exact hparts text List.mem_cons_self

theorem WellNamed.isName_of_resolve (htree : tree.WellNamed)
    (hresolve : tree.resolve path = .ok names) : ∀ name ∈ names, Path.IsName name :=
  isName_of_walk htree.workingDirectory (fun _ => Path.isName_of_mem_parts)
    (resolve_eq_ok.mp hresolve).2.1

theorem WellNamed.isName_of_mem_below (htree : tree.WellNamed) {base : List String}
    {found : List String × FileEntry} (hfound : found ∈ tree.below base) :
    ∀ name ∈ found.1, Path.IsName name := by
  obtain ⟨entry, hentry, hdrop⟩ := List.mem_filterMap.mp hfound
  rw [Option.ite_none_right_eq_some] at hdrop
  obtain ⟨-, hdrop⟩ := hdrop
  cases hdrop
  exact fun name hname => htree.entries entry hentry name (List.mem_of_mem_drop hname)

/-! ## Operations -/

theorem WellNamed.write (htree : tree.WellNamed) {contents : Contents} {now : Instant}
    (hwrite : tree.write path contents now = .ok next) : next.WellNamed := by
  obtain ⟨names, hresolve, -, -, rfl⟩ := write_eq_ok hwrite
  exact htree.put (htree.isName_of_resolve hresolve) _

theorem WellNamed.makeDirectories (htree : tree.WellNamed) {now : Instant}
    (hmake : tree.makeDirectories path now = .ok next) : next.WellNamed :=
  makeDirectoriesFrom_induct (fun tree next => tree.WellNamed → next.WellNamed)
    (fun _ htree => htree) (fun hfirst hsecond htree => hsecond (hfirst htree))
    (fun _ hresolve _ htree => htree.put (htree.isName_of_resolve hresolve) _) hmake htree

/-- Whatever is renamed is put at the names that the new path leads to. -/
theorem exists_move_of_rename {source target : Path}
    (hrename : tree.rename source target = .ok next) :
    ∃ sourceNames targetNames entry, tree.resolve target = .ok targetNames ∧
      next = tree.move sourceNames targetNames entry := by
  obtain ⟨sourceNames, -, hrename⟩ := exists_of_bind_eq_ok hrename
  obtain ⟨targetNames, htarget, hrename⟩ := exists_of_bind_eq_ok hrename
  split at hrename
  · cases hrename
  · cases hrename
  · obtain ⟨-, -, hrename⟩ := exists_of_bind_eq_ok hrename
    cases hrename
    exact ⟨sourceNames, targetNames, _, htarget, rfl⟩
  · cases hrename
    exact ⟨sourceNames, targetNames, _, htarget, rfl⟩

theorem WellNamed.rename (htree : tree.WellNamed) {source target : Path}
    (hrename : tree.rename source target = .ok next) : next.WellNamed := by
  obtain ⟨sourceNames, targetNames, entry, htarget, rfl⟩ := exists_move_of_rename hrename
  exact htree.move (htree.isName_of_resolve htarget) entry

/-- What is placed is put at the names that its path leads to once the directories above it are
there. -/
theorem exists_put_of_place {entry : FileEntry} {now : Instant}
    (hplace : tree.place path entry now = .ok next) :
    ∃ above names, (above = tree ∨ ∃ parent, tree.makeDirectories parent now = .ok above) ∧
      above.resolve path = .ok names ∧ next = above.put names entry := by
  unfold place at hplace
  split at hplace
  · rename_i parent _
    obtain ⟨above, hmake, hplace⟩ := exists_of_bind_eq_ok hplace
    obtain ⟨names, hresolve, hplace⟩ := exists_of_bind_eq_ok hplace
    refine ⟨above, names, Or.inr ⟨parent, hmake⟩, hresolve, ?_⟩
    split at hplace <;> cases hplace
    rfl
  · obtain ⟨above, hsame, hplace⟩ := exists_of_bind_eq_ok hplace
    obtain ⟨names, hresolve, hplace⟩ := exists_of_bind_eq_ok hplace
    refine ⟨above, names, Or.inl (Except.ok.inj hsame).symm, hresolve, ?_⟩
    split at hplace <;> cases hplace
    rfl

theorem WellNamed.place (htree : tree.WellNamed) {entry : FileEntry} {now : Instant}
    (hplace : tree.place path entry now = .ok next) : next.WellNamed := by
  obtain ⟨above, names, hmade, hresolve, rfl⟩ := exists_put_of_place hplace
  have habove : above.WellNamed := by
    rcases hmade with rfl | ⟨parent, hmake⟩
    · exact htree
    · exact htree.makeDirectories hmake
  exact habove.put (habove.isName_of_resolve hresolve) entry

/-- The entries of a snapshot are placed one after the other. -/
theorem WellNamed.foldl_placeEntry (htree : tree.WellNamed) (now : Instant)
    (entries : List (Path × FileEntry)) :
    (entries.foldl (Codec.placeEntry now) tree).WellNamed := by
  induction entries generalizing tree with
  | nil => exact htree
  | cons entry rest ih =>
      refine ih ?_
      unfold Codec.placeEntry
      cases hplace : tree.place entry.1 entry.2 now with
      | error => exact htree
      | ok next => exact htree.place hplace

end FileTree

end MetricCatalog
