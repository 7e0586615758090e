/-
# Files of one name

Files of one name may stand in any number of directories. What is done under
other names leaves all of them as they are, and so does making directories.
-/

import MetricCatalog.Proofs.Files.Change
import MetricCatalog.Proofs.Files.Names

namespace MetricCatalog

namespace FileTree

variable {tree next : FileTree} {names : List String} {name : String}

/-- Two trees have the same files of a name, wherever they stand. -/
def SameFiles (name : String) (tree next : FileTree) : Prop :=
  ∀ names contents modified, names.getLast? = some name →
    (next.entry? names = some (.file contents modified) ↔
      tree.entry? names = some (.file contents modified))

theorem SameFiles.refl (name : String) (tree : FileTree) : SameFiles name tree tree :=
  fun _ _ _ _ => Iff.rfl

theorem SameFiles.trans {middle : FileTree} (hfirst : SameFiles name tree middle)
    (hsecond : SameFiles name middle next) : SameFiles name tree next :=
  fun names contents modified hname =>
    (hsecond names contents modified hname).trans (hfirst names contents modified hname)

theorem sameFiles_put (hother : names.getLast? ≠ some name) (entry : FileEntry) :
    SameFiles name tree (tree.put names entry) := by
  intro others contents modified hname
  have hne : others ≠ names := by
    rintro rfl
    exact hother hname
  rw [entry?_put_of_ne hne]

theorem sameFiles_put_directory (hnone : tree.entry? names = none) (made : Instant) :
    SameFiles name tree (tree.put names (.directory made)) := by
  intro others contents modified _
  by_cases hsame : others = names
  · have hnames : names ≠ [] := by
      rintro rfl
      cases hnone
    rw [hsame, entry?_put_self hnames, hnone]
    simp
  · rw [entry?_put_of_ne hsame]

theorem sameFiles_move {source : List String} (hsource : source.getLast? ≠ some name)
    (htarget : names.getLast? ≠ some name) (entry : FileEntry) :
    SameFiles name tree (tree.move source names entry) := by
  intro others contents modified hname
  have hne : ∀ {names : List String}, names.getLast? ≠ some name → others ≠ names := by
    rintro names hnames rfl
    exact hnames hname
  rw [entry?_move_of_ne (hne hsource) (hne htarget)]

/-! ## Operations -/

theorem makeDirectories_sameFiles {path : Path} {now : Instant}
    (hmake : tree.makeDirectories path now = .ok next) : SameFiles name tree next :=
  makeDirectoriesFrom_induct (SameFiles name) (SameFiles.refl name) SameFiles.trans
    (fun made _ hnone => sameFiles_put_directory hnone made) hmake

/-- A path leads to names that end as it does. -/
theorem getLast?_ne_of_resolve {path : Path} {other : String} (hpath : path.fileName? = some other)
    (hne : other ≠ name) (hresolve : tree.resolve path = .ok names) :
    names.getLast? ≠ some name := by
  rw [getLast?_of_resolve hpath hresolve]
  exact fun hsame => hne (Option.some.inj hsame)

theorem write_sameFiles {path : Path} {other : String} {contents : Contents} {now : Instant}
    (hpath : path.fileName? = some other) (hne : other ≠ name)
    (hwrite : tree.write path contents now = .ok next) : SameFiles name tree next := by
  obtain ⟨names, hresolve, -, -, rfl⟩ := write_eq_ok hwrite
  exact sameFiles_put (getLast?_ne_of_resolve hpath hne hresolve) _

theorem rename_sameFiles {source target : Path} {first second : String} {contents : Contents}
    (hsource : source.fileName? = some first) (hfirst : first ≠ name)
    (htarget : target.fileName? = some second) (hsecond : second ≠ name)
    (hread : tree.read source = .ok contents) (hrename : tree.rename source target = .ok next) :
    SameFiles name tree next := by
  obtain ⟨sourceNames, targetNames, _, hsourceNames, -, htargetNames, -, -, rfl⟩ :=
    rename_eq_ok hread hrename
  exact sameFiles_move (getLast?_ne_of_resolve hsource hfirst hsourceNames)
    (getLast?_ne_of_resolve htarget hsecond htargetNames) _

end FileTree

end MetricCatalog
