/-
# Files beside the catalog

Writing a catalog makes directories, writes the file that is renamed and puts it
in place. A file of another name is never touched, not even when the writing
stops half way; and as long as it has not come to the renaming, the name of the
catalog's own file is such a name too.
-/

import MetricCatalog.Proofs.Catalog.Writing
import MetricCatalog.Proofs.Files.Named

namespace MetricCatalog

open FileTree (SameFiles)

namespace Storage

variable {own : Storage} {tree next : FileTree} {catalog : Catalog} {now : Instant} {name : String}

/-- By induction on the steps that are left. -/
theorem Phase.sameFiles {remaining : List FileStep} {result : Except (Path × OsError) Unit}
    (hphase : own.Phase catalog remaining) (hready : own.Ready catalog remaining tree)
    (hall : FileStep.performAll now tree remaining = (result, next))
    (hname : own.temporaryName ≠ name)
    (hpath : result = .ok () → own.path.fileName? ≠ some name) : SameFiles name tree next := by
  induction remaining generalizing tree with
  | nil =>
      cases hall
      exact SameFiles.refl name _
  | cons step rest ih =>
      obtain ⟨error, -, -, rfl⟩ | ⟨middle, hperform, hrest⟩ := FileStep.performAll_cons hall
      · exact SameFiles.refl name _
      · refine SameFiles.trans ?_ (ih hphase.tail (hphase.perform_ready hperform) hrest)
        cases hphase with
        | directories => exact FileTree.makeDirectories_sameFiles hperform
        | write => exact FileTree.write_sameFiles own.fileName?_temporaryPath hname hperform
        | rename =>
            cases hrest
            have hread := hready rfl
            obtain ⟨target, htarget⟩ :=
              FileTree.fileName?_of_read (FileTree.read_rename hread hperform)
            refine FileTree.rename_sameFiles own.fileName?_temporaryPath hname htarget ?_ hread
              hperform
            rintro rfl
            exact hpath rfl htarget

/-- The writing of a catalog leaves other files as they are, and if it fails, even those of its own
name. -/
theorem write_sameFiles {result : Except StorageError Unit}
    (hwrite : own.write now tree catalog = (result, next)) (hname : own.temporaryName ≠ name)
    (hpath : result = .ok () → own.path.fileName? ≠ some name) : SameFiles name tree next := by
  rw [write] at hwrite
  cases hall : FileStep.performAll now tree (own.writeSteps catalog) with
  | mk found last =>
      rw [hall] at hwrite
      cases hwrite
      refine (own.phase_writeSteps catalog).sameFiles
        (fun heq => absurd heq (own.writeSteps_ne_rename catalog)) hall hname fun hfound => ?_
      exact hpath (by rw [hfound]; rfl)

/-- The file that is written first is none with the ending of JSON. -/
theorem temporaryName_ne_json (own : Storage) (key : String) :
    own.temporaryName ≠ s!"{key}.json" := by
  have hown : own.temporaryName.toList.getLast? = some 'p' := by
    rw [toList_temporaryName, show ∀ first process : List Char,
      first ++ '.' :: (process ++ ['.', 't', 'm', 'p']) =
        (first ++ '.' :: (process ++ ['.', 't', 'm'])) ++ ['p'] by simp]
    exact List.getLast?_concat
  have hother : (key ++ ".json").toList.getLast? = some 'n' := by
    rw [String.toList_append, show ".json".toList = ['.', 'j', 's', 'o'] ++ ['n'] from rfl,
      ← List.append_assoc]
    exact List.getLast?_concat
  intro heq
  rw [heq] at hown
  exact absurd (hother.symm.trans hown) (by decide)

end Storage

end MetricCatalog
