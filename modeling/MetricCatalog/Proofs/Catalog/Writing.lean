/-
# Writing a catalog beside others

Every process writes the catalog to a file of its own first. The names of these
files differ from each other and from the name of the catalog, so no process
touches what another one has half written, and a renaming puts in place what its
own process wrote.
-/

import MetricCatalog.Catalog.Storage
import MetricCatalog.Proofs.Files.Names
import MetricCatalog.Proofs.Uuid

namespace MetricCatalog

/-! ## Names -/

theorem notMem_format (id : Uuid) : '/' ∉ id.format.toList := by
  have hdigits : '/' ∉ id.digits := fun hmem =>
    absurd (Uuid.isHexDigit_of_mem_digits hmem) (by decide)
  have htake : ∀ drop take, '/' ∉ (id.digits.drop drop).take take := fun drop take hmem =>
    hdigits (List.mem_of_mem_drop (List.mem_of_mem_take hmem))
  have hfirst := htake 0 8
  rw [List.drop_zero] at hfirst
  have hlast : '/' ∉ id.digits.drop 20 := fun hmem => hdigits (List.mem_of_mem_drop hmem)
  simp [Uuid.format, Uuid.grouped, hfirst, htake, hlast]

namespace Storage

/-- The name of the file that is written first. -/
def temporaryName (storage : Storage) : String :=
  storage.path.fileName?.getD "" ++ "." ++ storage.process.format ++ ".tmp"

theorem toList_temporaryName (storage : Storage) :
    storage.temporaryName.toList = (storage.path.fileName?.getD "").toList ++
      '.' :: (storage.process.format.toList ++ ['.', 't', 'm', 'p']) := by
  simp [temporaryName]

theorem isName_temporaryName (storage : Storage) : Path.IsName storage.temporaryName where
  noSlash := by
    have hname : '/' ∉ (storage.path.fileName?.getD "").toList := by
      cases hname : storage.path.fileName? with
      | none => simp
      | some name => exact (Path.isName_of_fileName? hname).noSlash
    rw [toList_temporaryName]
    simp [hname, notMem_format]
  part := by
    have hlength : 2 < storage.temporaryName.toList.length := by
      rw [toList_temporaryName]
      simp
      omega
    have hne : ∀ short : List Char, short.length ≤ 2 → storage.temporaryName.toList ≠ short := by
      rintro short hshort heq
      rw [heq] at hlength
      omega
    rw [Path.innerPart?, if_neg (by simp [hne [] (by simp), hne ['.'] (by simp)]),
      if_neg (hne ['.', '.'] (by simp)), String.ofList_toList]

theorem fileName?_temporaryPath (storage : Storage) :
    storage.temporaryPath.fileName? = some storage.temporaryName := by
  have hpath : storage.temporaryPath = storage.path.withFileName storage.temporaryName := rfl
  rw [hpath, Path.withFileName]
  split
  · exact Path.fileName?_join _ storage.isName_temporaryName
  · exact Path.fileName?_join _ storage.isName_temporaryName

/-- The names tell the processes apart. -/
theorem temporaryName_ne {first second : Storage} (hpath : first.path = second.path)
    (hprocess : first.process.format ≠ second.process.format) :
    first.temporaryName ≠ second.temporaryName := by
  intro heq
  have hlist := congrArg String.toList heq
  rw [toList_temporaryName, toList_temporaryName, hpath] at hlist
  have hprocesses := List.append_cancel_left hlist
  exact hprocess (String.toList_inj.mp (List.append_cancel_right (List.cons.inj hprocesses).2))

theorem temporaryName_ne_fileName {storage : Storage} {name : String}
    (hname : storage.path.fileName? = some name) : storage.temporaryName ≠ name := by
  intro heq
  have hlength := congrArg (·.toList.length) heq
  simp only [toList_temporaryName, hname] at hlength
  simp at hlength

end Storage

/-! ## Steps -/

namespace FileTree

variable {tree next : FileTree}

/-- Paths with different names at their ends lead to different names. -/
theorem resolve_ne {first second : Path} {names : List String} {left right : String}
    (hfirst : first.fileName? = some left) (hsecond : second.fileName? = some right)
    (hne : left ≠ right) (hresolve : tree.resolve first = .ok names) :
    tree.resolve first ≠ tree.resolve second := by
  intro heq
  have hleft := getLast?_of_resolve hfirst hresolve
  have hright := getLast?_of_resolve hsecond (heq.symm.trans hresolve)
  exact hne (Option.some.inj (hleft.symm.trans hright))

theorem fileName?_of_not_meansDirectory {path : Path} (hmeans : meansDirectory path = false) :
    ∃ name, path.fileName? = some name := by
  have hsome := Path.splitSlashes_ne_nil path.text.toList
  have hlast := List.getLast?_eq_some_getLast hsome
  unfold meansDirectory at hmeans
  rw [Path.segments, hlast] at hmeans
  simp only [Bool.or_eq_false_iff, decide_eq_false_iff_not] at hmeans
  generalize (Path.splitSlashes path.text.toList).getLast hsome = last at hlast hmeans
  refine ⟨String.ofList last, Path.fileName?_of_getLast? hlast ?_⟩
  rw [Path.innerPart?, if_neg (by simp [hmeans.1.1, hmeans.1.2]), if_neg hmeans.2]

theorem fileName?_of_read {path : Path} {contents : Contents}
    (hread : tree.read path = .ok contents) : ∃ name, path.fileName? = some name := by
  obtain ⟨names, modified, hresolve, hentry⟩ := entry?_of_read hread
  exact fileName?_of_not_meansDirectory ((resolve_eq_ok.mp hresolve).2.2 ⟨_, _, hentry⟩)

end FileTree

namespace FileStep

variable {now : Instant} {tree next : FileTree} {step : FileStep} {rest : List FileStep}
  {outcome : Except (Path × OsError) Unit}

/-- Either the first step cannot be done, and nothing is, or the others follow it. -/
theorem performAll_cons (hall : performAll now tree (step :: rest) = (outcome, next)) :
    (∃ error, step.perform now tree = .error error ∧ outcome = .error (step.place, error) ∧
      next = tree) ∨
    ∃ middle, step.perform now tree = .ok middle ∧
      performAll now middle rest = (outcome, next) := by
  rw [performAll] at hall
  cases hperform : step.perform now tree with
  | error error =>
      rw [hperform] at hall
      cases hall
      exact Or.inl ⟨error, rfl, rfl, rfl⟩
  | ok middle =>
      rw [hperform] at hall
      exact Or.inr ⟨middle, rfl, hall⟩

end FileStep

namespace Storage

variable {own other : Storage} {tree next : FileTree} {catalog : Catalog} {now : Instant}

/-- Writing the first file leaves the catalog at the path. -/
theorem read_path_write {contents found : Contents}
    (hwrite : tree.write own.temporaryPath contents now = .ok next)
    (hread : tree.read own.path = .ok found) : next.read own.path = .ok found := by
  obtain ⟨name, hname⟩ := FileTree.fileName?_of_read hread
  obtain ⟨names, modified, hresolve, hentry⟩ := FileTree.entry?_of_read hread
  apply FileTree.read_write_of_ne hwrite hread
  exact FileTree.resolve_ne hname own.fileName?_temporaryPath
    (temporaryName_ne_fileName hname).symm hresolve

/-- What one process has half written is not touched by the first file of another one. -/
theorem read_temporary_write {contents found : Contents} (hpath : other.path = own.path)
    (hprocess : other.process.format ≠ own.process.format)
    (hwrite : tree.write own.temporaryPath contents now = .ok next)
    (hread : tree.read other.temporaryPath = .ok found) :
    next.read other.temporaryPath = .ok found := by
  obtain ⟨names, modified, hresolve, hentry⟩ := FileTree.entry?_of_read hread
  apply FileTree.read_write_of_ne hwrite hread
  exact FileTree.resolve_ne other.fileName?_temporaryPath own.fileName?_temporaryPath
    (temporaryName_ne hpath hprocess) hresolve

/-- Nor is it touched when the catalog of another one is put in place. -/
theorem read_temporary_rename {contents found : Contents} (hpath : other.path = own.path)
    (hprocess : other.process.format ≠ own.process.format)
    (hown : tree.read own.temporaryPath = .ok contents)
    (hrename : tree.rename own.temporaryPath own.path = .ok next)
    (hread : tree.read other.temporaryPath = .ok found) :
    next.read other.temporaryPath = .ok found := by
  obtain ⟨names, modified, hresolve, hentry⟩ := FileTree.entry?_of_read hread
  obtain ⟨name, hname⟩ := FileTree.fileName?_of_read (FileTree.read_rename hown hrename)
  apply FileTree.read_rename_of_ne hown hrename hread
  · exact FileTree.resolve_ne other.fileName?_temporaryPath own.fileName?_temporaryPath
      (temporaryName_ne hpath hprocess) hresolve
  · refine FileTree.resolve_ne other.fileName?_temporaryPath hname ?_ hresolve
    exact temporaryName_ne_fileName (hpath ▸ hname)

/-- What can be left of the steps that write a catalog. -/
inductive Phase (storage : Storage) (catalog : Catalog) : List FileStep → Prop
  | directories (parent : Path) : Phase storage catalog
      [.makeDirectories parent, .write storage.temporaryPath (encode catalog),
        .rename storage.temporaryPath storage.path]
  | write : Phase storage catalog [.write storage.temporaryPath (encode catalog),
      .rename storage.temporaryPath storage.path]
  | rename : Phase storage catalog [.rename storage.temporaryPath storage.path]
  | done : Phase storage catalog []

theorem phase_writeSteps (storage : Storage) (catalog : Catalog) :
    storage.Phase catalog (storage.writeSteps catalog) := by
  unfold writeSteps
  split
  · split
    · exact .write
    · exact .directories _
  · exact .write

theorem writeSteps_ne_rename (storage : Storage) (catalog : Catalog) :
    storage.writeSteps catalog ≠ [.rename storage.temporaryPath storage.path] := by
  intro heq
  have hlength := congrArg List.length heq
  simp [writeSteps] at hlength

theorem writeSteps_ne_nil (storage : Storage) (catalog : Catalog) :
    storage.writeSteps catalog ≠ [] := by
  simp [writeSteps]

/-- When only the renaming is left, the catalog is in the first file. -/
def Ready (storage : Storage) (catalog : Catalog) (remaining : List FileStep) (tree : FileTree) :
    Prop :=
  remaining = [.rename storage.temporaryPath storage.path] →
    tree.read storage.temporaryPath = .ok (.text (encode catalog))

variable {step : FileStep} {rest : List FileStep}

theorem Phase.tail (hphase : own.Phase catalog (step :: rest)) : own.Phase catalog rest := by
  cases hphase with
  | directories => exact .write
  | write => exact .rename
  | rename => exact .done

/-- A text is only written to the first file. -/
theorem Phase.path_of_write {path : Path} {text : String}
    (hphase : own.Phase catalog (.write path text :: rest)) : path = own.temporaryPath := by
  cases hphase with
  | write => rfl

/-- Only the last step is a renaming, and before it the catalog at the path stays. -/
theorem Phase.perform_path (hphase : own.Phase catalog (step :: rest))
    (hperform : step.perform now tree = .ok next) (hready : own.Ready catalog (step :: rest) tree) :
    (rest ≠ [] ∧ (∀ source target, step ≠ .rename source target) ∧
      ∀ found, tree.read own.path = .ok found → next.read own.path = .ok found) ∨
    (rest = [] ∧ step = .rename own.temporaryPath own.path ∧
      next.read own.path = .ok (.text (encode catalog))) := by
  cases hphase with
  | directories parent =>
      refine Or.inl ⟨by simp, by simp, fun found hread => ?_⟩
      exact (FileTree.makeDirectories_extends hperform).read hread
  | write => exact Or.inl ⟨by simp, by simp, fun found hread => read_path_write hperform hread⟩
  | rename => exact Or.inr ⟨rfl, rfl, FileTree.read_rename (hready rfl) hperform⟩

theorem Phase.perform_ready (hphase : own.Phase catalog (step :: rest))
    (hperform : step.perform now tree = .ok next) : own.Ready catalog rest next := by
  intro hrest
  cases hphase with
  | directories => cases hrest
  | write => exact FileTree.read_write hperform
  | rename => cases hrest

/-- The steps of writing, once all are done, leave the text of the catalog at its path. By
induction on the steps, of which the last is the renaming. -/
theorem Phase.read_of_performAll {steps : List FileStep} (hphase : own.Phase catalog steps)
    (hready : own.Ready catalog steps tree) (hsome : steps ≠ [])
    (hall : FileStep.performAll now tree steps = (.ok (), next)) :
    next.read own.path = .ok (.text (encode catalog)) := by
  induction steps generalizing tree with
  | nil => exact absurd rfl hsome
  | cons step rest ih =>
      obtain ⟨error, -, hfailed, -⟩ | ⟨middle, hperform, hrest⟩ := FileStep.performAll_cons hall
      · cases hfailed
      · obtain ⟨hmore, -⟩ | ⟨rfl, -, hread⟩ := hphase.perform_path hperform hready
        · exact ih hphase.tail (hphase.perform_ready hperform) hmore hrest
        · cases hrest
          exact hread

/-- The steps of one process leave alone what another one has ready. -/
theorem Phase.perform_other (hphase : own.Phase catalog (step :: rest))
    (hready : own.Ready catalog (step :: rest) tree) (hperform : step.perform now tree = .ok next)
    (hpath : other.path = own.path) (hprocess : other.process.format ≠ own.process.format)
    {later : Catalog} {remaining : List FileStep} (hother : other.Ready later remaining tree) :
    other.Ready later remaining next := by
  intro hremaining
  have hread := hother hremaining
  cases hphase with
  | directories => exact (FileTree.makeDirectories_extends hperform).read hread
  | write => exact read_temporary_write hpath hprocess hperform hread
  | rename => exact read_temporary_rename hpath hprocess (hready rfl) hperform hread

end Storage

end MetricCatalog
