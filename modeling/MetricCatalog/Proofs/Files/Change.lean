/-
# What a change to the files leaves alone

A path leads to the same names as long as no directory on its way is taken away,
and no operation on files does that. So what is written to a path, or renamed to
it, can be read from it afterwards.
-/

import MetricCatalog.Files.Tree
import MetricCatalog.Proofs.KeyMap

namespace MetricCatalog

/-- What is done in two steps is done if both of them are. -/
theorem exists_of_bind_eq_ok {ε α β : Type} {first : Except ε α} {later : α → Except ε β}
    {result : β} (hbind : first >>= later = .ok result) :
    ∃ value, first = .ok value ∧ later value = .ok result := by
  cases first with
  | error => cases hbind
  | ok value => exact ⟨value, rfl, hbind⟩

namespace PathPart

/-- Whether a part is too long for a directory. -/
def isLong : PathPart → Bool
  | name text => 255 < text.utf8ByteSize
  | _ => false

/-- The names one part further. -/
def next (base : List String) : PathPart → List String
  | root => []
  | current => base
  | parent => base.dropLast
  | name text => base ++ [text]

end PathPart

namespace FileTree

variable {tree next : FileTree} {names : List String} {path : Path}

/-- There is a directory at some names. -/
def HasDirectory (tree : FileTree) (names : List String) : Prop :=
  ∃ modified, tree.entry? names = some (.directory modified)

theorem hasDirectory_nil (tree : FileTree) : tree.HasDirectory [] := ⟨default, rfl⟩

theorem ne_nil_of_not_hasDirectory (hnames : ¬ tree.HasDirectory names) : names ≠ [] := by
  rintro rfl
  exact hnames tree.hasDirectory_nil

theorem not_hasDirectory {found : Option FileEntry} (hentry : tree.entry? names = found)
    (hother : ∀ modified, found ≠ some (.directory modified)) : ¬ tree.HasDirectory names := by
  rintro ⟨modified, hdirectory⟩
  exact hother modified (hentry.symm.trans hdirectory)

theorem entry?_eq_find? (tree : FileTree) (hnames : names ≠ []) :
    tree.entry? names = tree.entries.find? names := by
  cases names with
  | nil => exact absurd rfl hnames
  | cons => rfl

theorem entry?_put_self (hnames : names ≠ []) (entry : FileEntry) :
    entry? (tree.put names entry) names = some entry := by
  rw [entry?_eq_find? _ hnames]
  exact KeyMap.find?_insert_self tree.entries names entry

theorem entry?_put_of_ne {other : List String} (hne : other ≠ names) (entry : FileEntry) :
    entry? (tree.put names entry) other = tree.entry? other := by
  by_cases hother : other = []
  · rw [hother]
    rfl
  · rw [entry?_eq_find? _ hother, entry?_eq_find? _ hother]
    exact KeyMap.find?_insert_of_ne tree.entries hne entry

theorem entry?_move_target {source : List String} (hnames : names ≠ []) (entry : FileEntry) :
    entry? (tree.move source names entry) names = some entry := by
  rw [entry?_eq_find? _ hnames]
  exact KeyMap.find?_insert_self _ names entry

theorem entry?_move_of_ne {source other : List String} (hsource : other ≠ source)
    (htarget : other ≠ names) (entry : FileEntry) :
    entry? (tree.move source names entry) other = tree.entry? other := by
  by_cases hother : other = []
  · rw [hother]
    rfl
  · rw [entry?_eq_find? _ hother, entry?_eq_find? _ hother]
    exact (KeyMap.find?_insert_of_ne _ htarget entry).trans
      (KeyMap.find?_erase_of_ne tree.entries hsource)

/-! ## Following parts -/

/-- One part of the way: it starts from a directory, and its name has to be short. -/
theorem walk_cons (tree : FileTree) (base : List String) (part : PathPart)
    (rest : List PathPart) :
    tree.walk base (part :: rest) =
      match tree.entry? base with
      | none => .error .notFound
      | some (.file _ _) => .error .notDirectory
      | some (.directory _) =>
          if part.isLong then .error .nameTooLong else tree.walk (part.next base) rest := by
  rw [walk.eq_def]
  simp only
  cases tree.entry? base with
  | none => rfl
  | some entry =>
      cases entry with
      | file contents modified => rfl
      | directory modified =>
          cases part with
          | root | current | parent => simp [PathPart.next, PathPart.isLong]
          | name text => simp [PathPart.next, PathPart.isLong]

theorem walk_cons_eq_ok {base : List String} {part : PathPart} {rest : List PathPart} :
    tree.walk base (part :: rest) = .ok names ↔
      tree.HasDirectory base ∧ part.isLong = false ∧
        tree.walk (part.next base) rest = .ok names := by
  rw [walk_cons]
  constructor
  · intro hwalk
    split at hwalk
    · cases hwalk
    · cases hwalk
    · rename_i modified hbase
      split at hwalk
      · cases hwalk
      · rename_i hshort
        exact ⟨⟨modified, hbase⟩, Bool.eq_false_iff.mpr hshort, hwalk⟩
  · rintro ⟨⟨modified, hbase⟩, hshort, hwalk⟩
    simp only [hbase, hshort]
    exact hwalk

/-! ## Keeping directories -/

/-- All directories of a tree are still there. -/
structure Keeps (tree next : FileTree) : Prop where
  workingDirectory : next.workingDirectory = tree.workingDirectory
  directory : ∀ names, tree.HasDirectory names → next.HasDirectory names

theorem keeps_put (hnames : ¬ tree.HasDirectory names) (entry : FileEntry) :
    tree.Keeps (tree.put names entry) where
  workingDirectory := rfl
  directory := by
    rintro other ⟨modified, hother⟩
    have hne : other ≠ names := by
      rintro rfl
      exact hnames ⟨modified, hother⟩
    exact ⟨modified, by rw [entry?_put_of_ne hne, hother]⟩

theorem keeps_move {source : List String} (hsource : ¬ tree.HasDirectory source)
    (hnames : ¬ tree.HasDirectory names) (entry : FileEntry) :
    tree.Keeps (tree.move source names entry) where
  workingDirectory := rfl
  directory := by
    rintro other ⟨modified, hother⟩
    have hne : ∀ {names}, ¬ tree.HasDirectory names → other ≠ names := by
      rintro names hnames rfl
      exact hnames ⟨modified, hother⟩
    exact ⟨modified, by rw [entry?_move_of_ne (hne hsource) (hne hnames), hother]⟩

theorem Keeps.walk (hkeeps : tree.Keeps next) {parts : List PathPart} {base : List String}
    (hwalk : tree.walk base parts = .ok names) : next.walk base parts = .ok names := by
  induction parts generalizing base with
  | nil => exact hwalk
  | cons part rest ih =>
      obtain ⟨hbase, hshort, hrest⟩ := walk_cons_eq_ok.mp hwalk
      exact walk_cons_eq_ok.mpr ⟨hkeeps.directory base hbase, hshort, ih hrest⟩

/-- What a path has to be so that it can be followed at all. -/
structure IsFollowed (path : Path) : Prop where
  noZero : path.text.toList.contains '\x00' = false
  nonempty : path.text.isEmpty = false
  short : path.text.utf8ByteSize < 4096

/-- The names a path leads to may be those of a file, unless the path is written as that of a
directory. -/
def settleNames (tree : FileTree) (path : Path) (names : List String) :
    Except OsError (List String) :=
  match tree.entry? names with
  | some (.file _ _) => if meansDirectory path then .error .notDirectory else .ok names
  | _ => .ok names

theorem resolve_eq_ok : tree.resolve path = .ok names ↔
    IsFollowed path ∧ tree.walk tree.workingDirectory path.parts = .ok names ∧
      ((∃ contents modified, tree.entry? names = some (.file contents modified)) →
        meansDirectory path = false) := by
  have hresolve : tree.resolve path =
      if path.text.toList.contains '\x00' then .error .zeroInName
      else if path.text.isEmpty then .error .notFound
      else if 4096 ≤ path.text.utf8ByteSize then .error .nameTooLong
      else (tree.walk tree.workingDirectory path.parts).bind (tree.settleNames path) := rfl
  rw [hresolve]
  constructor
  · intro hok
    split at hok
    · cases hok
    split at hok
    · cases hok
    split at hok
    · cases hok
    rename_i hzero hempty hlong
    refine ⟨⟨by simpa using hzero, by simpa using hempty, by omega⟩, ?_⟩
    cases hwalk : tree.walk tree.workingDirectory path.parts with
    | error => simp [hwalk, Except.bind] at hok
    | ok found =>
        simp only [hwalk, Except.bind, settleNames] at hok
        split at hok
        · rename_i hentry
          split at hok
          · cases hok
          · rename_i hmeans
            cases hok
            exact ⟨rfl, fun _ => by simpa using hmeans⟩
        · rename_i hentry
          cases hok
          refine ⟨rfl, ?_⟩
          rintro ⟨contents, modified, hfile⟩
          exact absurd hfile (hentry contents modified)
  · rintro ⟨⟨hzero, hempty, hshort⟩, hwalk, hfile⟩
    rw [if_neg (by simpa using hzero), if_neg (by simpa using hempty), if_neg (by omega), hwalk]
    simp only [Except.bind, settleNames]
    split
    · rename_i contents modified hentry
      rw [hfile ⟨contents, modified, hentry⟩]
      rfl
    · rfl

/-- A path that is not written as that of a directory leads to the same names after a change. -/
theorem Keeps.resolve (hkeeps : tree.Keeps next) (hmeans : meansDirectory path = false)
    (hresolve : tree.resolve path = .ok names) : next.resolve path = .ok names := by
  obtain ⟨hfollowed, hwalk, -⟩ := resolve_eq_ok.mp hresolve
  refine resolve_eq_ok.mpr ⟨hfollowed, ?_, fun _ => hmeans⟩
  rw [hkeeps.workingDirectory]
  exact hkeeps.walk hwalk

theorem lookup_of_entry? {entry : FileEntry} (hresolve : tree.resolve path = .ok names)
    (hentry : tree.entry? names = some entry) : tree.lookup path = .ok entry := by
  simp [lookup, hresolve, hentry, bind, Except.bind]

theorem read_of_entry? {contents : Contents} {modified : Instant}
    (hresolve : tree.resolve path = .ok names)
    (hentry : tree.entry? names = some (.file contents modified)) :
    tree.read path = .ok contents := by
  rw [read, lookup_of_entry? hresolve hentry]
  rfl

theorem entry?_of_read {contents : Contents} (hread : tree.read path = .ok contents) :
    ∃ names modified, tree.resolve path = .ok names ∧
      tree.entry? names = some (.file contents modified) := by
  obtain ⟨entry, hlookup, hread⟩ := exists_of_bind_eq_ok hread
  obtain ⟨names, hresolve, hlookup⟩ := exists_of_bind_eq_ok hlookup
  split at hlookup
  · rename_i hentry
    cases hlookup
    split at hread
    · cases hread
    · rename_i modified
      cases hread
      exact ⟨names, modified, hresolve, hentry⟩
  · cases hlookup

theorem readText_of_read {text : String} (hread : tree.read path = .ok (.text text)) :
    tree.readText path = .ok text := by
  rw [readText, hread]
  rfl

/-! ## Writing -/

theorem checkNewFile_eq_ok {complaint : OsError} :
    checkNewFile path complaint = .ok () ↔ meansDirectory path = false := by
  unfold checkNewFile
  cases meansDirectory path with
  | false => simp
  | true => by_cases hslash : endsWithSlash path = true <;> simp [hslash]

theorem write_eq_ok {contents : Contents} {now : Instant}
    (hwrite : tree.write path contents now = .ok next) :
    ∃ names, tree.resolve path = .ok names ∧ ¬ tree.HasDirectory names ∧
      meansDirectory path = false ∧ next = tree.put names (.file contents now) := by
  obtain ⟨names, hresolve, hwrite⟩ := exists_of_bind_eq_ok hwrite
  split at hwrite
  · cases hwrite
  · rename_i found modified hentry
    cases hwrite
    exact ⟨names, hresolve, not_hasDirectory hentry fun _ => nofun,
      (resolve_eq_ok.mp hresolve).2.2 ⟨found, modified, hentry⟩, rfl⟩
  · rename_i hentry
    obtain ⟨⟨⟩, hcheck, hwrite⟩ := exists_of_bind_eq_ok hwrite
    cases hwrite
    exact ⟨names, hresolve, not_hasDirectory hentry fun _ => nofun,
      checkNewFile_eq_ok.mp hcheck, rfl⟩

theorem lookup_write {contents : Contents} {now : Instant}
    (hwrite : tree.write path contents now = .ok next) :
    next.lookup path = .ok (.file contents now) := by
  obtain ⟨names, hresolve, hfree, hmeans, rfl⟩ := write_eq_ok hwrite
  apply lookup_of_entry?
  · exact (keeps_put hfree _).resolve hmeans hresolve
  · exact entry?_put_self (ne_nil_of_not_hasDirectory hfree) _

/-- What is written to a path is read from it. -/
theorem read_write {contents : Contents} {now : Instant}
    (hwrite : tree.write path contents now = .ok next) : next.read path = .ok contents := by
  rw [read, lookup_write hwrite]
  rfl

/-- A file that has been written shows when. -/
theorem modified_write {contents : Contents} {now : Instant}
    (hwrite : tree.write path contents now = .ok next) : next.modified path = .ok now := by
  rw [modified, lookup_write hwrite]
  rfl

/-! ## Renaming -/

/-- A file is taken from its names and put at those of the other path. -/
theorem rename_eq_ok {source target : Path} {contents : Contents}
    (hread : tree.read source = .ok contents) (hrename : tree.rename source target = .ok next) :
    ∃ sourceNames targetNames modified, tree.resolve source = .ok sourceNames ∧
      tree.entry? sourceNames = some (.file contents modified) ∧
      tree.resolve target = .ok targetNames ∧ ¬ tree.HasDirectory targetNames ∧
      meansDirectory target = false ∧
      next = tree.move sourceNames targetNames (.file contents modified) := by
  obtain ⟨sourceNames, modified, hsource, hentry⟩ := entry?_of_read hread
  obtain ⟨names, hnames, hrename⟩ := exists_of_bind_eq_ok hrename
  obtain rfl := Except.ok.inj (hnames.symm.trans hsource)
  obtain ⟨targetNames, htarget, hrename⟩ := exists_of_bind_eq_ok hrename
  refine ⟨names, targetNames, modified, hsource, hentry, htarget, ?_⟩
  rw [hentry] at hrename
  cases hfound : tree.entry? targetNames with
  | none =>
      rw [hfound] at hrename
      obtain ⟨⟨⟩, hcheck, hrename⟩ := exists_of_bind_eq_ok hrename
      cases hrename
      exact ⟨not_hasDirectory hfound fun _ => nofun, checkNewFile_eq_ok.mp hcheck, rfl⟩
  | some entry =>
      rw [hfound] at hrename
      cases entry with
      | directory => cases hrename
      | file other written =>
          cases hrename
          exact ⟨not_hasDirectory hfound fun _ => nofun,
            (resolve_eq_ok.mp htarget).2.2 ⟨other, written, hfound⟩, rfl⟩

/-- What could be read from a path is read from the path it was renamed to. -/
theorem read_rename {source target : Path} {contents : Contents}
    (hread : tree.read source = .ok contents) (hrename : tree.rename source target = .ok next) :
    next.read target = .ok contents := by
  obtain ⟨sourceNames, targetNames, modified, -, hentry, htarget, hfree, hmeans, rfl⟩ :=
    rename_eq_ok hread hrename
  have hsource := not_hasDirectory hentry fun _ => nofun
  apply read_of_entry?
  · exact (keeps_move hsource hfree _).resolve hmeans htarget
  · exact entry?_move_target (ne_nil_of_not_hasDirectory hfree) _

/-! ## Making directories -/

/-- All that was there is still there, with more beside it. -/
structure Extends (tree next : FileTree) : Prop where
  workingDirectory : next.workingDirectory = tree.workingDirectory
  entry : ∀ names entry, tree.entry? names = some entry → next.entry? names = some entry

theorem Extends.refl (tree : FileTree) : tree.Extends tree := ⟨rfl, fun _ _ => id⟩

theorem Extends.trans {middle : FileTree} (hfirst : tree.Extends middle)
    (hsecond : middle.Extends next) : tree.Extends next where
  workingDirectory := hsecond.workingDirectory.trans hfirst.workingDirectory
  entry names entry hentry := hsecond.entry names entry (hfirst.entry names entry hentry)

theorem Extends.keeps (hextends : tree.Extends next) : tree.Keeps next where
  workingDirectory := hextends.workingDirectory
  directory := by
    rintro names ⟨modified, hentry⟩
    exact ⟨modified, hextends.entry names _ hentry⟩

/-- What can be read can still be read when only directories were made. -/
theorem Extends.read (hextends : tree.Extends next) {contents : Contents}
    (hread : tree.read path = .ok contents) : next.read path = .ok contents := by
  obtain ⟨names, modified, hresolve, hentry⟩ := entry?_of_read hread
  apply read_of_entry? _ (hextends.entry names _ hentry)
  exact hextends.keeps.resolve ((resolve_eq_ok.mp hresolve).2.2 ⟨_, _, hentry⟩) hresolve

theorem extends_put (hnames : tree.entry? names = none) (entry : FileEntry) :
    tree.Extends (tree.put names entry) where
  workingDirectory := rfl
  entry := by
    intro other found hfound
    have hne : other ≠ names := by
      rintro rfl
      rw [hnames] at hfound
      cases hfound
    rw [entry?_put_of_ne hne, hfound]

theorem makeDirectory_eq_ok {now : Instant} (hmake : tree.makeDirectory path now = .ok next) :
    ∃ names, tree.resolve path = .ok names ∧ tree.entry? names = none ∧
      next = tree.put names (.directory now) := by
  obtain ⟨names, hresolve, hmake⟩ := exists_of_bind_eq_ok hmake
  split at hmake
  · cases hmake
  · rename_i hnone
    split at hmake
    · cases hmake
    · cases hmake
      exact ⟨names, hresolve, hnone, rfl⟩

/-- What a directory changes that is made where nothing was, any number of directories change. -/
theorem makeDirectoriesFrom_induct (changes : FileTree → FileTree → Prop)
    (hrefl : ∀ tree, changes tree tree)
    (htrans : ∀ {first middle last}, changes first middle → changes middle last →
      changes first last)
    (hput : ∀ {tree path names} made, resolve tree path = .ok names → entry? tree names = none →
      changes tree (tree.put names (.directory made)))
    {now : Instant} {depth : Nat} (hmake : makeDirectoriesFrom now depth tree path = .ok next) :
    changes tree next := by
  have hone : ∀ {tree next : FileTree} {path : Path}, tree.makeDirectory path now = .ok next →
      changes tree next := by
    intro tree next path hmake
    obtain ⟨names, hresolve, hnone, rfl⟩ := makeDirectory_eq_ok hmake
    exact hput now hresolve hnone
  induction depth generalizing tree next path with
  | zero => cases hmake
  | succ depth ih =>
      rw [makeDirectoriesFrom] at hmake
      split at hmake
      · cases hmake
        exact hrefl _
      · split at hmake
        · rename_i hdone
          cases hmake
          exact hone hdone
        · split at hmake
          · cases hmake
          · rename_i parent _
            cases habove : makeDirectoriesFrom now depth tree parent with
            | error error =>
                rw [habove] at hmake
                cases hmake
            | ok above =>
                rw [habove] at hmake
                change (if above.isDirectory path then _ else _) = _ at hmake
                split at hmake
                · cases hmake
                  exact ih habove
                · exact htrans (ih habove) (hone hmake)
        · split at hmake
          · cases hmake
            exact hrefl _
          · cases hmake

theorem makeDirectories_extends {now : Instant} (hmake : tree.makeDirectories path now = .ok next) :
    tree.Extends next :=
  makeDirectoriesFrom_induct Extends Extends.refl Extends.trans
    (fun made _ hnone => extends_put hnone (.directory made)) hmake

/-! ## Other files -/

/-- What is written to one path leaves what can be read from a path that leads elsewhere. -/
theorem read_write_of_ne {other : Path} {contents found : Contents} {now : Instant}
    (hwrite : tree.write path contents now = .ok next) (hread : tree.read other = .ok found)
    (hne : tree.resolve other ≠ tree.resolve path) : next.read other = .ok found := by
  obtain ⟨names, hresolve, hfree, -, rfl⟩ := write_eq_ok hwrite
  obtain ⟨otherNames, modified, hother, hentry⟩ := entry?_of_read hread
  have hnames : otherNames ≠ names := by
    rintro rfl
    exact hne (hother.trans hresolve.symm)
  apply read_of_entry?
  · exact (keeps_put hfree _).resolve ((resolve_eq_ok.mp hother).2.2 ⟨_, _, hentry⟩) hother
  · rw [entry?_put_of_ne hnames, hentry]

theorem read_rename_of_ne {source target other : Path} {contents found : Contents}
    (hsource : tree.read source = .ok contents) (hrename : tree.rename source target = .ok next)
    (hread : tree.read other = .ok found) (hfirst : tree.resolve other ≠ tree.resolve source)
    (hsecond : tree.resolve other ≠ tree.resolve target) : next.read other = .ok found := by
  obtain ⟨sourceNames, targetNames, _, hsourceNames, hmoved, htargetNames, hfree, -, rfl⟩ :=
    rename_eq_ok hsource hrename
  obtain ⟨otherNames, modified, hother, hentry⟩ := entry?_of_read hread
  have hdirectory := not_hasDirectory hmoved fun _ => nofun
  apply read_of_entry?
  · exact (keeps_move hdirectory hfree _).resolve
      ((resolve_eq_ok.mp hother).2.2 ⟨_, _, hentry⟩) hother
  · rw [entry?_move_of_ne _ _, hentry]
    · rintro rfl
      exact hfirst (hother.trans hsourceNames.symm)
    · rintro rfl
      exact hsecond (hother.trans htargetNames.symm)

end FileTree

end MetricCatalog
