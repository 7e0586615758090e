/-
# Paths that lead nowhere

Nothing can be read from a path that leads nowhere, and that stays so when the
directories above it are made or another file is written beside it. But the path
has to be plain. Where a directory is missing on the way, a double point behind
it would lead elsewhere once it is made, and a name that is too long would be
noticed then.
-/

import MetricCatalog.Proofs.Files.Above

namespace MetricCatalog

namespace Path

/-- A path goes down only, and by names that a directory can have. -/
structure IsPlain (path : Path) : Prop where
  down : .parent ∉ path.parts
  short : ∀ part ∈ path.parts, part.isLong = false

/-- A path is another one or above it. -/
inductive IsAbove : Path → Path → Prop
  | self (path : Path) : IsAbove path path
  | up {path parent above : Path} (hparent : path.parent? = some parent)
      (habove : IsAbove above parent) : IsAbove above path

/-- The root and the single point stand in front only. -/
theorem notMem_tail_parts {path : Path} {part : PathPart} (hpart : part ∈ path.parts.tail) :
    part ≠ .root ∧ part ≠ .current := by
  have hfront := length_frontOf_le path.segments
  rw [parts_eq] at hpart
  rcases hcases : frontOf path.segments with _ | ⟨first, _ | _⟩
  · rw [hcases] at hpart
    exact mem_innerOf (List.mem_of_mem_tail hpart)
  · rw [hcases] at hpart
    exact mem_innerOf hpart
  · rw [hcases] at hfront
    simp at hfront

theorem IsAbove.parts {above path : Path} (habove : above.IsAbove path) :
    ∃ more, above.parts ++ more = path.parts := by
  induction habove with
  | self path => exact ⟨[], List.append_nil _⟩
  | @up path parent above hparent _ ih =>
      obtain ⟨more, hmore⟩ := ih
      obtain ⟨last, hlast, -⟩ := exists_getLast?_of_parent? hparent
      obtain ⟨front, hfront⟩ := List.getLast?_eq_some_iff.mp hlast
      refine ⟨more ++ [last], ?_⟩
      rw [← List.append_assoc, hmore, parts_parent? hparent, hfront, List.dropLast_concat]

end Path

namespace FileTree

/-- The names that parts lead to, if all directories on the way are there. -/
def namesFrom (base : List String) (parts : List PathPart) : List String :=
  parts.foldl PathPart.next base

/-- The names on the way that have to be those of directories. -/
def waypoints (base : List String) : List PathPart → List (List String)
  | [] => []
  | part :: rest => base :: waypoints (part.next base) rest

/-- There is a file at some names. -/
def HasFile (tree : FileTree) (names : List String) : Prop :=
  ∃ contents modified, tree.entry? names = some (.file contents modified)

/-- Whatever has a name stands in a directory, and the working directory is one. -/
structure IsRooted (tree : FileTree) : Prop where
  directory : ∀ names name entry, tree.entry? (names ++ [name]) = some entry →
    tree.HasDirectory names
  workingDirectory : tree.HasDirectory tree.workingDirectory

/-- Nothing stands where a path leads, and no file is in its way. -/
structure IsClear (tree : FileTree) (path : Path) : Prop where
  followed : IsFollowed path
  nothing : tree.entry? (namesFrom tree.workingDirectory path.parts) = none
  way : ∀ names ∈ waypoints tree.workingDirectory path.parts, ¬ tree.HasFile names
  workingDirectory : tree.HasDirectory tree.workingDirectory

/-- A path leads nowhere. The empty one never leads anywhere. -/
def Lacks (tree : FileTree) (path : Path) : Prop :=
  path.text.isEmpty = true ∨ tree.IsClear path

variable {tree next : FileTree} {path : Path} {names base : List String} {parts : List PathPart}

/-! ## Where parts lead -/

theorem namesFrom_append (base : List String) (first second : List PathPart) :
    namesFrom base (first ++ second) = namesFrom (namesFrom base first) second :=
  List.foldl_append

theorem waypoints_append (base : List String) (first second : List PathPart) :
    waypoints base (first ++ second) =
      waypoints base first ++ waypoints (namesFrom base first) second := by
  induction first generalizing base with
  | nil => rfl
  | cons part rest ih =>
      rw [List.cons_append, waypoints, waypoints, ih]
      rfl

/-- By induction on the parts: names make the way longer. -/
theorem length_namesFrom (hnames : ∀ part ∈ parts, ∃ text, part = .name text)
    (base : List String) : (namesFrom base parts).length = base.length + parts.length := by
  induction parts generalizing base with
  | nil => rfl
  | cons part rest ih =>
      obtain ⟨⟨text, rfl⟩, hrest⟩ := List.forall_mem_cons.mp hnames
      show (namesFrom (base ++ [text]) rest).length = _
      rw [ih hrest, List.length_append, List.length_singleton, List.length_cons]
      omega

/-- The way does not go back by names and single points. -/
theorem exists_append_of_down (hdown : .parent ∉ parts) (hroot : .root ∉ parts)
    (base : List String) :
    (∃ more, namesFrom base parts = base ++ more) ∧
      ∀ names ∈ waypoints base parts, ∃ more, names = base ++ more := by
  induction parts generalizing base with
  | nil => exact ⟨⟨[], (List.append_nil _).symm⟩, by simp [waypoints]⟩
  | cons part rest ih =>
      simp only [List.mem_cons, not_or] at hdown hroot
      obtain ⟨added, hadded⟩ : ∃ added, part.next base = base ++ added := by
        cases part with
        | root => exact absurd rfl hroot.1
        | parent => exact absurd rfl hdown.1
        | current => exact ⟨[], (List.append_nil _).symm⟩
        | name text => exact ⟨[text], rfl⟩
      obtain ⟨⟨more, hmore⟩, hway⟩ := ih hdown.2 hroot.2 (part.next base)
      rw [hadded] at hmore hway
      constructor
      · refine ⟨added ++ more, ?_⟩
        rw [← List.append_assoc, ← hmore, ← hadded]
        rfl
      · intro names hmem
        rcases List.mem_cons.mp hmem with rfl | hmem
        · exact ⟨[], (List.append_nil _).symm⟩
        · rw [hadded] at hmem
          obtain ⟨later, rfl⟩ := hway names hmem
          exact ⟨added ++ later, List.append_assoc ..⟩

/-! ## Following parts -/

/-- Parts that can be followed lead to their names, by directories. -/
theorem walk_eq_ok (hwalk : tree.walk base parts = .ok names) :
    names = namesFrom base parts ∧ ∀ point ∈ waypoints base parts, tree.HasDirectory point := by
  induction parts generalizing base with
  | nil =>
      rw [walk.eq_def] at hwalk
      cases hwalk
      exact ⟨rfl, by simp [waypoints]⟩
  | cons part rest ih =>
      obtain ⟨hbase, -, hrest⟩ := walk_cons_eq_ok.mp hwalk
      obtain ⟨hnames, hway⟩ := ih hrest
      exact ⟨hnames, List.forall_mem_cons.mpr ⟨hbase, hway⟩⟩

/-- With no file in the way, parts lead to their names or nowhere. -/
theorem walk_of_clear (hway : ∀ point ∈ waypoints base parts, ¬ tree.HasFile point)
    (hshort : ∀ part ∈ parts, part.isLong = false) :
    tree.walk base parts = .ok (namesFrom base parts) ∨
      tree.walk base parts = .error .notFound := by
  induction parts generalizing base with
  | nil =>
      rw [walk.eq_def]
      exact Or.inl rfl
  | cons part rest ih =>
      obtain ⟨hbase, hway⟩ := List.forall_mem_cons.mp hway
      obtain ⟨hpart, hshort⟩ := List.forall_mem_cons.mp hshort
      rw [walk_cons]
      split
      · exact Or.inr rfl
      · rename_i contents modified hfile
        exact absurd ⟨contents, modified, hfile⟩ hbase
      · rw [hpart]
        exact ih hway hshort

theorem IsRooted.entry?_append (hrooted : tree.IsRooted) (hnone : tree.entry? base = none)
    (more : List String) : tree.entry? (base ++ more) = none := by
  induction more using List.reverseRecOn with
  | nil => rwa [List.append_nil]
  | append_singleton more name ih =>
      cases hentry : tree.entry? (base ++ (more ++ [name])) with
      | none => rfl
      | some entry =>
          rw [← List.append_assoc] at hentry
          obtain ⟨modified, hdirectory⟩ := hrooted.directory _ _ _ hentry
          rw [ih] at hdirectory
          cases hdirectory

/-- By induction on the parts: where a directory is missing, there is nothing behind it. -/
theorem IsRooted.clear_of_walk (hrooted : tree.IsRooted) (hdown : .parent ∉ parts)
    (hroot : .root ∉ parts) (hwalk : tree.walk base parts = .error .notFound) :
    tree.entry? (namesFrom base parts) = none ∧
      ∀ point ∈ waypoints base parts, ¬ tree.HasFile point := by
  induction parts generalizing base with
  | nil =>
      rw [walk.eq_def] at hwalk
      cases hwalk
  | cons part rest ih =>
      rw [walk_cons] at hwalk
      split at hwalk
      · rename_i hnone
        obtain ⟨⟨more, hmore⟩, hway⟩ := exists_append_of_down hdown hroot base
        rw [hmore]
        refine ⟨hrooted.entry?_append hnone more, ?_⟩
        rintro point hpoint ⟨contents, modified, hfile⟩
        obtain ⟨later, rfl⟩ := hway point hpoint
        rw [hrooted.entry?_append hnone later] at hfile
        cases hfile
      · cases hwalk
      · rename_i modified hbase
        split at hwalk
        · cases hwalk
        · simp only [List.mem_cons, not_or] at hdown hroot
          obtain ⟨hnothing, hway⟩ := ih hdown.2 hroot.2 hwalk
          refine ⟨hnothing, List.forall_mem_cons.mpr ⟨?_, hway⟩⟩
          rintro ⟨contents, written, hfile⟩
          rw [hbase] at hfile
          cases hfile

/-! ## Reading -/

theorem resolve_of_isEmpty (hempty : path.text.isEmpty = true) :
    tree.resolve path = .error .notFound := by
  have hnil : path.text = "" := String.isEmpty_iff.mp hempty
  simp [resolve, hnil]

/-- Nothing can be read from a path that leads nowhere. -/
theorem Lacks.read_eq (hlacks : tree.Lacks path) (hplain : path.IsPlain) :
    tree.read path = .error .notFound := by
  rw [read, lookup]
  rcases hlacks with hempty | hclear
  · rw [resolve_of_isEmpty hempty]
    rfl
  · obtain ⟨⟨hzero, hempty, hshort⟩, hnothing, hway, -⟩ := hclear
    have hresolve : tree.resolve path =
        (tree.walk tree.workingDirectory path.parts).bind (tree.settleNames path) := by
      rw [resolve, hzero, hempty, if_neg (by simp), if_neg (by simp), if_neg (by omega)]
      rfl
    rw [hresolve]
    rcases walk_of_clear hway hplain.short with hwalk | hwalk
    · simp [hwalk, Except.bind, settleNames, hnothing, bind]
    · simp [hwalk, Except.bind, bind]

theorem HasDirectory.not_hasFile (hdirectory : tree.HasDirectory names) :
    ¬ tree.HasFile names := by
  obtain ⟨made, hdirectory⟩ := hdirectory
  rintro ⟨contents, modified, hfile⟩
  rw [hdirectory] at hfile
  cases hfile

/-- Parts that may begin at the root lead nowhere if a directory is missing on the way. -/
theorem IsRooted.clear_of_walk_parts (hrooted : tree.IsRooted) (hdown : .parent ∉ path.parts)
    (hwalk : tree.walk tree.workingDirectory path.parts = .error .notFound) :
    tree.entry? (namesFrom tree.workingDirectory path.parts) = none ∧
      ∀ point ∈ waypoints tree.workingDirectory path.parts, ¬ tree.HasFile point := by
  have htail : .root ∉ path.parts.tail := fun hmem => (Path.notMem_tail_parts hmem).1 rfl
  generalize path.parts = parts at hdown hwalk htail
  rcases parts with _ | ⟨part, rest⟩
  · exact hrooted.clear_of_walk hdown (by simp) hwalk
  · by_cases hpart : part = .root
    · subst hpart
      obtain ⟨made, hmade⟩ := hrooted.workingDirectory
      rw [walk_cons, hmade] at hwalk
      obtain ⟨hnothing, hway⟩ :=
        hrooted.clear_of_walk (not_or.mp (mt List.mem_cons.mpr hdown)).2 htail hwalk
      refine ⟨hnothing, List.forall_mem_cons.mpr ⟨?_, hway⟩⟩
      exact hrooted.workingDirectory.not_hasFile
    · have hroot : .root ∉ part :: rest := by
        intro hmem
        rcases List.mem_cons.mp hmem with heq | hmem
        · exact hpart heq.symm
        · exact htail hmem
      exact hrooted.clear_of_walk hdown hroot hwalk

/-- From where nothing is found, a plain path leads nowhere. -/
theorem IsRooted.lacks (hrooted : tree.IsRooted) (hplain : path.IsPlain)
    (hread : tree.read path = .error .notFound) : tree.Lacks path := by
  by_cases hempty : path.text.isEmpty = true
  · exact Or.inl hempty
  right
  rw [read, lookup] at hread
  by_cases hzero : path.text.toList.contains '\x00' = true
  · rw [show tree.resolve path = .error .zeroInName by rw [resolve, if_pos hzero]] at hread
    cases hread
  by_cases hlong : 4096 ≤ path.text.utf8ByteSize
  · rw [show tree.resolve path = .error .nameTooLong by
      rw [resolve, if_neg hzero, if_neg hempty, if_pos hlong]] at hread
    cases hread
  have hfollowed : IsFollowed path := ⟨by simpa using hzero, by simpa using hempty, by omega⟩
  have hresolve : tree.resolve path =
      (tree.walk tree.workingDirectory path.parts).bind (tree.settleNames path) := by
    rw [resolve, if_neg hzero, if_neg hempty, if_neg hlong]
    rfl
  rw [hresolve] at hread
  cases hwalk : tree.walk tree.workingDirectory path.parts with
  | error error =>
      rw [hwalk] at hread
      cases hread
      obtain ⟨hnothing, hway⟩ := hrooted.clear_of_walk_parts hplain.down hwalk
      exact ⟨hfollowed, hnothing, hway, hrooted.workingDirectory⟩
  | ok names =>
      obtain ⟨rfl, hway⟩ := walk_eq_ok hwalk
      refine ⟨hfollowed, ?_, fun point hpoint => (hway point hpoint).not_hasFile,
        hrooted.workingDirectory⟩
      cases hentry : tree.entry? (namesFrom tree.workingDirectory path.parts) with
      | none => rfl
      | some entry =>
          cases entry with
          | directory made => simp [hwalk, bind, Except.bind, settleNames, hentry] at hread
          | file contents modified =>
              by_cases hmeans : meansDirectory path = true
              · simp [hwalk, bind, Except.bind, settleNames, hentry, hmeans] at hread
              · simp [hwalk, bind, Except.bind, settleNames, hentry, hmeans] at hread

/-! ## What leaves it so -/

/-- Where nothing was, something else may be put beside the path, and a directory on its way. -/
theorem IsClear.put (hclear : tree.IsClear path) {entry : FileEntry}
    (hfree : ¬ tree.HasDirectory names)
    (hbeside : names ≠ namesFrom tree.workingDirectory path.parts)
    (hway : names ∈ waypoints tree.workingDirectory path.parts →
      ∃ made, entry = .directory made) :
    (tree.put names entry).IsClear path where
  followed := hclear.followed
  nothing := by
    show FileTree.entry? _ (namesFrom tree.workingDirectory path.parts) = none
    rw [entry?_put_of_ne (Ne.symm hbeside)]
    exact hclear.nothing
  way := by
    intro point hpoint
    change point ∈ waypoints tree.workingDirectory path.parts at hpoint
    by_cases hsame : point = names
    · subst hsame
      obtain ⟨made, rfl⟩ := hway hpoint
      apply HasDirectory.not_hasFile
      exact ⟨made, entry?_put_self (ne_nil_of_not_hasDirectory hfree) _⟩
    · rintro ⟨contents, modified, hfile⟩
      rw [entry?_put_of_ne hsame] at hfile
      exact hclear.way point hpoint ⟨contents, modified, hfile⟩
  workingDirectory := (keeps_put hfree entry).directory _ hclear.workingDirectory

/-- A path leads further than one above it. -/
theorem namesFrom_ne_of_above {above : Path} {more : List PathPart} (hdown : .parent ∉ path.parts)
    (hparts : above.parts ++ more = path.parts) (hmore : more ≠ []) (hnonempty : above.parts ≠ []) :
    namesFrom base above.parts ≠ namesFrom base path.parts := by
  have hnames : ∀ part ∈ more, ∃ text, part = .name text := by
    intro part hpart
    have htail : part ∈ path.parts.tail := by
      rw [← hparts, List.tail_append_of_ne_nil hnonempty]
      exact List.mem_append_right _ hpart
    have hbelow := Path.notMem_tail_parts htail
    cases part with
    | root => exact absurd rfl hbelow.1
    | current => exact absurd rfl hbelow.2
    | parent => exact absurd (List.mem_of_mem_tail htail) hdown
    | name text => exact ⟨text, rfl⟩
  intro heq
  have hlength := congrArg List.length heq
  rw [← hparts, namesFrom_append, length_namesFrom hnames] at hlength
  have hpositive := List.length_pos_iff.mpr hmore
  omega

/-- A directory that is made above the path leaves it leading nowhere. -/
theorem IsClear.makeDirectory (hclear : tree.IsClear path) (hdown : .parent ∉ path.parts)
    {above : Path} {more : List PathPart} {now : Instant}
    (hparts : above.parts ++ more = path.parts) (hmore : more ≠ [])
    (hmake : tree.makeDirectory above now = .ok next) : next.IsClear path := by
  obtain ⟨names, hresolve, hnone, rfl⟩ := makeDirectory_eq_ok hmake
  obtain ⟨rfl, -⟩ := walk_eq_ok (resolve_eq_ok.mp hresolve).2.1
  have hfree : ¬ tree.HasDirectory (namesFrom tree.workingDirectory above.parts) := by
    rintro ⟨made, hmade⟩
    rw [hnone] at hmade
    cases hmade
  apply hclear.put hfree
  · apply namesFrom_ne_of_above hdown hparts hmore
    intro hempty
    rw [hempty] at hfree
    exact hfree hclear.workingDirectory
  · exact fun _ => ⟨now, rfl⟩

/-- By induction on the way up. -/
theorem IsClear.makeDirectoriesFrom {depth : Nat} {above : Path} {more : List PathPart}
    {now : Instant} (hclear : tree.IsClear path) (hdown : .parent ∉ path.parts)
    (hparts : above.parts ++ more = path.parts) (hmore : more ≠ [])
    (hmake : FileTree.makeDirectoriesFrom now depth tree above = .ok next) :
    next.IsClear path := by
  induction depth generalizing tree next above more with
  | zero => cases hmake
  | succ depth ih =>
      rw [FileTree.makeDirectoriesFrom] at hmake
      split at hmake
      · cases hmake
        exact hclear
      · split at hmake
        · rename_i hdone
          cases hmake
          exact hclear.makeDirectory hdown hparts hmore hdone
        · split at hmake
          · cases hmake
          · rename_i parent hparent
            cases habove : FileTree.makeDirectoriesFrom now depth tree parent with
            | error error =>
                rw [habove] at hmake
                cases hmake
            | ok made =>
                rw [habove] at hmake
                obtain ⟨further, hfurther⟩ :=
                  (Path.IsAbove.up hparent (.self parent)).parts
                have hall : parent.parts ++ (further ++ more) = path.parts := by
                  rw [← List.append_assoc, hfurther, hparts]
                have hmade : made.IsClear path := ih hclear hall (by simp [hmore]) habove
                change (if made.isDirectory above then _ else _) = _ at hmake
                split at hmake
                · cases hmake
                  exact hmade
                · exact hmade.makeDirectory hdown hparts hmore hmake
        · split at hmake
          · cases hmake
            exact hclear
          · cases hmake

/-- Directories that are made above the path leave it leading nowhere. -/
theorem Lacks.makeDirectories (hlacks : tree.Lacks path) (hdown : .parent ∉ path.parts)
    {parent above : Path} {now : Instant} (hparent : path.parent? = some parent)
    (habove : above.IsAbove parent) (hmake : tree.makeDirectories above now = .ok next) :
    next.Lacks path := by
  rcases hlacks with hempty | hclear
  · exact Or.inl hempty
  · right
    obtain ⟨last, hlast, -⟩ := Path.exists_getLast?_of_parent? hparent
    obtain ⟨front, hfront⟩ := List.getLast?_eq_some_iff.mp hlast
    obtain ⟨more, hmore⟩ := habove.parts
    have hall : above.parts ++ (more ++ [last]) = path.parts := by
      rw [← List.append_assoc, hmore, Path.parts_parent? hparent, hfront, List.dropLast_concat]
    exact hclear.makeDirectoriesFrom hdown hall (by simp) hmake

/-- A path that leads nowhere ends with a name: the root and the working directory are there. -/
theorem IsClear.exists_fileName (hclear : tree.IsClear path) (hdown : .parent ∉ path.parts) :
    ∃ name, path.fileName? = some name := by
  have hnothing := hclear.nothing
  obtain ⟨made, hmade⟩ := hclear.workingDirectory
  rcases List.eq_nil_or_concat path.parts with hnil | ⟨front, last, hlast⟩
  · rw [hnil, namesFrom, List.foldl_nil, hmade] at hnothing
    cases hnothing
  · rw [List.concat_eq_append] at hlast
    cases last with
    | name text =>
        refine ⟨text, ?_⟩
        rw [Path.fileName?, hlast, List.getLast?_concat]
    | parent => exact absurd (by simp [hlast]) hdown
    | root =>
        rw [hlast, namesFrom_append] at hnothing
        cases hnothing
    | current =>
        have hfront : front = [] := by
          rcases front with _ | ⟨first, rest⟩
          · rfl
          · have htail : PathPart.current ∈ path.parts.tail := by simp [hlast]
            exact absurd rfl (Path.notMem_tail_parts htail).2
        rw [hlast, hfront] at hnothing
        change tree.entry? tree.workingDirectory = none at hnothing
        rw [hmade] at hnothing
        cases hnothing

/-- A file that is written beside the path leaves it leading nowhere. -/
theorem IsClear.write (hclear : tree.IsClear path) {other : Path} {name otherName : String}
    {contents : Contents} {now : Instant} (hname : path.fileName? = some name)
    (hother : other.parts = path.parts.dropLast ++ [.name otherName]) (hne : otherName ≠ name)
    (hwrite : tree.write other contents now = .ok next) : next.IsClear path := by
  obtain ⟨names, hresolve, hfree, -, rfl⟩ := write_eq_ok hwrite
  obtain ⟨rfl, hway⟩ := walk_eq_ok (resolve_eq_ok.mp hresolve).2.1
  obtain ⟨front, hfront⟩ :=
    List.getLast?_eq_some_iff.mp (Path.getLast?_parts_of_fileName? hname)
  rw [hfront, List.dropLast_concat] at hother
  have hsame : waypoints tree.workingDirectory path.parts =
      waypoints tree.workingDirectory other.parts := by
    rw [hfront, hother, waypoints_append, waypoints_append]
    rfl
  apply hclear.put hfree
  · rw [hother, hfront, namesFrom_append, namesFrom_append]
    intro heq
    exact hne (List.singleton_inj.mp (List.append_cancel_left heq))
  · intro hpoint
    rw [hsame] at hpoint
    exact absurd (hway _ hpoint) hfree

end FileTree

end MetricCatalog
