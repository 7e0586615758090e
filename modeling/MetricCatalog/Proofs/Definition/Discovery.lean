/-
# Definitions that are found have names

The files below the directory of a kind are found by going on from one piece of
its path to the next, and the way there is spelt as the root of the repository
is, but for a single point in front, which is lost. The name of a file is made
from what its path has behind the parts of the root, this point included. So
every file that is found has the name that says where it stands below the
directory, unless the first part of the root is the single point: then none of
them has a name.
-/

import MetricCatalog.Definition.Load
import MetricCatalog.Proofs.Files.Above
import MetricCatalog.Proofs.Files.WellNamed

namespace MetricCatalog

namespace Definition

open MetricCatalog.Path (IsName innerOf frontOf innerPart?)

variable {tree : FileTree} {root path : Path} {kind : DefinitionKind}

/-! ## The way to a directory -/

/-- The path one step on. What follows a lone point takes its place. -/
def onward (path : Path) (piece : String) : Path :=
  if path.text = "." then ⟨piece⟩ else path.join ⟨piece⟩

/-- The spelling of a directory as it is met on the way to it. -/
def metAs (directory : Path) : Path :=
  let pieces := directory.segments.map String.ofList
  if directory.isAbsolute then (pieces.drop 1).foldl onward ⟨"/"⟩ else pieces.foldl onward ⟨"."⟩

/-- A step that leads somewhere leads onward, and not to nothing. -/
theorem step_eq_some {piece : String} {next : Path} (hslash : '/' ∉ piece.toList)
    (hstep : step tree path piece = some next) : next = onward path piece ∧ next.text ≠ "" := by
  have hnowhere : tree.exists? ⟨""⟩ = false := rfl
  change (if (if piece = "." || piece = ".." then tree.isDirectory path
    else tree.exists? (onward path piece)) then some (onward path piece) else none) = _ at hstep
  rw [Option.ite_none_right_eq_some] at hstep
  obtain ⟨hleads, hnext⟩ := hstep
  cases hnext
  refine ⟨rfl, fun hempty => ?_⟩
  split at hleads
  · rename_i hdots
    have hpiece : piece ≠ "" := by
      rintro rfl
      simp at hdots
    unfold onward at hempty
    split at hempty
    · exact hpiece hempty
    · exact Path.text_join_ne_empty hslash (Or.inr hpiece) hempty
  · have honward : onward path piece = ⟨""⟩ := by
      cases hmet : onward path piece
      simp_all
    rw [honward, hnowhere] at hleads
    cases hleads

/-- The pieces of a text between slashes have no slash in them. -/
theorem notMem_of_mem_segments {directory : Path} {piece : List Char}
    (hpiece : piece ∈ directory.segments) : '/' ∉ (String.ofList piece).toList := by
  rw [String.toList_ofList]
  exact Path.notMem_of_mem_splitSlashes hpiece

theorem eq_foldl_of_foldlM {pieces : List String} {start found : Path}
    (hpieces : ∀ piece ∈ pieces, '/' ∉ piece.toList)
    (hfound : pieces.foldlM (step tree) start = some found) :
    found = pieces.foldl onward start := by
  induction pieces generalizing start with
  | nil => exact (Option.some.inj hfound).symm
  | cons piece rest ih =>
      obtain ⟨hpiece, hrest⟩ := List.forall_mem_cons.mp hpieces
      rw [List.foldlM_cons, Option.bind_eq_bind, Option.bind_eq_some_iff] at hfound
      obtain ⟨next, hstep, hfound⟩ := hfound
      rw [List.foldl_cons, ← (step_eq_some hpiece hstep).1]
      exact ih hrest hfound

/-- How the directory is spelt does not depend on the tree. -/
theorem eq_metAs_of_reach {directory found : Path} (hfound : reach tree directory = some found) :
    found = metAs directory := by
  have hpieces : ∀ piece ∈ directory.segments.map String.ofList, '/' ∉ piece.toList := by
    intro piece hpiece
    obtain ⟨segment, hsegment, rfl⟩ := List.mem_map.mp hpiece
    exact notMem_of_mem_segments hsegment
  unfold reach at hfound
  unfold metAs
  simp only at hfound ⊢
  split at hfound
  · rename_i habsolute
    rw [if_pos habsolute]
    refine eq_foldl_of_foldlM (fun piece hpiece => ?_) hfound
    exact hpieces piece (List.mem_of_mem_drop hpiece)
  · rename_i hrelative
    rw [if_neg hrelative]
    exact eq_foldl_of_foldlM hpieces hfound

/-- Once something other than a lone point has been met, each piece puts its part behind. -/
theorem parts_of_foldlM {pieces : List (List Char)} {start found : Path}
    (hpieces : ∀ piece ∈ pieces, '/' ∉ piece) (hsome : start.text ≠ "")
    (hpoint : start.text ≠ ".")
    (hfound : (pieces.map String.ofList).foldlM (step tree) start = some found) :
    found.parts = start.parts ++ innerOf pieces := by
  induction pieces generalizing start with
  | nil =>
      rw [← Option.some.inj hfound]
      exact (List.append_nil _).symm
  | cons piece rest ih =>
      obtain ⟨hpiece, hrest⟩ := List.forall_mem_cons.mp hpieces
      rw [List.map_cons, List.foldlM_cons, Option.bind_eq_bind, Option.bind_eq_some_iff] at hfound
      obtain ⟨next, hstep, hfound⟩ := hfound
      have hslash : '/' ∉ (String.ofList piece).toList := by rwa [String.toList_ofList]
      obtain ⟨hnext, hnonempty⟩ := step_eq_some hslash hstep
      rw [onward, if_neg hpoint] at hnext
      have hlater : next.text ≠ "." := by
        rw [hnext]
        exact Path.text_join_ne_point hslash hsome hpoint
      rw [ih hrest hnonempty hlater hfound, hnext, Path.parts_join_piece hslash (Or.inl hsome),
        Path.innerOf_cons, String.toList_ofList, List.append_assoc]

/-- From the working directory the points in front are lost, and the first other piece starts the
path. -/
theorem parts_of_foldlM_point {pieces : List (List Char)} {found : Path}
    (hpieces : ∀ piece ∈ pieces, '/' ∉ piece)
    (hfound : (pieces.map String.ofList).foldlM (step tree) ⟨"."⟩ = some found) :
    innerOf pieces = [] ∨ found.parts = innerOf pieces := by
  induction pieces with
  | nil => exact Or.inl rfl
  | cons piece rest ih =>
      obtain ⟨hpiece, hrest⟩ := List.forall_mem_cons.mp hpieces
      rw [List.map_cons, List.foldlM_cons, Option.bind_eq_bind, Option.bind_eq_some_iff] at hfound
      obtain ⟨next, hstep, hfound⟩ := hfound
      have hslash : '/' ∉ (String.ofList piece).toList := by rwa [String.toList_ofList]
      obtain ⟨rfl, hnonempty⟩ := step_eq_some hslash hstep
      rw [onward, if_pos rfl] at hfound hnonempty
      by_cases hpoint : piece = ['.']
      · subst hpoint
        exact ih hrest hfound
      · refine Or.inr ?_
        have hother : String.ofList piece ≠ "." := fun hsame => hpoint (by
          rw [← String.toList_ofList (l := piece), hsame]
          rfl)
        have hparts : Path.parts ⟨String.ofList piece⟩ = (innerPart? piece).toList := by
          rw [Path.parts_eq, Path.segments_ofList, Path.splitSlashes_of_notMem hpiece,
            Path.frontOf_of_ne_current hpoint]
          exact Path.innerOf_concat [] piece
        rw [parts_of_foldlM hrest hnonempty hother hfound, hparts, Path.innerOf_cons]

/-- Parts without the single points. Only the one in front can be such a point. -/
def withoutPoint (parts : List PathPart) : List PathPart := parts.filter (· ≠ .current)

theorem withoutPoint_innerOf (segments : List (List Char)) :
    withoutPoint (innerOf segments) = innerOf segments :=
  List.filter_eq_self.mpr fun _ hpart => decide_eq_true (Path.mem_innerOf hpart).2

/-- A directory is met as it is spelt, but for a point in front. -/
theorem parts_of_reach {directory found : Path} (hreach : reach tree directory = some found)
    {part : PathPart} (hpart : part ∈ directory.parts) (hother : part ≠ .current) :
    found.parts = withoutPoint directory.parts := by
  have hpieces : ∀ piece ∈ directory.segments, '/' ∉ piece := fun _ =>
    Path.notMem_of_mem_splitSlashes
  rw [Path.parts_eq] at hpart
  rw [Path.parts_eq directory, withoutPoint, List.filter_append, ← withoutPoint, ← withoutPoint,
    withoutPoint_innerOf]
  unfold reach at hreach
  simp only at hreach
  split at hreach
  · rename_i habsolute
    obtain ⟨second, rest, hsegments⟩ := directory.isAbsolute_iff.mp habsolute
    rw [hsegments] at hreach hpieces ⊢
    exact parts_of_foldlM (List.forall_mem_cons.mp hpieces).2 (by decide) (by decide) hreach
  · rename_i hrelative
    have hfront : frontOf directory.segments = [] ∨ frontOf directory.segments = [.current] := by
      unfold frontOf
      split
      · exact Or.inr rfl
      · rename_i hsegments
        exact absurd (directory.isAbsolute_iff.mpr ⟨_, _, hsegments⟩) hrelative
      · exact Or.inl rfl
    have hinner : innerOf directory.segments ≠ [] := by
      intro hnone
      rw [hnone, List.append_nil] at hpart
      rcases hfront with hfront | hfront
      · rw [hfront] at hpart
        cases hpart
      · rw [hfront] at hpart
        exact hother (List.mem_singleton.mp hpart)
    rw [(parts_of_foldlM_point hpieces hreach).resolve_left hinner]
    rcases hfront with hfront | hfront <;> rw [hfront] <;> rfl

/-! ## Where definitions stand -/

theorem isName_directory (kind : DefinitionKind) : IsName kind.directory := by
  cases kind <;> exact ⟨by decide, by decide⟩

theorem parts_of_reach_directory {found : Path}
    (hreach : reach tree (root.join ⟨kind.directory⟩) = some found) :
    found.parts = withoutPoint root.parts ++ [.name kind.directory] := by
  have hbase := Path.parts_join root (isName_directory kind)
  have hmem : .name kind.directory ∈ (root.join ⟨kind.directory⟩).parts := by
    rw [hbase]
    exact List.mem_concat_self
  rw [parts_of_reach hreach hmem (by simp), hbase, withoutPoint, List.filter_append]
  rfl

/-- The path of a file in directories below the directory of a kind. -/
def placed (root : Path) (kind : DefinitionKind) (directories : List String) (file : String) :
    Path :=
  (directories ++ [file]).foldl (fun path name => path.join ⟨name⟩)
    (metAs (root.join ⟨kind.directory⟩))

/-- A path leads to the file of a definition in directories below that of its kind. -/
structure Leads (root : Path) (kind : DefinitionKind) (path : Path) (directories : List String)
    (file : String) : Prop where
  isFile : isFileName file = true
  spelt : path = placed root kind directories file
  parts : path.parts =
    withoutPoint root.parts ++ .name kind.directory :: (directories ++ [file]).map .name

/-- What is found leads to the file of a definition. -/
theorem exists_leads (htree : tree.WellNamed) (hpath : path ∈ discover tree root kind) :
    ∃ directories file, Leads root kind path directories file := by
  unfold discover at hpath
  split at hpath
  · cases hpath
  · rename_i found hreach
    split at hpath
    · cases hpath
    · rename_i base _
      obtain ⟨⟨names, entry⟩, hbelow, hentry⟩ := List.mem_filterMap.mp hpath
      rw [Option.ite_none_right_eq_some] at hentry
      obtain ⟨hany, hspelt⟩ := hentry
      obtain ⟨file, hlast, hfile⟩ := (Option.any_eq_true _ _).mp hany
      obtain ⟨directories, rfl⟩ := List.getLast?_eq_some_iff.mp hlast
      have hnames := htree.isName_of_mem_below hbelow
      refine ⟨directories, file, hfile, ?_, ?_⟩
      · rw [placed, ← eq_metAs_of_reach hreach]
        exact (Option.some.inj hspelt).symm
      · rw [← Option.some.inj hspelt, Path.parts_foldl_join hnames, parts_of_reach_directory hreach,
          List.append_assoc]
        rfl

/-! ## Names -/

/-- What remains of the name of a definition's file without its extension. A name that is nothing
but the extension has none and is kept whole. -/
def IsStem (stem file : String) : Prop :=
  stem ≠ "" ∧ file = stem ++ ".yaml" ∨ stem = ".yaml" ∧ file = ".yaml"

theorem stem_append_extension {stem : List Char} (hstem : stem ≠ []) :
    Path.stem (stem ++ ".yaml".toList) = stem := by
  obtain ⟨c, rest, hreverse⟩ := List.exists_cons_of_ne_nil (mt List.reverse_eq_nil_iff.mp hstem)
  have hdrop : (stem ++ ".yaml".toList).reverse.dropWhile (· ≠ '.') = '.' :: stem.reverse := by
    rw [List.reverse_append]
    rfl
  rw [Path.stem, hdrop, hreverse]
  show (c :: rest).reverse = stem
  rw [← hreverse, List.reverse_reverse]

theorem exists_isStem {file : String} (hfile : isFileName file = true) :
    ∃ stem, IsStem stem file ∧ Path.stem file.toList = stem.toList := by
  obtain ⟨stem, hstem⟩ := List.isSuffixOf_iff_suffix.mp hfile
  by_cases hempty : stem = []
  · have hname : file = ".yaml" := String.toList_inj.mp (by rw [← hstem, hempty]; rfl)
    rw [hname]
    exact ⟨".yaml", Or.inr ⟨rfl, rfl⟩, by decide⟩
  · have hname : file = String.ofList stem ++ ".yaml" := String.toList_inj.mp (by
      rw [← hstem, String.toList_append, String.toList_ofList (l := stem)])
    refine ⟨String.ofList stem, Or.inl ⟨by simpa using hempty, hname⟩, ?_⟩
    rw [← hstem, stem_append_extension hempty, String.toList_ofList]

/-- The name that directories and a stem make. -/
def nameFrom (parts : List String) : String :=
  String.ofList (DefinitionName.encode (parts.map String.toList))

theorem namesOf_map_name (names : List String) :
    DefinitionName.namesOf (names.map .name) = some (names.map String.toList) := by
  induction names with
  | nil => rfl
  | cons name rest ih =>
      rw [List.map_cons, DefinitionName.namesOf, ih]
      rfl

theorem withoutPoint_parts (hroot : root.parts.head? ≠ some .current) :
    withoutPoint root.parts = root.parts := by
  refine List.filter_eq_self.mpr fun part hpart => decide_eq_true ?_
  rw [Path.parts_eq] at hpart hroot
  rintro rfl
  rcases List.mem_append.mp hpart with hfront | hinner
  · unfold frontOf at hfront hroot
    split at hfront
    · rename_i hsegments
      rw [hsegments] at hroot
      exact hroot rfl
    · cases List.mem_singleton.mp hfront
    · cases hfront
  · exact (Path.mem_innerOf hinner).2 rfl

/-- Behind a root with a point in front there is nothing that is found. -/
theorem nameOf_of_point {directories : List String} {file : String}
    (hleads : Leads root kind path directories file) (hroot : root.parts.head? = some .current) :
    nameOf root path = .error (.badPath path .outside) := by
  have hcurrent : .current ∉ path.parts := by
    rw [hleads.parts]
    simp [withoutPoint]
  obtain ⟨base, hbase⟩ := List.head?_eq_some_iff.mp hroot
  rw [nameOf, DefinitionName.ofPath, hbase, Path.stripBase_current hcurrent]
  rfl

/-- Behind any other root the name is made of what stands behind the directory of the kind, if the
stem is a name. -/
theorem nameOf_of_leads {directories : List String} {stem file : String}
    (hleads : Leads root kind path directories file) (hroot : root.parts.head? ≠ some .current)
    (hstem : Path.stem file.toList = stem.toList) :
    nameOf root path =
      if stem = "." ∨ stem = ".." then .error (.badPath path .badPart)
      else .ok (nameFrom (directories ++ [stem])) := by
  have hdirectory : (kind.directory = "databases" || kind.directory = "nodes") = true := by
    cases kind <;> rfl
  have hpoints : stem = "." ∨ stem = ".." ↔ stem.toList = ['.'] ∨ stem.toList = ['.', '.'] :=
    or_congr String.toList_inj.symm String.toList_inj.symm
  have hdrop : DefinitionName.dropExtension ((directories ++ [file]).map String.toList) =
      if stem = "." ∨ stem = ".." then none
      else some ((directories ++ [stem]).map String.toList) := by
    simp only [DefinitionName.dropExtension, List.map_append, List.map_cons, List.map_nil,
      List.getLast?_concat, List.dropLast_concat, hstem, hpoints, Bool.or_eq_true,
      decide_eq_true_eq]
  obtain ⟨first, rest, hparts⟩ : ∃ first rest,
      (directories ++ [stem]).map String.toList = first :: rest :=
    List.exists_cons_of_ne_nil (by simp)
  rw [nameOf, DefinitionName.ofPath, hleads.parts, withoutPoint_parts hroot, Path.stripBase_append]
  simp only [hdirectory, if_true, namesOf_map_name, Option.bind_some, hdrop, nameFrom, hparts]
  by_cases hpoint : stem = "." ∨ stem = ".."
  · rw [if_pos hpoint, if_pos hpoint]
    rfl
  · rw [if_neg hpoint, if_neg hpoint]
    rfl

/-- Every definition that is found has the name that is made of its directories below that of its
kind and of its file name without the extension, unless the first part of the root is the single
point. Behind such a root every one is refused as being outside the repository. -/
theorem nameOf_of_mem_discover (htree : tree.WellNamed) (hpath : path ∈ discover tree root kind)
    (hone : path.fileName? ≠ some "..yaml") (htwo : path.fileName? ≠ some "...yaml") :
    if root.parts.head? = some .current then
      nameOf root path = .error (.badPath path .outside)
    else
      ∃ directories stem file, IsStem stem file ∧
        path.parts = root.parts ++ .name kind.directory :: (directories ++ [file]).map .name ∧
        nameOf root path = .ok (nameFrom (directories ++ [stem])) := by
  obtain ⟨directories, file, hleads⟩ := exists_leads htree hpath
  split
  · rename_i hroot
    exact nameOf_of_point hleads hroot
  · rename_i hroot
    obtain ⟨stem, hfile, hstem⟩ := exists_isStem hleads.isFile
    have hparts := hleads.parts
    rw [withoutPoint_parts hroot] at hparts
    have hname : path.fileName? = some file := by
      rw [Path.fileName?, hparts, List.map_append, ← List.cons_append, ← List.append_assoc,
        List.map_singleton, List.getLast?_concat]
    have hpoint : ∀ {points}, path.fileName? ≠ some (points ++ ".yaml") → points ≠ ".yaml" →
        stem ≠ points := by
      rintro points hother hwhole rfl
      rcases hfile with ⟨-, rfl⟩ | ⟨hstem, -⟩
      · exact hother hname
      · exact hwhole hstem
    refine ⟨directories, stem, file, hfile, hparts, ?_⟩
    rw [nameOf_of_leads hleads hroot hstem, if_neg]
    exact not_or.mpr ⟨hpoint hone (by decide), hpoint htwo (by decide)⟩

/-- A repository with one node, seen from inside. -/
def smallRepository : FileTree where
  entries :=
    { entries := [(["repo"], .directory default), (["repo", "nodes"], .directory default),
        (["repo", "nodes", "core"], .directory default),
        (["repo", "nodes", "core", "users.v2.yaml"], .file (.text "description: Users\n") default)]
      sorted := by decide }
  workingDirectory := ["repo"]

theorem wellNamed_smallRepository : smallRepository.WellNamed := ⟨by decide, by decide⟩

theorem nameOf_of_mem_discover_small :
    (⟨"/repo/nodes/core/users.v2.yaml"⟩ : Path) ∈ discover smallRepository ⟨"/repo"⟩ .node ∧
      (∃ directories stem file, IsStem stem file ∧
        Path.parts ⟨"/repo/nodes/core/users.v2.yaml"⟩ = Path.parts ⟨"/repo"⟩ ++
          .name "nodes" :: (directories ++ [file]).map .name ∧
        nameOf ⟨"/repo"⟩ ⟨"/repo/nodes/core/users.v2.yaml"⟩ =
          .ok (nameFrom (directories ++ [stem]))) ∧
      nameOf ⟨"/repo"⟩ ⟨"/repo/nodes/core/users.v2.yaml"⟩ = .ok "core.users%2Ev2" :=
  have hpath : (⟨"/repo/nodes/core/users.v2.yaml"⟩ : Path) ∈
      discover smallRepository ⟨"/repo"⟩ .node := by decide
  ⟨hpath, nameOf_of_mem_discover wellNamed_smallRepository hpath (by decide) (by decide), by decide⟩

/-- Seen from inside the repository, its one definition is found and refused. -/
theorem exists_refused : ∃ (tree : FileTree) (root path : Path), tree.WellNamed ∧
    tree.isDirectory root = true ∧ path ∈ discover tree root .node ∧
    path.fileName? ≠ some "..yaml" ∧ path.fileName? ≠ some "...yaml" ∧
    nameOf root path = .error (.badPath path .outside) :=
  ⟨smallRepository, ⟨"."⟩, ⟨"nodes/core/users.v2.yaml"⟩, wellNamed_smallRepository, by decide,
    by decide, by decide, by decide, by decide⟩

end Definition

end MetricCatalog
