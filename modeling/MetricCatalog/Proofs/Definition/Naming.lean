/-
# Names lead back to files

A part of a name is read back in one pass, and a name is cut into its parts at
its points, since an encoded part has none. So a name leads back to directories
and a stem, and these lead back to a file, unless the stem is the extension
itself: a file that is named by the extension alone keeps it, and so shares its
name with the file beside it that has the extension twice.
-/

import MetricCatalog.Proofs.Definition.Discovery

namespace MetricCatalog

namespace DefinitionName

/-! ## Reading names back -/

/-- A part as it was before it was encoded. -/
def decodePart : List Char → List Char
  | '%' :: '2' :: '5' :: rest => '%' :: decodePart rest
  | '%' :: '2' :: 'E' :: rest => '.' :: decodePart rest
  | c :: rest => c :: decodePart rest
  | [] => []

/-- The parts that make a name. -/
def decode (name : List Char) : List (List Char) := (name.splitOn '.').map decodePart

theorem decodePart_cons {c : Char} (hpercent : c ≠ '%') (rest : List Char) :
    decodePart (c :: rest) = c :: decodePart rest := by
  rw [decodePart.eq_def]
  split <;> simp_all

theorem decodePart_encodeChar (c : Char) (rest : List Char) :
    decodePart (encodeChar c ++ rest) = c :: decodePart rest := by
  unfold encodeChar
  split
  · rename_i hpercent
    rw [hpercent]
    rfl
  · rename_i hpercent
    split
    · rename_i hpoint
      rw [hpoint]
      rfl
    · exact decodePart_cons hpercent rest

theorem decodePart_encodePart (part : List Char) : decodePart (encodePart part) = part := by
  induction part with
  | nil => rfl
  | cons c rest ih =>
      rw [encodePart, List.flatMap_cons, decodePart_encodeChar]
      exact congrArg (c :: ·) ih

theorem notMem_encodePart (part : List Char) : '.' ∉ encodePart part := by
  intro hpoint
  obtain ⟨c, -, hc⟩ := List.mem_flatMap.mp hpoint
  unfold encodeChar at hc
  split at hc
  · simp at hc
  · split at hc
    · simp at hc
    · rename_i hother
      exact hother (List.mem_singleton.mp hc).symm

theorem joinParts_eq_intercalate (parts : List (List Char)) :
    joinParts parts = ['.'].intercalate parts := by
  induction parts with
  | nil => rfl
  | cons part rest ih =>
      cases rest with
      | nil => simp [joinParts]
      | cons second more =>
          rw [joinParts, ih, List.intercalate_cons_cons, List.append_assoc]
          · rfl
          · simp

/-- Cut at its points and read back part by part, a name gives the parts it was made of. -/
theorem decode_encode {parts : List (List Char)} (hparts : parts ≠ []) :
    decode (encode parts) = parts := by
  have hpoints : ∀ part ∈ parts.map encodePart, '.' ∉ part := by
    intro part hpart
    obtain ⟨before, -, rfl⟩ := List.mem_map.mp hpart
    exact notMem_encodePart before
  rw [decode, encode, joinParts_eq_intercalate,
    List.splitOn_intercalate '.' hpoints (by simpa using hparts), List.map_map]
  calc parts.map (decodePart ∘ encodePart) = parts.map id :=
        List.map_congr_left fun part _ => decodePart_encodePart part
    _ = parts := List.map_id parts

/-! ## What a name says of its path -/

/-- A text with another spelling of one character. -/
def respell (c : Char) (spelling text : List Char) : List Char :=
  text.flatMap fun other => if other = c then spelling else [other]

/-- The percent signs of a part are encoded first, so those that encode its points stay. -/
theorem encodePart_eq_respell (part : List Char) :
    encodePart part = respell '.' "%2E".toList (respell '%' "%25".toList part) := by
  rw [encodePart, respell, respell, List.flatMap_assoc]
  congr
  funext c
  unfold encodeChar
  split
  · rfl
  · simp

/-- The parts that remain of a path behind a directory of definitions, without the extension. -/
def Remains (root path : Path) (directory : String) (parts : List (List Char)) : Prop :=
  ∃ rest, Path.stripBase root.parts path.parts = some (.name directory :: rest) ∧
    (namesOf rest).bind dropExtension = some parts

theorem ofPath_eq_ok {root path : Path} {name : String} (hname : ofPath root path = .ok name) :
    ∃ directory parts, Remains root path directory parts ∧ parts ≠ [] ∧
      name = String.ofList (encode parts) := by
  unfold ofPath at hname
  split at hname
  · cases hname
  · rename_i directory rest hstrip
    split at hname
    · split at hname
      · cases hname
      · cases hname
      · rename_i parts hsome hremain
        exact ⟨directory, parts, ⟨rest, hstrip, hremain⟩, hsome, (Except.ok.inj hname).symm⟩
    · cases hname
  · cases hname

theorem Remains.unique {root path : Path} {directory other : String} {parts more : List (List Char)}
    (hremains : Remains root path directory parts) (hother : Remains root path other more) :
    other = directory ∧ more = parts := by
  obtain ⟨rest, hstrip, hparts⟩ := hremains
  obtain ⟨later, hlater, hmore⟩ := hother
  rw [hstrip] at hlater
  cases hlater
  rw [hparts] at hmore
  exact ⟨rfl, (Option.some.inj hmore).symm⟩

/-- A name is read back to the parts it was made of, whatever they are. So the name of a definition
says which parts remain of its path, and no path with other parts below the directory has it. -/
theorem parts_of_name :
    (∀ parts : List (List Char), parts ≠ [] → decode (encode parts) = parts) ∧
    (∀ part, encodePart part = respell '.' "%2E".toList (respell '%' "%25".toList part)) ∧
    ∀ (root path : Path) (name : String), ofPath root path = .ok name →
      ∃ directory, ∀ other parts,
        Remains root path other parts ↔ other = directory ∧ parts = decode name.toList := by
  refine ⟨fun parts => decode_encode, encodePart_eq_respell, fun root path name hname => ?_⟩
  obtain ⟨directory, parts, hremains, hsome, rfl⟩ := ofPath_eq_ok hname
  rw [String.toList_ofList, decode_encode hsome]
  refine ⟨directory, fun other more => ⟨hremains.unique, ?_⟩⟩
  rintro ⟨rfl, rfl⟩
  exact hremains

/-- Parts that look as if they were encoded, and a stem that starts with points. -/
theorem parts_of_name_escaped :
    decode (encode ["%2E".toList, [], "%25".toList]) = ["%2E".toList, [], "%25".toList] ∧
      ofPath ⟨"/r"⟩ ⟨"/r/nodes/%2E/a.b/..%25.yaml"⟩ = .ok "%252E.a%2Eb.%2E%2E%2525" ∧
      ["%2E".toList, "a.b".toList, "..%25".toList] = decode "%252E.a%2Eb.%2E%2E%2525".toList := by
  obtain ⟨hparts, -, hnames⟩ := parts_of_name
  have hname : ofPath ⟨"/r"⟩ ⟨"/r/nodes/%2E/a.b/..%25.yaml"⟩ = .ok "%252E.a%2Eb.%2E%2E%2525" := by
    decide
  have hremains : Remains ⟨"/r"⟩ ⟨"/r/nodes/%2E/a.b/..%25.yaml"⟩ "nodes"
      ["%2E".toList, "a.b".toList, "..%25".toList] :=
    ⟨[.name "%2E", .name "a.b", .name "..%25.yaml"], by decide, by decide⟩
  obtain ⟨directory, hunique⟩ := hnames _ _ _ hname
  exact ⟨hparts _ (by decide), hname, ((hunique _ _).mp hremains).2⟩

end DefinitionName

namespace Definition

variable {tree other : FileTree} {root path first second : Path} {kind : DefinitionKind}

theorem nameFrom_injective {left right : List String} (hleft : left ≠ []) (hright : right ≠ [])
    (hname : nameFrom left = nameFrom right) : left = right := by
  have hencoded : DefinitionName.encode (left.map String.toList) =
      DefinitionName.encode (right.map String.toList) := String.ofList_inj.mp hname
  have hdecoded := congrArg DefinitionName.decode hencoded
  rw [DefinitionName.decode_encode (by simpa using hleft),
    DefinitionName.decode_encode (by simpa using hright)] at hdecoded
  exact (List.map_inj_right fun _ _ => String.toList_inj.mp).mp hdecoded

/-- A stem has one file, but for the extension, which is kept whole and stands for itself. -/
theorem IsStem.unique {stem file next : String} (hfile : IsStem stem file)
    (hnext : IsStem stem next) :
    file = next ∨ file = ".yaml" ∧ next = ".yaml.yaml" ∨ next = ".yaml" ∧ file = ".yaml.yaml" := by
  rcases hfile with ⟨-, rfl⟩ | ⟨rfl, rfl⟩
  · rcases hnext with ⟨-, rfl⟩ | ⟨rfl, rfl⟩
    · exact Or.inl rfl
    · exact Or.inr (Or.inr ⟨rfl, rfl⟩)
  · rcases hnext with ⟨-, rfl⟩ | ⟨-, rfl⟩
    · exact Or.inr (Or.inl ⟨rfl, rfl⟩)
    · exact Or.inl rfl

theorem exists_stem_of_nameOf {directories : List String} {file name : String}
    (hleads : Leads root kind path directories file) (hname : nameOf root path = .ok name) :
    ∃ stem, IsStem stem file ∧ name = nameFrom (directories ++ [stem]) := by
  have hroot : root.parts.head? ≠ some .current := by
    intro hroot
    rw [nameOf_of_point hleads hroot] at hname
    cases hname
  obtain ⟨stem, hfile, hstem⟩ := exists_isStem hleads.isFile
  rw [nameOf_of_leads hleads hroot hstem] at hname
  split at hname
  · cases hname
  · exact ⟨stem, hfile, (Except.ok.inj hname).symm⟩

/-- Definitions of one kind that are found in a repository have different names, but for a file that
is named by the extension alone and the one beside it that has the extension twice. -/
theorem eq_of_nameOf_eq (htree : tree.WellNamed) (hother : other.WellNamed)
    (hfirst : first ∈ discover tree root kind) (hsecond : second ∈ discover other root kind)
    {name : String} (hfirstName : nameOf root first = .ok name)
    (hsecondName : nameOf root second = .ok name) :
    first = second ∨ ∃ directory : Path,
      first = directory.join ⟨".yaml"⟩ ∧ second = directory.join ⟨".yaml.yaml"⟩ ∨
        second = directory.join ⟨".yaml"⟩ ∧ first = directory.join ⟨".yaml.yaml"⟩ := by
  obtain ⟨directories, file, hleads⟩ := exists_leads htree hfirst
  obtain ⟨others, next, hnext⟩ := exists_leads hother hsecond
  obtain ⟨stem, hfile, rfl⟩ := exists_stem_of_nameOf hleads hfirstName
  obtain ⟨last, hlast, hname⟩ := exists_stem_of_nameOf hnext hsecondName
  have hparts := nameFrom_injective (by simp) (by simp) hname
  obtain ⟨rfl, hstems⟩ := List.append_inj' hparts rfl
  obtain rfl := List.singleton_inj.mp hstems
  have hplaced : ∀ file, placed root kind directories file =
      (directories.foldl (fun path name => path.join ⟨name⟩)
        (metAs (root.join ⟨kind.directory⟩))).join ⟨file⟩ := fun _ => List.foldl_append ..
  rw [hleads.spelt, hnext.spelt, hplaced, hplaced]
  rcases hfile.unique hlast with rfl | ⟨rfl, rfl⟩ | ⟨rfl, rfl⟩
  · exact Or.inl rfl
  · exact Or.inr ⟨_, Or.inl ⟨rfl, rfl⟩⟩
  · exact Or.inr ⟨_, Or.inr ⟨rfl, rfl⟩⟩

/-- A repository with two nodes, the extension alone and the extension twice. -/
def twinRepository : FileTree where
  entries :=
    { entries := [(["nodes"], .directory default),
        (["nodes", ".yaml"], .file (.text "description: One\n") default),
        (["nodes", ".yaml.yaml"], .file (.text "description: Two\n") default)]
      sorted := by decide }
  workingDirectory := []

theorem wellNamed_twinRepository : twinRepository.WellNamed := ⟨by decide, by decide⟩

theorem eq_of_nameOf_eq_twins :
    nameOf ⟨"/"⟩ ⟨"/nodes/.yaml"⟩ = nameOf ⟨"/"⟩ ⟨"/nodes/.yaml.yaml"⟩ ∧
      ((⟨"/nodes/.yaml"⟩ : Path) = ⟨"/nodes/.yaml.yaml"⟩ ∨ ∃ directory : Path,
        ⟨"/nodes/.yaml"⟩ = directory.join ⟨".yaml"⟩ ∧
            ⟨"/nodes/.yaml.yaml"⟩ = directory.join ⟨".yaml.yaml"⟩ ∨
          ⟨"/nodes/.yaml.yaml"⟩ = directory.join ⟨".yaml"⟩ ∧
            ⟨"/nodes/.yaml"⟩ = directory.join ⟨".yaml.yaml"⟩) :=
  have hfirst : (⟨"/nodes/.yaml"⟩ : Path) ∈ discover twinRepository ⟨"/"⟩ .node := by decide
  have hsecond : (⟨"/nodes/.yaml.yaml"⟩ : Path) ∈ discover twinRepository ⟨"/"⟩ .node := by decide
  have hname : nameOf ⟨"/"⟩ ⟨"/nodes/.yaml"⟩ = .ok "%2Eyaml" := by decide
  have hother : nameOf ⟨"/"⟩ ⟨"/nodes/.yaml.yaml"⟩ = .ok "%2Eyaml" := by decide
  ⟨hname.trans hother.symm,
    eq_of_nameOf_eq wellNamed_twinRepository wellNamed_twinRepository hfirst hsecond hname hother⟩

/-- The two nodes are found in one directory and have the same name. -/
theorem exists_shared_name : ∃ (tree : FileTree) (root first second : Path) (name : String),
    tree.WellNamed ∧ first ∈ discover tree root .node ∧ second ∈ discover tree root .node ∧
      first ≠ second ∧ nameOf root first = .ok name ∧ nameOf root second = .ok name :=
  ⟨twinRepository, ⟨"/"⟩, ⟨"/nodes/.yaml"⟩, ⟨"/nodes/.yaml.yaml"⟩, "%2Eyaml",
    wellNamed_twinRepository, by decide, by decide, by decide, by decide, by decide⟩

end Definition

end MetricCatalog
