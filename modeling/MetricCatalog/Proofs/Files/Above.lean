/-
# The paths above a path

The path above another one has the same parts but the last, and a path that goes
on to a name has that name as one part more. Both are made from texts, so this
is said of their pieces between slashes first.
-/

import Mathlib.Data.List.Induction
import MetricCatalog.Proofs.Files.Names

namespace MetricCatalog

namespace Path

/-! ## Pieces and parts -/

/-- The part in front that the pieces of a path have. -/
def frontOf : List (List Char) → List PathPart
  | ['.'] :: _ => [.current]
  | [] :: _ :: _ => [.root]
  | _ => []

/-- The parts behind it. -/
def innerOf (segments : List (List Char)) : List PathPart := segments.filterMap innerPart?

theorem parts_eq (path : Path) : path.parts = frontOf path.segments ++ innerOf path.segments := by
  unfold parts frontOf innerOf
  simp only
  split <;> simp_all

/-- The first piece is in front or stands for a part like the others. -/
theorem innerPart?_or_frontOf (first : List Char) (rest : List (List Char)) :
    innerPart? first = none ∨ frontOf (first :: rest) = [] := by
  unfold frontOf
  split
  · rename_i heq
    obtain ⟨rfl, -⟩ := List.cons.inj heq
    exact Or.inl rfl
  · rename_i heq
    obtain ⟨rfl, -⟩ := List.cons.inj heq
    exact Or.inl rfl
  · exact Or.inr rfl

theorem frontOf_cons_cons (first second : List Char) (rest : List (List Char)) :
    frontOf (first :: second :: rest) = frontOf [first, []] := by
  unfold frontOf
  split <;> simp_all

theorem frontOf_singleton {first : List Char} (hfirst : first ≠ []) (rest : List (List Char)) :
    frontOf (first :: rest) = frontOf [first] := by
  unfold frontOf
  split <;> simp_all

theorem innerOf_cons (first : List Char) (rest : List (List Char)) :
    innerOf (first :: rest) = (innerPart? first).toList ++ innerOf rest := by
  rw [innerOf, List.filterMap_cons]
  cases innerPart? first <;> rfl

theorem innerOf_append (first second : List (List Char)) :
    innerOf (first ++ second) = innerOf first ++ innerOf second :=
  List.filterMap_append

/-- Only the part in front can be the root or the single point. -/
theorem mem_innerOf {part : PathPart} {segments : List (List Char)}
    (hpart : part ∈ innerOf segments) : part ≠ .root ∧ part ≠ .current := by
  obtain ⟨segment, -, hsegment⟩ := List.mem_filterMap.mp hpart
  unfold innerPart? at hsegment
  split at hsegment
  · cases hsegment
  · split at hsegment <;> (cases hsegment; simp)

theorem length_frontOf_le (segments : List (List Char)) : (frontOf segments).length ≤ 1 := by
  unfold frontOf
  split <;> simp

/-! ## Pieces that mean nothing -/

/-- By induction on the pieces behind the first: those that are dropped stand for no part, and the
last one that is left stands for one. -/
theorem dropIdle_cons (first : List Char) (rest : List (List Char)) :
    ∃ kept idle, rest = kept ++ idle ∧ dropIdle (first :: rest) = first :: kept ∧
      innerOf idle = [] ∧
      (kept = [] ∨ ∃ front last part, kept = front ++ [last] ∧ innerPart? last = some part) := by
  induction rest using List.reverseRecOn with
  | nil => exact ⟨[], [], rfl, rfl, rfl, Or.inl rfl⟩
  | append_singleton rest last ih =>
      cases hlast : innerPart? last with
      | none =>
          obtain ⟨kept, idle, rfl, hdrop, hidle, hkept⟩ := ih
          refine ⟨kept, idle ++ [last], by simp, ?_, ?_, hkept⟩
          · rw [← hdrop]
            have hpoint : last = [] ∨ last = ['.'] := by
              unfold innerPart? at hlast
              split at hlast
              · rename_i hpoint
                simpa using hpoint
              · split at hlast <;> cases hlast
            simp only [dropIdle, List.reverse_append, List.reverse_singleton,
              List.singleton_append, List.dropWhile_cons]
            rw [if_pos (by simpa using hpoint)]
          · rw [innerOf_append, hidle, innerOf_cons, hlast]
            rfl
      | some part =>
          refine ⟨rest ++ [last], [], by simp, ?_, rfl, Or.inr ⟨rest, last, part, rfl, hlast⟩⟩
          have hpoint : ¬ (last = [] ∨ last = ['.']) := by
            rintro (rfl | rfl) <;> cases hlast
          simp only [dropIdle, List.reverse_append, List.reverse_singleton,
            List.singleton_append, List.dropWhile_cons]
          rw [if_neg (by simpa using hpoint)]
          simp

theorem splitSlashes_joinSegments {segments : List (List Char)} (hne : segments ≠ [])
    (hslash : ∀ segment ∈ segments, '/' ∉ segment) :
    splitSlashes (joinSegments segments) = segments := by
  induction segments with
  | nil => exact absurd rfl hne
  | cons first rest ih =>
      obtain ⟨hfirst, hrest⟩ := List.forall_mem_cons.mp hslash
      cases rest with
      | nil => exact splitSlashes_of_notMem hfirst
      | cons second rest =>
          rw [joinSegments, splitSlashes_append, splitSlashes_of_notMem hfirst,
            ih (by simp) hrest]
          · rfl
          · simp

theorem isAbsolute_iff (path : Path) :
    path.isAbsolute = true ↔ ∃ second rest, path.segments = [] :: second :: rest := by
  rw [isAbsolute, decide_eq_true_iff, segments]
  cases path.text.toList with
  | nil => simp [splitSlashes]
  | cons c rest =>
      obtain ⟨first, others, hrest⟩ := List.exists_cons_of_ne_nil (splitSlashes_ne_nil rest)
      rw [splitSlashes, hrest, List.head?_cons, Option.some_inj]
      by_cases hc : c = '/'
      · simp [hc]
      · simp [hc]

/-! ## The path above -/

theorem segments_ofList (text : List Char) :
    segments ⟨String.ofList text⟩ = splitSlashes text := by
  rw [segments, String.toList_ofList]

/-- A path with one above it has a last part, which is not the root. -/
theorem exists_getLast?_of_parent? {path parent : Path} (hparent : path.parent? = some parent) :
    ∃ part, path.parts.getLast? = some part ∧ part ≠ .root := by
  unfold parent? at hparent
  split at hparent
  · cases hparent
  · cases hparent
  · rename_i part hroot hlast
    exact ⟨part, hlast, hroot⟩

/-- The text of the path above, in terms of the pieces that mean something. -/
theorem parent?_eq {path parent : Path} (hparent : path.parent? = some parent)
    {segments : List (List Char)} (hdrop : dropIdle path.segments = segments) :
    parent = ⟨String.ofList
      (if path.isAbsolute && (joinSegments (dropIdle segments.dropLast)).isEmpty then ['/']
        else joinSegments (dropIdle segments.dropLast))⟩ := by
  obtain ⟨part, hlast, hroot⟩ := exists_getLast?_of_parent? hparent
  unfold parent? at hparent
  rw [hlast, hdrop] at hparent
  split at hparent
  · cases hparent
  · cases hparent
  · exact (Option.some.inj hparent).symm

/-- The first piece stands for one part at most. -/
theorem dropLast_firstPart (first : List Char) (rest : List (List Char)) :
    (frontOf (first :: rest) ++ (innerPart? first).toList).dropLast = [] := by
  have hfront := length_frontOf_le (first :: rest)
  rcases innerPart?_or_frontOf first rest with hnone | hnil
  · rw [hnone]
    rcases hshort : frontOf (first :: rest) with _ | ⟨single, _ | _⟩
    · rfl
    · rfl
    · rw [hshort] at hfront
      simp at hfront
  · rw [hnil]
    cases innerPart? first <;> rfl

/-- Which part is in front does not depend on the pieces behind, but for the root, which needs
one. -/
theorem frontOf_shorten {first second : List Char} {above more : List (List Char)}
    (hne : ¬ (first = [] ∧ above = [])) :
    frontOf (first :: above) = frontOf (first :: second :: more) := by
  by_cases hfirst : first = []
  · obtain ⟨next, later, rfl⟩ := List.exists_cons_of_ne_nil fun hnil => hne ⟨hfirst, hnil⟩
    rw [frontOf_cons_cons, frontOf_cons_cons first second]
  · rw [frontOf_singleton hfirst, frontOf_singleton hfirst (second :: more)]

theorem isEmpty_joinSegments {first : List Char} {above : List (List Char)}
    (hne : ¬ (first = [] ∧ above = [])) : (joinSegments (first :: above)).isEmpty = false := by
  rcases above with _ | ⟨next, later⟩
  · simpa [joinSegments] using hne
  · simp [joinSegments]

/-- The path above has all parts but the last. -/
theorem parts_parent? {path parent : Path} (hparent : path.parent? = some parent) :
    parent.parts = path.parts.dropLast := by
  obtain ⟨part, hlast, hroot⟩ := exists_getLast?_of_parent? hparent
  obtain ⟨first, rest, hsegments⟩ :=
    List.exists_cons_of_ne_nil (splitSlashes_ne_nil path.text.toList)
  change path.segments = first :: rest at hsegments
  obtain ⟨kept, idle, hrest, hdrop, hidle, hkept⟩ := dropIdle_cons first rest
  rw [← hsegments] at hdrop
  have habove := parent?_eq hparent hdrop
  have hparts : path.parts =
      frontOf (first :: rest) ++ ((innerPart? first).toList ++ innerOf kept) := by
    rw [parts_eq, hsegments, innerOf_cons, hrest, innerOf_append, hidle, List.append_nil]
  rcases hkept with rfl | ⟨front, last, found, rfl, hfound⟩
  · -- Only the first piece counts, so nothing is left above it.
    cases habsolute : path.isAbsolute with
    | true =>
        obtain ⟨second, more, habsolute⟩ := path.isAbsolute_iff.mp habsolute
        obtain ⟨rfl, rfl⟩ := List.cons.inj (hsegments.symm.trans habsolute)
        rw [hparts] at hlast
        cases hlast
        exact absurd rfl hroot
    | false =>
        have hnone : innerOf [] = [] := rfl
        rw [habove, habsolute, hparts, hnone, List.append_nil, dropLast_firstPart]
        rfl
  · have hinner : innerOf (front ++ [last]) = innerOf front ++ [found] := by
      rw [innerOf_append, innerOf_cons, hfound]
      rfl
    have hshorter : path.parts.dropLast =
        frontOf (first :: rest) ++ ((innerPart? first).toList ++ innerOf front) := by
      rw [hparts, hinner, ← List.append_assoc, ← List.append_assoc, List.dropLast_concat,
        List.append_assoc]
    obtain ⟨above, idleAbove, rfl, hdropAbove, hidleAbove, -⟩ := dropIdle_cons first front
    have hdropLast : dropIdle (first :: (above ++ idleAbove ++ [last])).dropLast =
        first :: above := by
      rw [← List.cons_append, List.dropLast_concat, hdropAbove]
    rw [hdropLast] at habove
    rw [hshorter, innerOf_append, hidleAbove, List.append_nil]
    have hslash : ∀ segment ∈ first :: above, '/' ∉ segment := by
      intro segment hmem
      have hsegment : segment ∈ splitSlashes path.text.toList := by
        change segment ∈ path.segments
        rw [hsegments, hrest]
        simp only [List.mem_cons, List.mem_append] at hmem ⊢
        tauto
      exact notMem_of_mem_splitSlashes hsegment
    obtain ⟨second, more, rfl⟩ : ∃ second more, rest = second :: more := by
      apply List.exists_cons_of_ne_nil
      rw [hrest]
      simp
    by_cases hempty : first = [] ∧ above = []
    · obtain ⟨rfl, rfl⟩ := hempty
      rw [habove, path.isAbsolute_iff.mpr ⟨second, more, hsegments⟩]
      rfl
    · rw [isEmpty_joinSegments hempty, Bool.and_false] at habove
      rw [habove, parts_eq]
      simp only [Bool.false_eq_true, if_false]
      rw [segments_ofList, splitSlashes_joinSegments (by simp) hslash, frontOf_shorten hempty,
        innerOf_cons]

/-! ## Going on to a name -/

theorem eq_nil_of_splitSlashes {text : List Char} (hsplit : splitSlashes text = [[]]) :
    text = [] := by
  cases text with
  | nil => rfl
  | cons c rest =>
      obtain ⟨first, others, hrest⟩ := List.exists_cons_of_ne_nil (splitSlashes_ne_nil rest)
      rw [splitSlashes, hrest] at hsplit
      split at hsplit <;> cases hsplit

theorem frontOf_concat {segments : List (List Char)} (hne : segments ≠ [])
    (left right : List Char) :
    frontOf (segments ++ [left]) = frontOf (segments ++ [right]) := by
  obtain ⟨first, rest, rfl⟩ := List.exists_cons_of_ne_nil hne
  rcases rest with _ | ⟨second, more⟩
  · rw [List.singleton_append, List.singleton_append, frontOf_cons_cons,
      frontOf_cons_cons first right]
  · simp only [List.cons_append]
    rw [frontOf_cons_cons, frontOf_cons_cons first second (more ++ [right])]

theorem innerOf_concat (segments : List (List Char)) (last : List Char) :
    innerOf (segments ++ [last]) = innerOf segments ++ (innerPart? last).toList := by
  rw [innerOf_append, innerOf_cons]
  exact congrArg _ (List.append_nil _)

theorem frontOf_of_ne_current {piece : List Char} (hpiece : piece ≠ ['.']) :
    frontOf [piece] = [] := by
  unfold frontOf
  split <;> simp_all

/-- A path that goes on to a piece has the part that the piece stands for as one part more. If
nothing is before it, the piece must not be the single point, which would count in front. -/
theorem parts_join_piece {base : Path} {piece : String} (hslash : '/' ∉ piece.toList)
    (hfront : base.text ≠ "" ∨ piece ≠ ".") :
    (base.join ⟨piece⟩).parts = base.parts ++ (innerPart? piece.toList).toList := by
  have hsingle := splitSlashes_of_notMem hslash
  rw [join, if_neg (by simp [isAbsolute_eq_false hslash]), parts_eq, parts_eq base]
  split
  · rename_i hopen
    rw [segments, String.toList_append]
    by_cases hempty : base.text = ""
    · have hpiece : piece.toList ≠ ['.'] := fun hpoint =>
        hfront.resolve_left (not_not_intro hempty) (String.toList_inj.mp hpoint)
      rw [segments, hempty, String.toList_empty, List.nil_append, hsingle,
        frontOf_of_ne_current hpiece]
      exact innerOf_concat [] piece.toList
    · have hslash : decide (base.text.toList.getLast? = some '/') = true := by
        simpa [String.isEmpty_iff, hempty] using hopen
      obtain ⟨front, hfront⟩ := List.getLast?_eq_some_iff.mp (of_decide_eq_true hslash)
      have hbase : base.segments = splitSlashes front ++ [[]] := by
        rw [segments, hfront, splitSlashes_append]
        rfl
      rw [hbase, hfront, List.append_assoc, List.singleton_append, splitSlashes_append, hsingle,
        innerOf_concat, innerOf_concat, frontOf_concat (splitSlashes_ne_nil front) _ [],
        ← List.append_assoc]
      show _ = frontOf _ ++ (innerOf _ ++ []) ++ _
      rw [List.append_nil]
  · rename_i hclosed
    have htext : (base.text ++ "/" ++ piece).toList = base.text.toList ++ '/' :: piece.toList := by
      simp
    have hbase : base.segments ≠ [[]] := by
      intro heq
      have hnil := eq_nil_of_splitSlashes heq
      simp [String.toList_eq_nil_iff.mp hnil] at hclosed
    rw [segments, htext, splitSlashes_append, hsingle, innerOf_concat, ← List.append_assoc]
    change frontOf (base.segments ++ _) ++ innerOf base.segments ++ _ = _
    have hne : base.segments ≠ [] := splitSlashes_ne_nil _
    obtain ⟨first, rest, hsegments⟩ := List.exists_cons_of_ne_nil hne
    rw [hsegments] at hbase ⊢
    congr 2
    rcases rest with _ | ⟨second, more⟩
    · have hfirst : first ≠ [] := fun hnil => hbase (by rw [hnil])
      exact frontOf_singleton hfirst _
    · rw [List.cons_append, List.cons_append, frontOf_cons_cons,
        frontOf_cons_cons first second more]

/-- A path that goes on to a name has that name as one part more. -/
theorem parts_join (base : Path) {name : String} (hname : IsName name) :
    (base.join ⟨name⟩).parts = base.parts ++ [.name name] := by
  have hpoint : name ≠ "." := by
    rintro rfl
    exact absurd hname.part (by decide)
  rw [parts_join_piece hname.noSlash (Or.inr hpoint), hname.part, Option.toList_some]

theorem parts_foldl_join {names : List String} (hnames : ∀ name ∈ names, IsName name)
    (start : Path) :
    (names.foldl (fun path name => path.join ⟨name⟩) start).parts =
      start.parts ++ names.map .name := by
  induction names generalizing start with
  | nil => exact (List.append_nil _).symm
  | cons name rest ih =>
      obtain ⟨hname, hrest⟩ := List.forall_mem_cons.mp hnames
      rw [List.foldl_cons, ih hrest, parts_join _ hname, List.map_cons, List.append_assoc]
      rfl

theorem exists_text_join (base : Path) {piece : String} (hslash : '/' ∉ piece.toList) :
    ∃ between, (base.join ⟨piece⟩).text.toList = base.text.toList ++ (between ++ piece.toList) := by
  rw [join, if_neg (by simp [isAbsolute_eq_false hslash])]
  split
  · exact ⟨[], by simp⟩
  · exact ⟨['/'], by simp⟩

theorem text_join_ne_empty {base : Path} {piece : String} (hslash : '/' ∉ piece.toList)
    (hsome : base.text ≠ "" ∨ piece ≠ "") : (base.join ⟨piece⟩).text ≠ "" := by
  obtain ⟨between, htext⟩ := base.exists_text_join hslash
  intro hempty
  rw [hempty] at htext
  simp_all

theorem text_join_ne_point {base : Path} {piece : String} (hslash : '/' ∉ piece.toList)
    (hsome : base.text ≠ "") (hpoint : base.text ≠ ".") : (base.join ⟨piece⟩).text ≠ "." := by
  obtain ⟨between, htext⟩ := base.exists_text_join hslash
  intro hjoin
  rw [hjoin] at htext
  obtain ⟨c, rest, hc⟩ := List.exists_cons_of_ne_nil (mt String.toList_eq_nil_iff.mp hsome)
  rw [hc, List.cons_append] at htext
  obtain ⟨rfl, hrest⟩ := List.cons.inj htext
  obtain ⟨rfl, -⟩ := List.append_eq_nil_iff.mp hrest.symm
  exact hpoint (String.toList_inj.mp hc)

/-- A path that ends with a name has one above it. -/
theorem exists_parent {path : Path} {name : String} (hname : path.fileName? = some name) :
    ∃ parent, path.parent? = some parent := by
  unfold parent?
  rw [getLast?_parts_of_fileName? hname]
  exact ⟨_, rfl⟩

/-- With another name at its end, a path keeps its other parts. -/
theorem parts_withFileName {path : Path} {name other : String}
    (hname : path.fileName? = some name) (hother : IsName other) :
    (path.withFileName other).parts = path.parts.dropLast ++ [.name other] := by
  obtain ⟨parent, hparent⟩ := exists_parent hname
  rw [withFileName, hname, hparent, Option.isSome_some, if_pos rfl, Option.getD_some,
    parts_join _ hother, parts_parent? hparent]

/-! ## Behind a base -/

theorem stripBase_append (base rest : List PathPart) :
    stripBase base (base ++ rest) = some rest := by
  induction base with
  | nil => rfl
  | cons part base ih => rw [List.cons_append, stripBase, if_pos rfl, ih]

theorem stripBase_current {base parts : List PathPart} (hparts : .current ∉ parts) :
    stripBase (.current :: base) parts = none := by
  cases parts with
  | nil => rfl
  | cons part rest =>
      rw [stripBase, if_neg]
      rintro rfl
      exact hparts List.mem_cons_self

end Path

end MetricCatalog
