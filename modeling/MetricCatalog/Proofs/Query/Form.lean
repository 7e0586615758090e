/-
# The form of filters

A filter is a column, an operator and a literal, with white space around them.
The characters of the three are of different classes, so a text can be a filter
in one way only. What the program answers to a text is a matter of these parts:
it complains about the first of them that does not fit, and about the whole text
if there are no such parts.
-/

import MetricCatalog.Proofs.Text.Pattern
import MetricCatalog.Query.Filter

namespace MetricCatalog

open Text

/-! ## Classes of characters -/

/-- The code points of a table, one by one. -/
def Text.CharRanges.points (table : CharRanges) : List Nat :=
  table.ranges.flatMap fun range => List.range' range.1 (range.2 + 1 - range.1)

theorem Text.CharRanges.toNat_mem_points {table : CharRanges} {c : Char}
    (hc : table.contains c = true) : c.toNat ∈ table.points := by
  obtain ⟨range, hrange, hlow, hhigh⟩ := (table.contains_iff c).mp hc
  refine List.mem_flatMap.mpr ⟨range, hrange, List.mem_range'_1.mpr ?_⟩
  omega

namespace FilterParts

variable {c : Char}

/-- No white space is a sign that a literal starts with. There are few enough of them to look at
each. -/
theorem isLiteralStart_of_isBlank (hc : isBlank c = true) : isLiteralStart c = false := by
  have hpoints : ∀ n ∈ blankTable.points, isLiteralStart (Char.ofNat n) = false := by
    decide +kernel
  have hpoint := hpoints _ (CharRanges.toNat_mem_points hc)
  rwa [Char.ofNat_toNat] at hpoint

theorem isLiteralStart_of_isColumnChar (hc : isColumnChar c = true) : isLiteralStart c = true := by
  unfold isColumnChar at hc
  unfold isLiteralStart
  simp only [Bool.or_eq_true] at hc ⊢
  tauto

theorem isBlank_of_isLiteralStart (hc : isLiteralStart c = true) : isBlank c = false :=
  Bool.eq_false_iff.mpr fun hblank =>
    Bool.eq_false_iff.mp (isLiteralStart_of_isBlank hblank) hc

theorem isOperatorChar_eq_true_iff :
    isOperatorChar c = true ↔ isLiteralStart c = false ∧ isBlank c = false := by
  simp [isOperatorChar]

theorem isColumnChar_eq_false (hc : isLiteralStart c = false) : isColumnChar c = false :=
  Bool.eq_false_iff.mpr fun hcolumn =>
    Bool.eq_false_iff.mp hc (isLiteralStart_of_isColumnChar hcolumn)

end FilterParts

/-! ## Spellings -/

/-- A filter as it is written: its parts and the white space around them. -/
structure FilterSpelling where
  lead : List Char
  column : List Char
  gap : List Char
  operator : List Char
  space : List Char
  literal : List Char
  trail : List Char

namespace FilterSpelling

/-- The written form. -/
def text (spelling : FilterSpelling) : List Char :=
  spelling.lead ++ (spelling.column ++ (spelling.gap ++ (spelling.operator ++
    (spelling.space ++ (spelling.literal ++ spelling.trail)))))

/-- What is written, without the white space. -/
def parts (spelling : FilterSpelling) : FilterParts :=
  ⟨spelling.column, spelling.operator, spelling.literal⟩

/-- The pieces of a filter. A literal may have white space in it, but no line feed. -/
structure IsProper (spelling : FilterSpelling) : Prop where
  lead : ∀ c ∈ spelling.lead, isBlank c = true
  column_ne_nil : spelling.column ≠ []
  column : ∀ c ∈ spelling.column, FilterParts.isColumnChar c = true
  gap : ∀ c ∈ spelling.gap, isBlank c = true
  operator_ne_nil : spelling.operator ≠ []
  operator : ∀ c ∈ spelling.operator, FilterParts.isOperatorChar c = true
  space : ∀ c ∈ spelling.space, isBlank c = true
  literal_start : ∃ c rest, spelling.literal = c :: rest ∧ FilterParts.isLiteralStart c = true
  literal_line : '\n' ∉ spelling.literal
  literal_end : EndsSolid spelling.literal
  trail : ∀ c ∈ spelling.trail, isBlank c = true

/-- The only spelling that a text can have: each piece but the literal goes on for as long as its
class of characters does. -/
def ofText (text : List Char) : FilterSpelling :=
  let behindLead := text.dropWhile isBlank
  let behindColumn := behindLead.dropWhile FilterParts.isColumnChar
  let behindGap := behindColumn.dropWhile isBlank
  let behindOperator := behindGap.dropWhile FilterParts.isOperatorChar
  let behindSpace := behindOperator.dropWhile isBlank
  { lead := text.takeWhile isBlank
    column := behindLead.takeWhile FilterParts.isColumnChar
    gap := behindColumn.takeWhile isBlank
    operator := behindGap.takeWhile FilterParts.isOperatorChar
    space := behindOperator.takeWhile isBlank
    literal := trimEnd behindSpace
    trail := (behindSpace.reverse.takeWhile isBlank).reverse }

theorem text_ofText (text : List Char) : (ofText text).text = text := by
  have hend (text : List Char) :
      trimEnd text ++ (text.reverse.takeWhile isBlank).reverse = text := by
    rw [trimEnd, ← List.reverse_append, List.takeWhile_append_dropWhile, List.reverse_reverse]
  unfold FilterSpelling.text ofText
  simp only [hend, List.takeWhile_append_dropWhile]

/-- The first character of a run is of its class. Behind a run of nothing comes what follows. -/
theorem head?_run {p : Char → Prop} {run rest : List Char} (hrun : ∀ c ∈ run, p c)
    (hrest : run = [] → ∀ c ∈ rest.head?, p c) : ∀ c ∈ (run ++ rest).head?, p c := by
  cases run with
  | nil => exact hrest rfl
  | cons first more =>
      rintro c ⟨⟩
      exact hrun first List.mem_cons_self

/-! ### What follows a piece

No piece is followed by a character of its class. This is seen from the last piece to the first,
since a piece that may be empty shows the one behind it. -/

section

variable {spelling : FilterSpelling} (hproper : spelling.IsProper)

include hproper

theorem IsProper.isLiteralStart_behindSpace :
    ∀ c ∈ (spelling.literal ++ spelling.trail).head?, FilterParts.isLiteralStart c = true := by
  obtain ⟨first, rest, hliteral, hfirst⟩ := hproper.literal_start
  rw [hliteral]
  rintro c ⟨⟩
  exact hfirst

theorem IsProper.isBlank_behindSpace :
    ∀ c ∈ (spelling.literal ++ spelling.trail).head?, isBlank c = false := fun c hc =>
  FilterParts.isBlank_of_isLiteralStart (hproper.isLiteralStart_behindSpace c hc)

theorem IsProper.isOperatorChar_behindOperator :
    ∀ c ∈ (spelling.space ++ (spelling.literal ++ spelling.trail)).head?,
      FilterParts.isOperatorChar c = false := by
  refine head?_run (fun c hc => ?_) fun _ c hc => ?_
  · simp [FilterParts.isOperatorChar, hproper.space c hc]
  · simp [FilterParts.isOperatorChar, hproper.isLiteralStart_behindSpace c hc]

theorem IsProper.isOperatorChar_behindGap :
    ∀ c ∈ (spelling.operator ++ (spelling.space ++ (spelling.literal ++ spelling.trail))).head?,
      FilterParts.isOperatorChar c = true :=
  head?_run hproper.operator fun hnone => absurd hnone hproper.operator_ne_nil

theorem IsProper.isBlank_behindGap :
    ∀ c ∈ (spelling.operator ++ (spelling.space ++ (spelling.literal ++ spelling.trail))).head?,
      isBlank c = false := fun c hc =>
  (FilterParts.isOperatorChar_eq_true_iff.mp (hproper.isOperatorChar_behindGap c hc)).2

theorem IsProper.isColumnChar_behindColumn :
    ∀ c ∈ (spelling.gap ++ (spelling.operator ++ (spelling.space ++
      (spelling.literal ++ spelling.trail)))).head?, FilterParts.isColumnChar c = false := by
  refine head?_run (fun c hc => ?_) fun _ c hc => ?_
  · exact FilterParts.isColumnChar_eq_false
      (FilterParts.isLiteralStart_of_isBlank (hproper.gap c hc))
  · exact FilterParts.isColumnChar_eq_false
      (FilterParts.isOperatorChar_eq_true_iff.mp (hproper.isOperatorChar_behindGap c hc)).1

theorem IsProper.isBlank_behindLead :
    ∀ c ∈ (spelling.column ++ (spelling.gap ++ (spelling.operator ++ (spelling.space ++
      (spelling.literal ++ spelling.trail))))).head?, isBlank c = false := by
  refine head?_run (fun c hc => ?_) fun hnone => absurd hnone hproper.column_ne_nil
  exact FilterParts.isBlank_of_isLiteralStart
    (FilterParts.isLiteralStart_of_isColumnChar (hproper.column c hc))

theorem IsProper.isBlank_literal_last :
    ∀ c ∈ spelling.literal.reverse.head?, isBlank c = false := by
  obtain ⟨front, last, hliteral, hsolid⟩ := hproper.literal_end
  rw [hliteral, List.reverse_append]
  rintro c ⟨⟩
  exact hsolid

/-- So each piece is found by going on for as long as its class does, and the white space at the end
by going backward. -/
theorem IsProper.eq_ofText : spelling = ofText spelling.text := by
  have htrail : ∀ c ∈ spelling.trail.reverse, isBlank c = true := fun c hc =>
    hproper.trail c (List.mem_reverse.mp hc)
  simp only [FilterSpelling.text, ofText, trimEnd, List.reverse_append, List.reverse_reverse,
    takeWhile_run hproper.lead hproper.isBlank_behindLead,
    dropWhile_run hproper.lead hproper.isBlank_behindLead,
    takeWhile_run hproper.column hproper.isColumnChar_behindColumn,
    dropWhile_run hproper.column hproper.isColumnChar_behindColumn,
    takeWhile_run hproper.gap hproper.isBlank_behindGap,
    dropWhile_run hproper.gap hproper.isBlank_behindGap,
    takeWhile_run hproper.operator hproper.isOperatorChar_behindOperator,
    dropWhile_run hproper.operator hproper.isOperatorChar_behindOperator,
    takeWhile_run hproper.space hproper.isBlank_behindSpace,
    dropWhile_run hproper.space hproper.isBlank_behindSpace,
    takeWhile_run htrail hproper.isBlank_literal_last,
    dropWhile_run htrail hproper.isBlank_literal_last]

end

/-- A text has one spelling at most. -/
theorem IsProper.unique {first second : FilterSpelling} (hfirst : first.IsProper)
    (hsecond : second.IsProper) (htext : first.text = second.text) : first = second := by
  rw [hfirst.eq_ofText, hsecond.eq_ofText, htext]

theorem isProper_ofText_iff (text : List Char) :
    (ofText text).IsProper ↔ (ofText text).column ≠ [] ∧ (ofText text).operator ≠ [] ∧
      (ofText text).literal.head?.any FilterParts.isLiteralStart = true ∧
      '\n' ∉ (ofText text).literal := by
  constructor
  · intro hproper
    obtain ⟨first, rest, hliteral, hfirst⟩ := hproper.literal_start
    exact ⟨hproper.column_ne_nil, hproper.operator_ne_nil, by rw [hliteral]; exact hfirst,
      hproper.literal_line⟩
  · rintro ⟨hcolumn, hoperator, hstart, hline⟩
    have htake {isPart : Char → Bool} {text : List Char} :
        ∀ c ∈ text.takeWhile isPart, isPart c = true := List.all_eq_true.mp List.all_takeWhile
    have hsome : (ofText text).literal ≠ [] := by
      intro hnone
      rw [hnone] at hstart
      cases hstart
    obtain ⟨first, rest, hliteral⟩ := List.exists_cons_of_ne_nil hsome
    refine ⟨htake, hcolumn, htake, htake, hoperator, htake, htake, ⟨first, rest, hliteral, ?_⟩,
      hline, EndsSolid.of_getLast? hsome ?_,
      fun c hc => htake c (List.mem_reverse.mp hc)⟩
    · rw [hliteral] at hstart
      exact hstart
    · exact isBlank_getLast?_trim _

end FilterSpelling

namespace FilterParts

theorem parse?_eq (text : List Char) :
    parse? text =
      if (FilterSpelling.ofText text).column.isEmpty ||
          (FilterSpelling.ofText text).operator.isEmpty ||
          !(FilterSpelling.ofText text).literal.head?.any isLiteralStart ||
          (FilterSpelling.ofText text).literal.contains '\n' then none
      else some (FilterSpelling.ofText text).parts := rfl

/-- The parts of a filter are found if and only if it can be spelt with them. -/
theorem parse?_eq_some_iff {text : List Char} {parts : FilterParts} :
    parse? text = some parts ↔
      ∃ spelling : FilterSpelling, spelling.IsProper ∧ spelling.text = text ∧
        spelling.parts = parts := by
  have hproper := FilterSpelling.isProper_ofText_iff text
  rw [parse?_eq]
  split <;> rename_i hfits
  · have hnot : ¬ (FilterSpelling.ofText text).IsProper := by
      rw [hproper]
      rintro ⟨hcolumn, hoperator, hstart, hline⟩
      simp [hcolumn, hoperator, hstart, hline] at hfits
    refine ⟨nofun, ?_⟩
    rintro ⟨spelling, hspelling, rfl, -⟩
    exact absurd (hspelling.eq_ofText ▸ hspelling) hnot
  · have hfound : (FilterSpelling.ofText text).IsProper := by
      rw [hproper]
      simpa [and_assoc] using hfits
    constructor
    · intro hparts
      exact ⟨_, hfound, FilterSpelling.text_ofText text, Option.some.inj hparts⟩
    · rintro ⟨spelling, hspelling, rfl, rfl⟩
      rw [← hspelling.eq_ofText]

/-- The literal of a filter and the white space behind it. -/
def literalPattern : Pattern :=
  .next (.group (.next (.one isLiteralStart) (.lazy (· ≠ '\n')))) .blankEnd

/-- A filter as a pattern: a column, an operator and a literal, each in a group. In the usual way of
writing patterns it is `^\s*([\w./]+)\s*([^\w\s'"./+\-]+)\s*([\w'"./+\-].*?)\s*$`. -/
def pattern : Pattern :=
  .next (.greedy isBlank) <| .next (.group (.run isColumnChar)) <|
  .next (.greedy isBlank) <| .next (.group (.run isOperatorChar)) <|
  .next (.greedy isBlank) literalPattern

theorem avoids_literalPattern {isPart : Char → Bool}
    (hpart : ∀ c, isPart c = true → isLiteralStart c = false) :
    literalPattern.Avoids isPart := ((Pattern.avoids_one hpart).next _).group.next _

/-- In front of a literal there is no white space left. -/
theorem groups?_literalPattern {text : List Char} (hsolid : ∀ c ∈ text.head?, isBlank c = false) :
    literalPattern.groups? text =
      if (trimEnd text).head?.any isLiteralStart && !(trimEnd text).contains '\n' then
        some [trimEnd text]
      else none := by
  cases text with
  | nil => rfl
  | cons c rest =>
      have hc := hsolid c rfl
      have hline : c ≠ '\n' := by
        rintro rfl
        revert hc
        decide
      have hsome : ¬ (c :: rest).all isBlank = true := by simp [hc]
      rw [literalPattern, Pattern.groups?_lazy_blankEnd, Pattern.trimEnd_cons, if_neg hsome]
      simp [hline.symm, List.forall_mem_ne']

/-- The parts that are found are those that the groups of the pattern take. Of its repetitions only
the lazy one has to be tried at more than one length. -/
theorem groups?_pattern (text : List Char) :
    pattern.groups? text =
      (parse? text).map fun parts => [parts.column, parts.operator, parts.literal] := by
  have hstart (c : Char) (hc : isOperatorChar c = true) : isLiteralStart c = false :=
    (isOperatorChar_eq_true_iff.mp hc).1
  have hcolumn (c : Char) (hc : isColumnChar c = true) : isLiteralStart c = true :=
    isLiteralStart_of_isColumnChar hc
  have hliteral : literalPattern.Avoids isBlank :=
    avoids_literalPattern fun c => isLiteralStart_of_isBlank
  have hbehindOperator : (Pattern.next (.greedy isBlank) literalPattern).Avoids isOperatorChar :=
    (avoids_literalPattern hstart).behind_greedy fun c hc => (isOperatorChar_eq_true_iff.mp hc).2
  have hoperator {isPart : Char → Bool} (hpart : ∀ c, isPart c = true → isOperatorChar c = false) :
      (Pattern.next (.group (.run isOperatorChar)) (.next (.greedy isBlank) literalPattern)).Avoids
        isPart := Pattern.avoids_run_next hpart _
  have hbehindColumn : (Pattern.next (.greedy isBlank) <| .next (.group (.run isOperatorChar)) <|
      .next (.greedy isBlank) literalPattern).Avoids isColumnChar :=
    (hoperator fun c hc => by simp [isOperatorChar, hcolumn c hc]).behind_greedy fun c hc =>
      isBlank_of_isLiteralStart (hcolumn c hc)
  have hfirst : (Pattern.next (.group (.run isColumnChar)) <| .next (.greedy isBlank) <|
      .next (.group (.run isOperatorChar)) <| .next (.greedy isBlank) literalPattern).Avoids
        isBlank :=
    Pattern.avoids_run_next (fun c hc => isColumnChar_eq_false (isLiteralStart_of_isBlank hc)) _
  rw [pattern, Pattern.groups?_greedy_next hfirst, Pattern.groups?_run_next hbehindColumn,
    Pattern.groups?_greedy_next (hoperator fun c hc => by simp [isOperatorChar, hc]),
    Pattern.groups?_run_next hbehindOperator, Pattern.groups?_greedy_next hliteral,
    groups?_literalPattern fun c => isPart_head?_dropWhile c, parse?_eq]
  change (if (FilterSpelling.ofText text).column = [] then none else
    (if (FilterSpelling.ofText text).operator = [] then none else
      (if (FilterSpelling.ofText text).literal.head?.any isLiteralStart &&
          !(FilterSpelling.ofText text).literal.contains '\n' then
        some [(FilterSpelling.ofText text).literal]
      else none).map ((FilterSpelling.ofText text).operator :: ·)).map
        ((FilterSpelling.ofText text).column :: ·)) = _
  by_cases hcolumnNone : (FilterSpelling.ofText text).column = []
  · simp [hcolumnNone]
  · by_cases hoperatorNone : (FilterSpelling.ofText text).operator = []
    · simp [hcolumnNone, hoperatorNone]
    · cases (FilterSpelling.ofText text).literal.head?.any isLiteralStart <;>
        cases (FilterSpelling.ofText text).literal.contains '\n' <;>
        simp [hcolumnNone, hoperatorNone, FilterSpelling.parts]

end FilterParts

/-! ## Binding filters -/

/-- The columns give a name a type. Of several columns with the name the last one counts. -/
def IsTypeOf (columns : List (String × ColumnType)) (name : String) (type : ColumnType) : Prop :=
  ∃ before after, columns = before ++ (name, type) :: after ∧ ∀ column ∈ after, column.1 ≠ name

theorem columnType?_eq_some_iff {columns : List (String × ColumnType)} {name : String}
    {type : ColumnType} : columnType? columns name = some type ↔ IsTypeOf columns name type := by
  unfold columnType? IsTypeOf
  rw [Option.map_eq_some_iff]
  constructor
  · rintro ⟨⟨found, type⟩, hfound, rfl⟩
    obtain ⟨hname, after, before, hcolumns, hafter⟩ := List.find?_eq_some_iff_append.mp hfound
    obtain rfl : found = name := by simpa using hname
    refine ⟨before.reverse, after.reverse, ?_, fun column hcolumn => ?_⟩
    · rw [← List.reverse_reverse columns, hcolumns]
      simp
    · simpa using hafter column (List.mem_reverse.mp hcolumn)
  · rintro ⟨before, after, rfl, hafter⟩
    refine ⟨(name, type), List.find?_eq_some_iff_append.mpr ⟨by simp, after.reverse,
      before.reverse, by simp, fun column hcolumn => ?_⟩, rfl⟩
    simpa using hafter column (List.mem_reverse.mp hcolumn)

theorem columnType?_eq_none_iff {columns : List (String × ColumnType)} {name : String} :
    columnType? columns name = none ↔ ∀ column ∈ columns, column.1 ≠ name := by
  simp [columnType?]

namespace Operator

theorem mem_all (op : Operator) : op ∈ all := by cases op <;> decide

theorem ofSign?_eq_some_iff {text : String} {op : Operator} :
    ofSign? text = some op ↔ op.sign = text := by
  constructor
  · intro hop
    simpa using List.find?_some hop
  · rintro rfl
    cases op <;> rfl

theorem ofSign?_eq_none_iff {text : String} :
    ofSign? text = none ↔ ∀ op : Operator, op.sign ≠ text := by
  simp [ofSign?, mem_all]

end Operator

/-- What the program answers to an expression, given the columns there are. It checks the column
first, then the operator and the literal last. -/
inductive FilterAnswer (columns : List (String × ColumnType)) (expression : String) :
    Except FilterError Predicate → Prop
  | malformed
      (hnone : ∀ spelling : FilterSpelling, spelling.IsProper →
        spelling.text ≠ expression.toList) :
      FilterAnswer columns expression (.error (.malformed expression))
  | unknownColumn {spelling : FilterSpelling} (hproper : spelling.IsProper)
      (htext : spelling.text = expression.toList)
      (hcolumn : ∀ column ∈ columns, column.1 ≠ String.ofList spelling.column) :
      FilterAnswer columns expression (.error (.unknownColumn (String.ofList spelling.column)))
  | unsupportedOperator {spelling : FilterSpelling} (hproper : spelling.IsProper)
      (htext : spelling.text = expression.toList) {type : ColumnType}
      (hcolumn : IsTypeOf columns (String.ofList spelling.column) type)
      (hop : ∀ op : Operator, op.sign ≠ String.ofList spelling.operator) :
      FilterAnswer columns expression
        (.error (.unsupportedOperator (String.ofList spelling.operator)))
  | invalidLiteral {spelling : FilterSpelling} (hproper : spelling.IsProper)
      (htext : spelling.text = expression.toList) {type : ColumnType}
      (hcolumn : IsTypeOf columns (String.ofList spelling.column) type) {op : Operator}
      (hop : op.sign = String.ofList spelling.operator)
      (hliteral : Literal.parseText spelling.literal = none) :
      FilterAnswer columns expression (.error (.invalidLiteral (String.ofList spelling.literal)))
  | bound {spelling : FilterSpelling} (hproper : spelling.IsProper)
      (htext : spelling.text = expression.toList) {type : ColumnType}
      (hcolumn : IsTypeOf columns (String.ofList spelling.column) type) {op : Operator}
      (hop : op.sign = String.ofList spelling.operator) {literal : Literal}
      (hliteral : Literal.parseText spelling.literal = some literal) :
      FilterAnswer columns expression (.ok ⟨String.ofList spelling.column, type, op, literal⟩)

section

variable {columns : List (String × ColumnType)} {expression : String}

theorem parse?_of_spelling {spelling : FilterSpelling} (hproper : spelling.IsProper)
    (htext : spelling.text = expression.toList) :
    FilterParts.parse? expression.toList = some spelling.parts :=
  FilterParts.parse?_eq_some_iff.mpr ⟨spelling, hproper, htext, rfl⟩

theorem FilterAnswer.compileFilter_eq {result : Except FilterError Predicate}
    (hanswer : FilterAnswer columns expression result) :
    compileFilter columns expression = result := by
  cases hanswer with
  | malformed hnone =>
      have hparse : FilterParts.parse? expression.toList = none := by
        rw [Option.eq_none_iff_forall_ne_some]
        intro parts hparts
        obtain ⟨spelling, hproper, htext, -⟩ := FilterParts.parse?_eq_some_iff.mp hparts
        exact hnone spelling hproper htext
      simp only [compileFilter, hparse]
  | unknownColumn hproper htext hcolumn =>
      simp only [compileFilter, parse?_of_spelling hproper htext, FilterSpelling.parts,
        columnType?_eq_none_iff.mpr hcolumn]
  | unsupportedOperator hproper htext hcolumn hop =>
      simp only [compileFilter, parse?_of_spelling hproper htext, FilterSpelling.parts,
        columnType?_eq_some_iff.mpr hcolumn, Operator.ofSign?_eq_none_iff.mpr hop]
  | invalidLiteral hproper htext hcolumn hop hliteral =>
      simp only [compileFilter, parse?_of_spelling hproper htext, FilterSpelling.parts,
        columnType?_eq_some_iff.mpr hcolumn, Operator.ofSign?_eq_some_iff.mpr hop, hliteral]
  | bound hproper htext hcolumn hop hliteral =>
      simp only [compileFilter, parse?_of_spelling hproper htext, FilterSpelling.parts,
        columnType?_eq_some_iff.mpr hcolumn, Operator.ofSign?_eq_some_iff.mpr hop, hliteral]

/-- There is an answer to every expression. -/
theorem exists_filterAnswer (columns : List (String × ColumnType)) (expression : String) :
    ∃ result, FilterAnswer columns expression result := by
  by_cases hspelt : ∃ spelling : FilterSpelling,
      spelling.IsProper ∧ spelling.text = expression.toList
  · obtain ⟨spelling, hproper, htext⟩ := hspelt
    cases hcolumn : columnType? columns (String.ofList spelling.column) with
    | none =>
        exact ⟨_, .unknownColumn hproper htext (columnType?_eq_none_iff.mp hcolumn)⟩
    | some type =>
        have htype := columnType?_eq_some_iff.mp hcolumn
        cases hop : Operator.ofSign? (String.ofList spelling.operator) with
        | none =>
            exact ⟨_, .unsupportedOperator hproper htext htype
              (Operator.ofSign?_eq_none_iff.mp hop)⟩
        | some op =>
            have hsign := Operator.ofSign?_eq_some_iff.mp hop
            cases hliteral : Literal.parseText spelling.literal with
            | none => exact ⟨_, .invalidLiteral hproper htext htype hsign hliteral⟩
            | some literal => exact ⟨_, .bound hproper htext htype hsign hliteral⟩
  · refine ⟨_, .malformed fun spelling hproper htext => hspelt ⟨spelling, hproper, htext⟩⟩

end

/-- A text is a filter in one way at most, the pattern finds it, and the answer to it is the one
that its parts ask for. -/
theorem compileFilter_eq_iff (columns : List (String × ColumnType)) (expression : String) :
    (∀ first second : FilterSpelling, first.IsProper → second.IsProper →
      first.text = expression.toList → second.text = expression.toList → first = second) ∧
    (∀ groups, FilterParts.pattern.groups? expression.toList = some groups ↔
      ∃ spelling : FilterSpelling, spelling.IsProper ∧ spelling.text = expression.toList ∧
        groups = [spelling.column, spelling.operator, spelling.literal]) ∧
    ∀ result, compileFilter columns expression = result ↔
      FilterAnswer columns expression result := by
  refine ⟨fun first second hfirst hsecond htext hother =>
    hfirst.unique hsecond (htext.trans hother.symm), fun groups => ?_, fun result => ⟨?_, ?_⟩⟩
  · rw [FilterParts.groups?_pattern, Option.map_eq_some_iff]
    constructor
    · rintro ⟨parts, hparts, rfl⟩
      obtain ⟨spelling, hproper, htext, rfl⟩ := FilterParts.parse?_eq_some_iff.mp hparts
      exact ⟨spelling, hproper, htext, rfl⟩
    · rintro ⟨spelling, hproper, htext, rfl⟩
      exact ⟨spelling.parts, parse?_of_spelling hproper htext, rfl⟩
  · rintro rfl
    obtain ⟨result, hanswer⟩ := exists_filterAnswer columns expression
    rwa [hanswer.compileFilter_eq]
  · exact FilterAnswer.compileFilter_eq

end MetricCatalog
