/-
# The texts of JSON values

A relation between values and the texts that write them, with any space between
the parts of a text. Each text of a value is read as that value, whatever stands
behind it.
-/

import Mathlib.Data.List.DropRight
import MetricCatalog.Json.Printer
import MetricCatalog.Proofs.Json.Number

namespace MetricCatalog

open Text

namespace Json

/-- Only spaces. -/
def IsGap (gap : List Char) : Prop := ∀ c ∈ gap, isSpace c = true

mutual

/-- The text writes the value. -/
inductive Spells : Json → List Char → Prop
  | null : Spells null "null".toList
  | bool (value : Bool) : Spells (bool value) (scalarText (bool value))
  | num {n : Numeral} (hn : n.IsPlain) : Spells (num n) n.text
  | str (text : String) : Spells (str text) (quotedString text)
  | emptyList : Spells (arr []) ['[', ']']
  | arr {items : List Json} {text : List Char} (hitems : SpellsItems items text) :
      Spells (arr items) ('[' :: text)
  | emptyObject : Spells (obj []) ['\x7b', '\x7d']
  | obj {fields : List (Json × Json)} {text : List Char} (hfields : SpellsFields fields text) :
      Spells (obj fields) ('\x7b' :: text)

/-- The text writes items and the bracket that closes them. -/
inductive SpellsItems : List Json → List Char → Prop
  | last {item : Json} {before text after : List Char} (hbefore : IsGap before)
      (hitem : Spells item text) (hafter : IsGap after) :
      SpellsItems [item] (before ++ (text ++ (after ++ [']'])))
  | cons {item : Json} {items : List Json} {before text rest : List Char}
      (hbefore : IsGap before) (hitem : Spells item text) (hrest : SpellsItems items rest) :
      SpellsItems (item :: items) (before ++ (text ++ ',' :: rest))

/-- The text writes fields and the brace that closes them. -/
inductive SpellsFields : List (Json × Json) → List Char → Prop
  | last {key : String} {value : Json} {before middle text after : List Char}
      (hbefore : IsGap before) (hmiddle : IsGap middle) (hvalue : Spells value text)
      (hafter : IsGap after) :
      SpellsFields [(str key, value)]
        (before ++ (quotedString key ++ ':' :: (middle ++ (text ++ (after ++ ['\x7d'])))))
  | cons {key : String} {value : Json} {fields : List (Json × Json)}
      {before middle text rest : List Char} (hbefore : IsGap before) (hmiddle : IsGap middle)
      (hvalue : Spells value text) (hrest : SpellsFields fields rest) :
      SpellsFields ((str key, value) :: fields)
        (before ++ (quotedString key ++ ':' :: (middle ++ (text ++ ',' :: rest))))

end

/-! ## Strings -/

section Strings

variable {c : Char} {unit : Nat} {rest : List Char}

theorem stringUnits_plain (hquote : c ≠ '"') (hescape : c ≠ '\\') (hc : 32 ≤ c.toNat) :
    stringUnits (c :: rest) = (stringUnits rest).map fun read => (c.toNat :: read.1, read.2) := by
  rw [Option.map_eq_bind, stringUnits.eq_def]
  split
  · contradiction
  · rename_i htext
    cases htext
    exact absurd rfl hquote
  · rename_i htext
    cases htext
    exact absurd rfl hescape
  · rename_i htext
    cases htext
    exact absurd rfl hescape
  · rename_i htext
    cases htext
    rw [guard_of_holds hc]
    rfl

theorem stringUnits_letter (hletter : escapeValue? c = some unit) :
    stringUnits ('\\' :: c :: rest) =
      (stringUnits rest).map fun read => (unit :: read.1, read.2) := by
  rw [Option.map_eq_bind, stringUnits.eq_def]
  split
  · contradiction
  · rename_i htext
    cases htext
  · rename_i htext
    cases htext
    cases hletter
  · rename_i htext
    cases htext
    rw [hletter]
    rfl
  · rename_i hnot htext
    cases htext
    exact absurd rfl (hnot c rest rfl)

theorem stringUnits_code {w x y z : Char} (hcode : hexadecimal? [w, x, y, z] = some unit) :
    stringUnits ('\\' :: 'u' :: w :: x :: y :: z :: rest) =
      (stringUnits rest).map fun read => (unit :: read.1, read.2) := by
  rw [stringUnits, hcode]
  cases stringUnits rest <;> rfl

end Strings

/-- A character as it is written in a string is read as that character. -/
theorem stringUnits_escaped (c : Char) (rest : List Char) :
    stringUnits (escaped c ++ rest) =
      (stringUnits rest).map fun read => (c.toNat :: read.1, read.2) := by
  unfold escaped
  split
  · exact stringUnits_letter rfl
  · exact stringUnits_letter rfl
  · exact stringUnits_letter rfl
  · exact stringUnits_letter rfl
  · exact stringUnits_letter rfl
  · exact stringUnits_letter rfl
  · exact stringUnits_letter rfl
  · rename_i hquote hescape _ _ _ _ _
    split
    · have hlength : (paddedHexDigits 4 c.toNat).length = 4 :=
        length_paddedHexDigits (by decide) (by omega)
      have hcode := hexadecimal?_paddedHexDigits 4 c.toNat
      match hdigits : paddedHexDigits 4 c.toNat, hlength with
      | [w, x, y, z], _ =>
          rw [hdigits] at hcode
          exact stringUnits_code hcode
    · exact stringUnits_plain hquote hescape (by omega)

theorem stringUnits_flatMap (content rest : List Char) :
    stringUnits (content.flatMap escaped ++ '"' :: rest) =
      some (content.map Char.toNat, rest) := by
  induction content with
  | nil => rfl
  | cons c content ih =>
      rw [List.flatMap_cons, List.append_assoc, stringUnits_escaped, ih]
      rfl

/-- No character is half of a surrogate pair. -/
theorem joinSurrogates_toNat (content : List Char) :
    joinSurrogates (content.map Char.toNat) = some content := by
  induction content with
  | nil => rfl
  | cons c content ih =>
      have hvalid : c.toNat < 0xD800 ∨ 0xDFFF < c.toNat := c.valid.imp_right And.left
      have hhigh : isHighSurrogate c.toNat = false := by
        simp only [isHighSurrogate, Bool.and_eq_false_iff, decide_eq_false_iff_not]
        omega
      have hlow : isLowSurrogate c.toNat = false := by
        simp only [isLowSurrogate, Bool.and_eq_false_iff, decide_eq_false_iff_not]
        omega
      rw [List.map_cons, joinSurrogates.eq_def]
      simp [hhigh, hlow, ih]

/-- A string in quotes, whatever stands behind it. -/
theorem parseString_quoted (text : String) (rest : List Char) :
    parseString (text.toList.flatMap escaped ++ '"' :: rest) = (str text, rest) := by
  rw [parseString, stringUnits_flatMap]
  simp only
  rw [joinSurrogates_toNat]
  simp only [String.ofList_toList]

/-! ## Spaces and first characters -/

section Spaces

variable {gap text rest : List Char} {c : Char}

theorem skipSpace_cons (hc : isSpace c = false) : skipSpace (c :: text) = c :: text :=
  List.dropWhile_cons_of_neg (by simpa using hc)

theorem skipSpace_append (hgap : IsGap gap) : skipSpace (gap ++ text) = skipSpace text :=
  List.dropWhile_append_of_pos hgap

theorem skipSpace_skipSpace (text : List Char) : skipSpace (skipSpace text) = skipSpace text :=
  List.dropWhile_idempotent _ _

/-- What ends a number may have spaces before it. -/
theorem endsNumber_append (hgap : IsGap gap) (hrest : EndsNumber rest) :
    EndsNumber (gap ++ rest) := by
  cases gap with
  | nil => exact hrest
  | cons space gap =>
      have hspace := hgap space List.mem_cons_self
      simp only [isSpace, Bool.or_eq_true, decide_eq_true_eq, or_assoc] at hspace
      rintro c ⟨⟩
      rcases hspace with rfl | rfl | rfl | rfl <;> decide

theorem endsNumber_cons (hc : isDigit c = false ∧ c ≠ '.' ∧ c ≠ 'e' ∧ c ≠ 'E') :
    EndsNumber (c :: rest) := by
  rintro _ ⟨⟩
  exact hc

end Spaces

theorem parseValue_skipSpace (fuel : Nat) (text : List Char) :
    parseValue fuel (skipSpace text) = parseValue fuel text := by
  cases fuel <;> simp only [parseValue, skipSpace_skipSpace]

theorem parseValue_append {gap : List Char} (hgap : IsGap gap) (fuel : Nat) (text : List Char) :
    parseValue fuel (gap ++ text) = parseValue fuel text := by
  rw [← parseValue_skipSpace, skipSpace_append hgap, parseValue_skipSpace]

theorem parseItems_skipSpace (fuel : Nat) (text : List Char) :
    parseItems fuel (skipSpace text) = parseItems fuel text := by
  cases fuel <;> simp only [parseItems, parseValue_skipSpace]

theorem parseFields_skipSpace (fuel : Nat) (text : List Char) :
    parseFields fuel (skipSpace text) = parseFields fuel text := by
  cases fuel <;> simp only [parseFields, parseValue_skipSpace]

theorem ne_of_isDigit {c mark : Char} (hc : isDigit c = true ∨ c = '-')
    (hmark : isDigit mark = false ∧ mark ≠ '-') : c ≠ mark := by
  rintro rfl
  rcases hc with hdigit | hminus
  · rw [hmark.1] at hdigit
    cases hdigit
  · exact hmark.2 hminus

/-- A numeral starts with a digit or a minus. -/
theorem exists_cons_text {n : Numeral} (hn : n.WellFormed) :
    ∃ c rest, n.text = c :: rest ∧ (isDigit c = true ∨ c = '-') := by
  obtain ⟨negative, whole, fraction, scale⟩ := n
  rw [Numeral.text_eq, Numeral.body]
  cases negative with
  | true => exact ⟨'-', _, rfl, Or.inr rfl⟩
  | false =>
      cases whole with
      | nil => exact absurd rfl hn.whole_ne_nil
      | cons first whole => exact ⟨first, _, rfl, Or.inl (hn.whole first List.mem_cons_self)⟩

/-- A value starts with no space, and with nothing that closes a list or an object. -/
theorem Spells.exists_cons {value : Json} {text : List Char} (hvalue : Spells value text) :
    ∃ c rest, text = c :: rest ∧ isSpace c = false ∧ c ≠ ']' ∧ c ≠ '\x7d' := by
  cases hvalue with
  | null => exact ⟨'n', _, rfl, by decide⟩
  | bool value => cases value <;> exact ⟨_, _, rfl, by decide⟩
  | str | emptyList | arr | emptyObject | obj => exact ⟨_, _, rfl, by decide⟩
  | num hn =>
      obtain ⟨c, rest, htext, hc⟩ := exists_cons_text hn.toWellFormed
      have hspace : isSpace c = false := by
        simp only [isSpace, Bool.or_eq_false_iff, decide_eq_false_iff_not]
        exact ⟨⟨⟨ne_of_isDigit hc (by decide), ne_of_isDigit hc (by decide)⟩,
          ne_of_isDigit hc (by decide)⟩, ne_of_isDigit hc (by decide)⟩
      exact ⟨c, rest, htext, hspace, ne_of_isDigit hc (by decide), ne_of_isDigit hc (by decide)⟩

/-! ## Reading what is spelled -/

section Reading

/-- Every value that is spelled in few enough characters is read. -/
def ReadsValues (fuel : Nat) : Prop :=
  ∀ {value : Json} {text rest : List Char}, Spells value text → EndsNumber rest →
    text.length ≤ fuel → parseValue fuel (text ++ rest) = (value, rest)

/-- All items that are spelled in few enough characters are read. -/
def ReadsItems (fuel : Nat) : Prop :=
  ∀ {items : List Json} {text rest : List Char}, SpellsItems items text →
    text.length ≤ fuel → parseItems fuel (text ++ rest) = (items, rest)

/-- All fields that are spelled in few enough characters are read. -/
def ReadsFields (fuel : Nat) : Prop :=
  ∀ {fields : List (Json × Json)} {text rest : List Char}, SpellsFields fields text →
    text.length ≤ fuel → parseFields fuel (text ++ rest) = (fields, rest)

variable {fuel : Nat}

theorem readsItems_succ (hvalues : ReadsValues fuel) (hitems : ReadsItems fuel) :
    ReadsItems (fuel + 1) := by
  intro items text rest hspelled hlength
  cases hspelled with
  | @last item before text after hbefore hitem hafter =>
      have hend : EndsNumber (after ++ ']' :: rest) :=
        endsNumber_append hafter (endsNumber_cons (by decide))
      simp only [List.length_append, List.length_cons] at hlength
      have hread := hvalues hitem hend (by omega)
      simp only [parseItems, List.append_assoc, List.cons_append, List.nil_append,
        parseValue_append hbefore, hread, skipSpace_append hafter]
      rw [skipSpace_cons (by decide)]
      rfl
  | @cons item items before text behind hbefore hitem hbehind =>
      have hend : EndsNumber (',' :: (behind ++ rest)) := endsNumber_cons (by decide)
      simp only [List.length_append, List.length_cons] at hlength
      have hread := hvalues hitem hend (by omega)
      have hothers : parseItems fuel (behind ++ rest) = (items, rest) :=
        hitems hbehind (by omega)
      simp only [parseItems, List.append_assoc, List.cons_append, parseValue_append hbefore, hread]
      rw [skipSpace_cons (by decide)]
      simp only [hothers]

theorem readsFields_succ (hvalues : ReadsValues fuel) (hfields : ReadsFields fuel) :
    ReadsFields (fuel + 1) := by
  intro fields text rest hspelled hlength
  have hcolon : ∀ text, EndsNumber (':' :: text) := fun _ => endsNumber_cons (by decide)
  cases hspelled with
  | @last key value before middle text after hbefore hmiddle hvalue hafter =>
      have hend : EndsNumber (after ++ '\x7d' :: rest) :=
        endsNumber_append hafter (endsNumber_cons (by decide))
      simp only [List.length_append, List.length_cons] at hlength
      have hkey := hvalues (.str key) (hcolon (middle ++ (text ++ (after ++ '\x7d' :: rest))))
        (by omega)
      have hread := hvalues hvalue hend (by omega)
      simp only [parseFields, List.append_assoc, List.cons_append, List.nil_append,
        parseValue_append hbefore, hkey]
      rw [skipSpace_cons (by decide)]
      simp only [parseValue_append hmiddle, hread, skipSpace_append hafter]
      rw [skipSpace_cons (by decide)]
      rfl
  | @cons key value fields before middle text behind hbefore hmiddle hvalue hbehind =>
      have hend : EndsNumber (',' :: (behind ++ rest)) := endsNumber_cons (by decide)
      simp only [List.length_append, List.length_cons] at hlength
      have hkey := hvalues (.str key) (hcolon (middle ++ (text ++ ',' :: (behind ++ rest))))
        (by omega)
      have hread := hvalues hvalue hend (by omega)
      have hothers : parseFields fuel (behind ++ rest) = (fields, rest) :=
        hfields hbehind (by omega)
      simp only [parseFields, List.append_assoc, List.cons_append, parseValue_append hbefore, hkey]
      rw [skipSpace_cons (by decide)]
      simp only [parseValue_append hmiddle, hread]
      rw [skipSpace_cons (by decide)]
      simp only [hothers]

/-- What is neither a string nor a list nor an object is a word or a number. -/
theorem parseValue_scalar {c : Char} (hspace : isSpace c = false) (hstring : c ≠ '"')
    (hlist : c ≠ '[') (hobject : c ≠ '\x7b') (text : List Char) :
    parseValue (fuel + 1) (c :: text) = parseScalar (c :: text) := by
  rw [parseValue, skipSpace_cons hspace]
  split <;> simp_all

theorem parseScalar_of_parseNumeral? {text rest : List Char} {n : Numeral}
    (hnumeral : parseNumeral? text = some (n, rest)) : parseScalar text = (num n, rest) := by
  unfold parseScalar
  split
  · cases hnumeral
  · cases hnumeral
  · cases hnumeral
  · rw [hnumeral]

/-- Behind an opening bracket stands the first item and not the closing one. -/
theorem exists_skipSpace_items {items : List Json} {text : List Char}
    (hitems : SpellsItems items text) (rest : List Char) :
    ∃ c tail, skipSpace (text ++ rest) = c :: tail ∧ c ≠ ']' := by
  cases hitems with
  | last hbefore hitem _ | cons hbefore hitem _ =>
      obtain ⟨c, tail, rfl, hspace, hclosing, _⟩ := hitem.exists_cons
      rw [List.append_assoc, skipSpace_append hbefore]
      exact ⟨c, _, skipSpace_cons hspace, hclosing⟩

/-- Behind an opening brace stands the first key and not the closing one. -/
theorem exists_skipSpace_fields {fields : List (Json × Json)} {text : List Char}
    (hfields : SpellsFields fields text) (rest : List Char) :
    ∃ c tail, skipSpace (text ++ rest) = c :: tail ∧ c ≠ '\x7d' := by
  cases hfields with
  | last hbefore _ _ _ | cons hbefore _ _ _ =>
      rw [List.append_assoc, skipSpace_append hbefore]
      exact ⟨'"', _, skipSpace_cons (by decide), by decide⟩

theorem readsValues_succ (hitems : ReadsItems fuel) (hfields : ReadsFields fuel) :
    ReadsValues (fuel + 1) := by
  intro value text rest hspelled hend hlength
  cases hspelled with
  | null => rfl
  | bool value => cases value <;> rfl
  | num hn =>
      have hnumeral := parseNumeral?_text hn hend
      obtain ⟨c, tail, htext, hc⟩ := exists_cons_text hn.toWellFormed
      obtain ⟨_, _, hcons, hspace, _⟩ := (Spells.num hn).exists_cons
      rw [htext, List.cons_append] at hnumeral ⊢
      rw [htext] at hcons
      cases hcons
      rw [parseValue_scalar hspace (ne_of_isDigit hc (by decide)) (ne_of_isDigit hc (by decide))
        (ne_of_isDigit hc (by decide)), parseScalar_of_parseNumeral? hnumeral]
  | str text =>
      simp only [quotedString, List.cons_append, List.append_assoc, List.nil_append]
      rw [parseValue, skipSpace_cons (by decide)]
      exact parseString_quoted text rest
  | emptyList => rfl
  | @arr items text hspelled =>
      have hread : parseItems fuel (text ++ rest) = (items, rest) :=
        hitems hspelled (Nat.le_of_succ_le_succ hlength)
      obtain ⟨c, tail, hskip, hclosing⟩ := exists_skipSpace_items hspelled rest
      rw [← parseItems_skipSpace, hskip] at hread
      rw [List.cons_append, parseValue, skipSpace_cons (by decide)]
      simp only [hskip]
      split
      · rename_i hcons
        cases hcons
        exact absurd rfl hclosing
      · simp only [hread]
  | emptyObject => rfl
  | @obj fields text hspelled =>
      have hread : parseFields fuel (text ++ rest) = (fields, rest) :=
        hfields hspelled (Nat.le_of_succ_le_succ hlength)
      obtain ⟨c, tail, hskip, hclosing⟩ := exists_skipSpace_fields hspelled rest
      rw [← parseFields_skipSpace, hskip] at hread
      rw [List.cons_append, parseValue, skipSpace_cons (by decide)]
      simp only [hskip]
      split
      · rename_i hcons
        cases hcons
        exact absurd rfl hclosing
      · simp only [hread]

/-- What is spelled is read. By induction on the fuel, of which every part of a value takes
some. -/
theorem reads (fuel : Nat) : ReadsValues fuel ∧ ReadsItems fuel ∧ ReadsFields fuel := by
  induction fuel with
  | zero =>
      refine ⟨fun hvalue _ hlength => ?_, fun hitems hlength => ?_, fun hfields hlength => ?_⟩
      · obtain ⟨c, tail, rfl, _⟩ := hvalue.exists_cons
        cases hlength
      · cases hitems <;> simp at hlength
      · cases hfields <;> simp at hlength
  | succ fuel ih =>
      obtain ⟨hvalues, hitems, hfields⟩ := ih
      exact ⟨readsValues_succ hitems hfields, readsItems_succ hvalues hitems,
        readsFields_succ hvalues hfields⟩

end Reading

/-- A text that spells a value is read as the value and nothing else. -/
theorem parse_of_spells {value : Json} {text : List Char} (hvalue : Spells value text) :
    parse (String.ofList text) = (value, true) := by
  have hread : parseValue (text.length + 1) (text ++ []) = (value, []) :=
    (reads _).1 hvalue nofun (Nat.le_succ _)
  rw [List.append_nil] at hread
  simp only [parse, String.toList_ofList, String.length_ofList, hread]
  rfl

end Json

end MetricCatalog
