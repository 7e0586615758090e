/-
# Strings in filters

A string stands between two quotes of one kind, and a backslash in it makes an
escape with the character behind it. Whether a character is escaped can be told
from the number of backslashes right before it. Every text can be written as a
string, with either quote. What is read as a string is a body between quotes in
which no such quote is left unescaped and all escapes are known, and nothing
else that starts with a quote is a constant at all.
-/

import Mathlib.Algebra.Ring.Parity
import Mathlib.Data.List.DropRight
import MetricCatalog.Query.Literal

namespace MetricCatalog

namespace Literal

/-! ## Writing strings -/

/-- The letter of the escape for a character that is not written as it is. -/
def escapeLetter? (c : Char) : Option Char :=
  match c with
  | '\n' => some 'n'
  | '\t' => some 't'
  | '\r' => some 'r'
  | '\x00' => some '0'
  | '\\' => some '\\'
  | '\'' => some '\''
  | '"' => some '"'
  | _ => none

/-- The text with escapes for backslashes, quotes and some control characters. -/
def escaped (text : List Char) : List Char :=
  text.flatMap fun c =>
    match escapeLetter? c with
    | some letter => ['\\', letter]
    | none => [c]

/-- The text with what its escapes stand for, from left to right. -/
def unescaped : List Char → List Char
  | '\\' :: c :: rest => (escape? c).getD c :: unescaped rest
  | c :: rest => c :: unescaped rest
  | [] => []

/-- What follows the text is escaped: an odd number of backslashes stands at its end. -/
def Escapes (text : List Char) : Prop := Odd (text.rtakeWhile (· = '\\')).length

/-- The text can stand between two quotes of a kind: such a quote in it is escaped, and a backslash
is escaped itself or is followed by the letter of an escape. -/
structure IsBody (quote : Char) (body : List Char) : Prop where
  quote_escaped : ∀ front back, body = front ++ quote :: back → Escapes front
  escape_known : ∀ front back, body = front ++ '\\' :: back →
    Escapes front ∨ ∃ c rest, back = c :: rest ∧ c ∈ ['n', 't', 'r', '0', '\\', '\'', '"']

variable {quote c : Char} {text rest body : List Char}

theorem isSome_escape?_iff :
    (escape? c).isSome ↔ c ∈ ['n', 't', 'r', '0', '\\', '\'', '"'] := by
  unfold escape?
  split <;> simp_all

theorem escape?_of_escapeLetter? {letter : Char} (hletter : escapeLetter? c = some letter) :
    escape? letter = some c := by
  unfold escapeLetter? at hletter
  split at hletter <;> cases hletter <;> rfl

/-! ## Backslashes at the end -/

theorem not_escapes_nil : ¬ Escapes [] := by
  simp [Escapes]

theorem escapes_concat (front : List Char) (c : Char) :
    Escapes (front ++ [c]) ↔ c = '\\' ∧ ¬ Escapes front := by
  rw [Escapes, Escapes, List.rtakeWhile_concat]
  by_cases hc : c = '\\'
  · simp [hc, Nat.odd_add_one]
  · simp [hc]

theorem escapes_backslash : Escapes ['\\'] :=
  (escapes_concat [] '\\').mpr ⟨rfl, not_escapes_nil⟩

/-- By induction from the end of the text. -/
theorem escapes_plain (hc : c ≠ '\\') (front : List Char) :
    Escapes (c :: front) ↔ Escapes front := by
  induction front using List.reverseRecOn with
  | nil =>
      have hsingle : Escapes [c] ↔ c = '\\' ∧ ¬ Escapes [] := escapes_concat [] c
      simp [hsingle, hc, not_escapes_nil]
  | append_singleton front d ih => rw [← List.cons_append, escapes_concat, escapes_concat, ih]

/-- An escape at the beginning makes no difference, whether it is one of a backslash or not. -/
theorem escapes_escape (c : Char) (front : List Char) :
    Escapes ('\\' :: c :: front) ↔ Escapes front := by
  induction front using List.reverseRecOn with
  | nil =>
      have hpair : Escapes ['\\', c] ↔ c = '\\' ∧ ¬ Escapes ['\\'] := escapes_concat ['\\'] c
      simp [hpair, escapes_backslash, not_escapes_nil]
  | append_singleton front d ih =>
      rw [← List.cons_append, ← List.cons_append, escapes_concat, escapes_concat, ih]

/-! ## Bodies -/

/-- Something holds of the rest of a text, from each place on that is not escaped. -/
def AtUnescaped (holds : List Char → Prop) (text : List Char) : Prop :=
  ∀ front back, text = front ++ back → ¬ Escapes front → holds back

section

variable {holds : List Char → Prop}

theorem atUnescaped_nil : AtUnescaped holds [] ↔ holds [] := by
  constructor
  · exact fun hall => hall [] [] rfl not_escapes_nil
  · intro hnil front back hsplit _
    obtain ⟨rfl, rfl⟩ := List.append_eq_nil_iff.mp hsplit.symm
    exact hnil

theorem atUnescaped_plain (hc : c ≠ '\\') :
    AtUnescaped holds (c :: text) ↔ holds (c :: text) ∧ AtUnescaped holds text := by
  constructor
  · intro hall
    refine ⟨hall [] (c :: text) rfl not_escapes_nil, fun front back hsplit hfree => ?_⟩
    exact hall (c :: front) back (by rw [hsplit, List.cons_append])
      (mt (escapes_plain hc front).mp hfree)
  · rintro ⟨hfirst, hall⟩ front back hsplit hfree
    cases front with
    | nil =>
        obtain rfl : c :: text = back := hsplit
        exact hfirst
    | cons d front =>
        simp only [List.cons_append, List.cons.injEq] at hsplit
        obtain ⟨rfl, hsplit⟩ := hsplit
        exact hall front back hsplit (mt (escapes_plain hc front).mpr hfree)

/-- An escape is passed as a whole. -/
theorem atUnescaped_escape :
    AtUnescaped holds ('\\' :: c :: text) ↔ holds ('\\' :: c :: text) ∧ AtUnescaped holds text := by
  constructor
  · intro hall
    refine ⟨hall [] ('\\' :: c :: text) rfl not_escapes_nil, fun front back hsplit hfree => ?_⟩
    exact hall ('\\' :: c :: front) back (by rw [hsplit, List.cons_append, List.cons_append])
      (mt (escapes_escape c front).mp hfree)
  · rintro ⟨hfirst, hall⟩ front back hsplit hfree
    match front with
    | [] =>
        obtain rfl : '\\' :: c :: text = back := hsplit
        exact hfirst
    | [d] =>
        obtain rfl := (List.cons.inj hsplit).1
        exact absurd escapes_backslash hfree
    | d :: e :: front =>
        simp only [List.cons_append, List.cons.injEq] at hsplit
        obtain ⟨rfl, rfl, hsplit⟩ := hsplit
        exact hall front back hsplit (mt (escapes_escape c front).mpr hfree)

end

/-- The text does not start with the quote, and if it starts with a backslash it starts with an
escape. -/
def StartsBody (quote : Char) (text : List Char) : Prop :=
  text.head? ≠ some quote ∧
    (text.head? = some '\\' →
      ∃ c rest, text = '\\' :: c :: rest ∧ c ∈ ['n', 't', 'r', '0', '\\', '\'', '"'])

theorem isBody_iff (quote : Char) (body : List Char) :
    IsBody quote body ↔ AtUnescaped (StartsBody quote) body := by
  constructor
  · intro hbody front back hsplit hfree
    cases back with
    | nil => exact ⟨nofun, nofun⟩
    | cons d back =>
        refine ⟨?_, ?_⟩
        · rintro ⟨⟩
          exact hfree (hbody.quote_escaped front back hsplit)
        · rintro ⟨⟩
          obtain ⟨c, rest, rfl, hknown⟩ := (hbody.escape_known front back hsplit).resolve_left hfree
          exact ⟨c, rest, rfl, hknown⟩
  · intro hall
    refine ⟨fun front back hsplit => ?_, fun front back hsplit => ?_⟩
    · by_contra hfree
      exact (hall front _ hsplit hfree).1 rfl
    · by_cases hescapes : Escapes front
      · exact Or.inl hescapes
      · obtain ⟨c, rest, hback, hknown⟩ := (hall front _ hsplit hescapes).2 rfl
        exact Or.inr ⟨c, rest, (List.cons.inj hback).2, hknown⟩

theorem isBody_nil (quote : Char) : IsBody quote [] :=
  (isBody_iff quote []).mpr (atUnescaped_nil.mpr ⟨nofun, nofun⟩)

theorem not_isBody_backslash (quote : Char) : ¬ IsBody quote ['\\'] := by
  intro hbody
  rcases hbody.escape_known [] [] rfl with hescapes | ⟨_, _, hnil, -⟩
  · exact not_escapes_nil hescapes
  · cases hnil

theorem isBody_escape (hquote : quote ≠ '\\') :
    IsBody quote ('\\' :: c :: body) ↔ (escape? c).isSome ∧ IsBody quote body := by
  rw [isBody_iff, isBody_iff, atUnescaped_escape, isSome_escape?_iff]
  refine and_congr_left fun _ => ⟨?_, fun hknown => ⟨?_, fun _ => ⟨c, body, rfl, hknown⟩⟩⟩
  · rintro ⟨-, hescape⟩
    obtain ⟨d, rest, hsame, hknown⟩ := hescape rfl
    cases hsame
    exact hknown
  · rintro ⟨⟩
    exact hquote rfl

theorem isBody_plain (hc : c ≠ '\\') :
    IsBody quote (c :: body) ↔ c ≠ quote ∧ IsBody quote body := by
  rw [isBody_iff, isBody_iff, atUnescaped_plain hc]
  refine and_congr_left fun _ => ⟨?_, fun hother => ⟨?_, ?_⟩⟩
  · rintro ⟨hother, -⟩ rfl
    exact hother rfl
  · rintro ⟨⟩
    exact hother rfl
  · rintro ⟨⟩
    exact absurd rfl hc

/-! ## Reading bodies -/

/-- A text is taken apart from the left into escapes and other characters. A backslash may be left
at its end. -/
theorem escape_induction {motive : List Char → Prop} (nil : motive [])
    (backslash : motive ['\\']) (escape : ∀ c rest, motive rest → motive ('\\' :: c :: rest))
    (plain : ∀ c rest, c ≠ '\\' → motive rest → motive (c :: rest)) (text : List Char) :
    motive text := by
  fun_induction unescaped text with
  | case1 c rest ih => exact escape c rest ih
  | case2 c rest hnot ih =>
      by_cases hc : c = '\\'
      · subst hc
        cases rest with
        | nil => exact backslash
        | cons d rest => exact absurd rfl (hnot d rest rfl)
      · exact plain c rest hc ih
  | case3 => exact nil

theorem unescaped_plain (hc : c ≠ '\\') (rest : List Char) :
    unescaped (c :: rest) = c :: unescaped rest := by
  rw [unescaped.eq_def]
  split <;> simp_all

theorem quotedBody_escape (quote c : Char) (rest : List Char) :
    quotedBody quote ('\\' :: c :: rest) =
      (escape? c).bind fun value => (quotedBody quote rest).map (value :: ·) := by
  rw [quotedBody]
  cases escape? c with
  | none => rfl
  | some value => cases quotedBody quote rest <;> rfl

theorem quotedBody_plain (hc : c ≠ '\\') (rest : List Char) :
    quotedBody quote (c :: rest) =
      if c = quote then if rest.isEmpty then some [] else none
      else (quotedBody quote rest).map (c :: ·) := by
  rw [quotedBody, if_neg hc]
  rintro d more ⟨⟩
  exact absurd rfl hc

/-- A text is a body up to its last character, which is the quote, and a value is that body with
what its escapes stand for. -/
def Spells (quote : Char) (text value : List Char) : Prop :=
  ∃ body, text = body ++ [quote] ∧ IsBody quote body ∧ value = unescaped body

section

variable {value : List Char}

theorem not_spells_nil : ¬ Spells quote [] value := by
  rintro ⟨body, hsplit, -⟩
  simp at hsplit

theorem not_spells_backslash (hquote : quote ≠ '\\') : ¬ Spells quote ['\\'] value := by
  rintro ⟨body, hsplit, -⟩
  cases body with
  | nil => exact hquote (List.cons.inj hsplit).1.symm
  | cons d body => simp at hsplit

theorem spells_escape (hquote : quote ≠ '\\') :
    Spells quote ('\\' :: c :: rest) value ↔
      ∃ first, escape? c = some first ∧ ∃ more, Spells quote rest more ∧ first :: more = value := by
  constructor
  · rintro ⟨body, hsplit, hbody, rfl⟩
    match body with
    | [] => exact absurd (List.cons.inj hsplit).1.symm hquote
    | [d] =>
        obtain rfl := (List.cons.inj hsplit).1
        exact absurd hbody (not_isBody_backslash quote)
    | d :: e :: body =>
        simp only [List.cons_append, List.cons.injEq] at hsplit
        obtain ⟨rfl, rfl, rfl⟩ := hsplit
        obtain ⟨hknown, hbody⟩ := (isBody_escape hquote).mp hbody
        obtain ⟨first, hfirst⟩ := Option.isSome_iff_exists.mp hknown
        refine ⟨first, hfirst, unescaped body, ⟨body, rfl, hbody, rfl⟩, ?_⟩
        rw [unescaped, hfirst, Option.getD_some]
  · rintro ⟨first, hfirst, more, ⟨body, rfl, hbody, rfl⟩, rfl⟩
    refine ⟨'\\' :: c :: body, rfl, (isBody_escape hquote).mpr ⟨?_, hbody⟩, ?_⟩
    · rw [hfirst]
      rfl
    · rw [unescaped, hfirst, Option.getD_some]

/-- Behind the quote there is nothing, since it cannot be in the body. -/
theorem spells_quote (hquote : quote ≠ '\\') :
    Spells quote (quote :: rest) value ↔ rest = [] ∧ value = [] := by
  constructor
  · rintro ⟨body, hsplit, hbody, rfl⟩
    cases body with
    | nil => exact ⟨(List.cons.inj hsplit).2, rfl⟩
    | cons d body =>
        obtain rfl := (List.cons.inj hsplit).1
        exact absurd rfl ((isBody_plain hquote).mp hbody).1
  · rintro ⟨rfl, rfl⟩
    exact ⟨[], rfl, isBody_nil quote, rfl⟩

theorem spells_plain (hc : c ≠ '\\') (hother : c ≠ quote) :
    Spells quote (c :: rest) value ↔ ∃ more, Spells quote rest more ∧ c :: more = value := by
  constructor
  · rintro ⟨body, hsplit, hbody, rfl⟩
    cases body with
    | nil => exact absurd (List.cons.inj hsplit).1 hother
    | cons d body =>
        simp only [List.cons_append, List.cons.injEq] at hsplit
        obtain ⟨rfl, rfl⟩ := hsplit
        obtain ⟨-, hbody⟩ := (isBody_plain hc).mp hbody
        exact ⟨unescaped body, ⟨body, rfl, hbody, rfl⟩, (unescaped_plain hc body).symm⟩
  · rintro ⟨more, ⟨body, rfl, hbody, rfl⟩, rfl⟩
    exact ⟨c :: body, rfl, (isBody_plain hc).mpr ⟨hother, hbody⟩, (unescaped_plain hc body).symm⟩

/-- A text is read up to its last character, which is the quote. -/
theorem quotedBody_eq_some_iff (hquote : quote ≠ '\\') :
    quotedBody quote text = some value ↔ Spells quote text value := by
  induction text using escape_induction generalizing value with
  | nil => simp [quotedBody, not_spells_nil]
  | backslash => simp [quotedBody, not_spells_backslash hquote]
  | escape c rest ih =>
      simp only [quotedBody_escape, spells_escape hquote, Option.bind_eq_some_iff,
        Option.map_eq_some_iff, ih]
  | plain c rest hc ih =>
      rw [quotedBody_plain hc]
      by_cases hend : c = quote
      · subst hend
        rw [if_pos rfl, spells_quote hquote]
        cases rest <;> simp [eq_comm]
      · simp only [if_neg hend, spells_plain hc hend, Option.map_eq_some_iff, ih]

end

/-- A quote is no backslash. -/
theorem ne_backslash (hquote : quote = '\'' ∨ quote = '"') : quote ≠ '\\' := by
  rcases hquote with rfl | rfl <;> decide

theorem quotedBody_escaped (hquote : quote = '\'' ∨ quote = '"') (text : List Char) :
    quotedBody quote (escaped text ++ [quote]) = some text := by
  induction text with
  | nil =>
      rw [escaped, List.flatMap_nil, List.nil_append, quotedBody_plain (ne_backslash hquote),
        if_pos rfl]
      rfl
  | cons c rest ih =>
      have hescaped : escaped (c :: rest) = (match escapeLetter? c with
        | some letter => ['\\', letter]
        | none => [c]) ++ escaped rest := List.flatMap_cons
      rw [hescaped]
      cases hletter : escapeLetter? c with
      | some letter =>
          have hvalue := escape?_of_escapeLetter? hletter
          simp only [List.cons_append, List.nil_append]
          rw [quotedBody_escape, hvalue, ih]
          rfl
      | none =>
          have hplain : c ≠ '\\' := by
            rintro rfl
            cases hletter
          have hother : c ≠ quote := by
            rintro rfl
            rcases hquote with rfl | rfl <;> cases hletter
          simp only [List.cons_append, List.nil_append]
          rw [quotedBody_plain hplain, if_neg hother, ih]
          rfl

/-! ## Reading strings -/

theorem parseText_quoted (hquote : quote = '\'' ∨ quote = '"') (text : List Char) :
    parseText (quote :: text) =
      (quotedBody quote text).map fun body => .str (String.ofList body) := by
  rcases hquote with rfl | rfl <;> rfl

theorem number?_ne_str (text : List Char) (value : String) : number? text ≠ some (.str value) := by
  rw [number?]
  simp only
  split <;> simp

/-- A string starts with a quote. -/
theorem exists_quote_of_parseText {value : String} (hparse : parseText text = some (.str value)) :
    ∃ quote rest, (quote = '\'' ∨ quote = '"') ∧ text = quote :: rest := by
  unfold parseText at hparse
  split at hparse
  · cases hparse
  · split at hparse
    · cases hparse
    · split at hparse
      · cases hparse
      · rename_i c rest _ _
        split at hparse
        · rename_i hquote
          exact ⟨c, rest, by simpa using hquote, rfl⟩
        · split at hparse
          · exact absurd hparse (number?_ne_str _ _)
          · cases hparse

/-- Strings are read exactly: every text can be written as one, with either quote; what is read as a
string is a body in quotes, with its escapes replaced from left to right; and nothing else that
starts with a quote is read at all. -/
theorem parse?_eq_str_iff :
    (∀ (quote : Char) (value : String), quote = '\'' ∨ quote = '"' →
      parse? (String.ofList (quote :: (escaped value.toList ++ [quote]))) = some (.str value)) ∧
    (∀ text value : String, parse? text = some (.str value) ↔
      ∃ quote body, (quote = '\'' ∨ quote = '"') ∧ text.toList = quote :: (body ++ [quote]) ∧
        IsBody quote body ∧ value.toList = unescaped body) ∧
    ∀ (quote : Char) (text : String), quote = '\'' ∨ quote = '"' →
      text.toList.head? = some quote →
        (¬ ∃ body, text.toList = quote :: (body ++ [quote]) ∧ IsBody quote body) →
          parse? text = none := by
  refine ⟨fun quote value hquote => ?_, fun text value => ⟨fun hparse => ?_, ?_⟩,
    fun quote text hquote hstart hother => ?_⟩
  · rw [parse?, String.toList_ofList, parseText_quoted hquote, quotedBody_escaped hquote,
      Option.map_some, String.ofList_toList]
  · obtain ⟨quote, rest, hquote, htext⟩ := exists_quote_of_parseText hparse
    rw [parse?, htext, parseText_quoted hquote, Option.map_eq_some_iff] at hparse
    obtain ⟨read, hread, hvalue⟩ := hparse
    cases hvalue
    obtain ⟨body, rfl, hbody, rfl⟩ := (quotedBody_eq_some_iff (ne_backslash hquote)).mp hread
    exact ⟨quote, body, hquote, htext, hbody, String.toList_ofList⟩
  · rintro ⟨quote, body, hquote, htext, hbody, hvalue⟩
    have hread := (quotedBody_eq_some_iff (ne_backslash hquote)).mpr ⟨body, rfl, hbody, hvalue⟩
    rw [parse?, htext, parseText_quoted hquote, hread, Option.map_some, String.ofList_toList]
  · obtain ⟨rest, htext⟩ : ∃ rest, text.toList = quote :: rest := by
      cases hlist : text.toList with
      | nil => simp [hlist] at hstart
      | cons c rest =>
          rw [hlist] at hstart
          cases hstart
          exact ⟨rest, rfl⟩
    rw [parse?, htext, parseText_quoted hquote, Option.map_eq_none_iff]
    by_contra hread
    obtain ⟨value, hvalue⟩ := Option.ne_none_iff_exists'.mp hread
    obtain ⟨body, hrest, hbody, -⟩ := (quotedBody_eq_some_iff (ne_backslash hquote)).mp hvalue
    exact hother ⟨body, by rw [htext, hrest], hbody⟩

/-- A text with a quote of its own, written and read, and left as it is. -/
theorem parse?_eq_str_iff_apostrophe :
    parse? (String.ofList ('\'' :: (escaped "it's".toList ++ ['\'']))) = some (.str "it's") ∧
    (∃ quote body, (quote = '\'' ∨ quote = '"') ∧
      "'it\\'s'".toList = quote :: (body ++ [quote]) ∧ IsBody quote body ∧
        "it's".toList = unescaped body) ∧
    parse? "'it's'" = none := by
  obtain ⟨hwritten, hread, hother⟩ := parse?_eq_str_iff
  have hparse := hwritten '\'' "it's" (Or.inl rfl)
  refine ⟨hparse, (hread _ _).mp hparse, hother '\'' "'it's'" (Or.inl rfl) rfl ?_⟩
  rintro ⟨body, hsplit, hbody⟩
  obtain rfl : "it's".toList = body := List.append_cancel_right (List.cons.inj hsplit).2
  have hescapes : Escapes (['i'] ++ ['t']) := hbody.quote_escaped _ "s".toList rfl
  exact absurd ((escapes_concat ['i'] 't').mp hescapes).1 (by decide)

end Literal

end MetricCatalog
