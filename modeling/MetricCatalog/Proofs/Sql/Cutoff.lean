/-
# Rules on a text that is cut off

A rule of the lexer looks at a token and at the signs with which it could go on.
No token goes on with a semicolon or with white space, so when a text is cut off
in front of one of these, a rule takes the same from what is left, unless it had
gone beyond the cut.
-/

import Mathlib.Data.List.Find
import MetricCatalog.Proofs.Sql.Ending
import MetricCatalog.Proofs.Sql.Idle

namespace MetricCatalog

namespace Sql

open Text

/-! ## Where a text may be cut off -/

/-- A text is empty, or it starts with a semicolon or white space. -/
def Stops (after : List Char) : Prop := ∀ c ∈ after.head?, c = ';' ∨ isBlank c = true

theorem stops_nil : Stops [] := by
  intro c hc
  cases hc

theorem stops_semicolon (rest : List Char) : Stops (';' :: rest) := by
  rintro c ⟨⟩
  exact Or.inl rfl

theorem stops_blank {c : Char} (hc : isBlank c = true) (rest : List Char) : Stops (c :: rest) := by
  rintro d ⟨⟩
  exact Or.inr hc

theorem Stops.head?_ne {after : List Char} (hstops : Stops after) {c : Char} (hsign : c ≠ ';')
    (hsolid : isBlank c = false) : after.head? ≠ some c := by
  intro hhead
  rcases hstops c hhead with rfl | hblank
  · exact hsign rfl
  · exact absurd hsolid (by simp [hblank])

/-- A sign comes next in a text that goes on just when it does in the part of it. -/
theorem Stops.head?_append_iff {after : List Char} (hstops : Stops after) {c : Char}
    (hsign : c ≠ ';') (hsolid : isBlank c = false) (text : List Char) :
    (text ++ after).head? = some c ↔ text.head? = some c := by
  cases text with
  | nil => exact ⟨fun hhead => absurd hhead (hstops.head?_ne hsign hsolid), nofun⟩
  | cons d rest => rfl

theorem Stops.exists_cons {after : List Char} (hstops : Stops after) {c : Char} (hsign : c ≠ ';')
    (hsolid : isBlank c = false) {text tail : List Char} (htext : text ++ after = c :: tail) :
    ∃ more, text = c :: more := by
  apply List.head?_eq_some_iff.mp
  rw [← hstops.head?_append_iff hsign hsolid, htext, List.head?_cons]

theorem Stops.head?_append_ne {after : List Char} (hstops : Stops after) {c : Char}
    (hsign : c ≠ ';') (hsolid : isBlank c = false) {text : List Char}
    (htext : ∀ more, text = c :: more → False) :
    (text ++ after).head? ≠ some c := by
  rw [Ne, hstops.head?_append_iff hsign hsolid, List.head?_eq_some_iff]
  rintro ⟨more, hmore⟩
  exact htext more hmore

/-- Neither the semicolon nor white space is in a class of characters. -/
def IsSolid (isPart : Char → Bool) : Prop := ∀ c, c = ';' ∨ isBlank c = true → isPart c = false

theorem isSolid_isDigit : IsSolid isDigit := by
  rintro c (rfl | hblank)
  · rfl
  · exact isDigit_of_isBlank hblank

theorem hexValue?_of_isBlank {c : Char} (hc : isBlank c = true) : hexValue? c = none := by
  have hrange := toNat_of_isBlank hc
  have hapart : ∀ low high : Char, 33 ≤ low.toNat → high.toNat < 128 → ¬ (low ≤ c ∧ c ≤ high) := by
    rintro low high hlow hhigh ⟨hle, hge⟩
    have hfrom : low.toNat ≤ c.toNat := hle
    have hto : c.toNat ≤ high.toNat := hge
    omega
  have hdigit := hapart '0' '9' (by decide) (by decide)
  have hlower := hapart 'a' 'f' (by decide) (by decide)
  have hupper := hapart 'A' 'F' (by decide) (by decide)
  simp only [hexValue?, Bool.and_eq_true, decide_eq_true_eq, if_neg hdigit, if_neg hlower,
    if_neg hupper]

theorem isSolid_isHexDigit : IsSolid isHexDigit := by
  rintro c (rfl | hblank)
  · rfl
  · rw [isHexDigit, hexValue?_of_isBlank hblank]
    rfl

theorem numberTable_of_isBlank {c : Char} (hc : isBlank c = true) :
    numberTable.contains c = false :=
  contains_of_isBlank (by decide +kernel) hc

theorem isSolid_isLetterOrNumber : IsSolid isLetterOrNumber := by
  rintro c (rfl | hblank)
  · rfl
  · rw [isLetterOrNumber]
    split
    · exact isAlphanum_of_isBlank hblank ‹_›
    · rw [letterTable_of_isBlank hblank, numberTable_of_isBlank hblank]
      rfl

theorem isSolid_isTagPart : IsSolid fun c => isLetterOrNumber c || c = '_' := by
  intro c hc
  have hmark : c ≠ '_' := by
    rintro rfl
    rcases hc with hc | hc <;> cases hc
  simp [isSolid_isLetterOrNumber c hc, hmark]

theorem isSolid_isNumber : IsSolid isNumber := by
  rintro c (rfl | hblank)
  · rfl
  · rw [isNumber]
    split
    · rename_i hascii
      have halphanum := isAlphanum_of_isBlank hblank hascii
      rw [Char.isAlphanum, Bool.or_eq_false_iff] at halphanum
      exact halphanum.2
    · exact numberTable_of_isBlank hblank

theorem isSolid_isWordPart : IsSolid isWordPart := by
  rintro c (rfl | hblank)
  · rfl
  · simp [isWordPart, isLetter_of_isBlank hblank, isDigit_of_isBlank hblank,
      ne_of_isBlank hblank (d := '@') (by decide), ne_of_isBlank hblank (d := '$') (by decide),
      ne_of_isBlank hblank (d := '#') (by decide), ne_of_isBlank hblank (d := '_') (by decide)]

/-! ## Answers within a bound -/

/-- The answer of a rule, unless it goes beyond a bound. -/
def upTo (bound : Nat) (length : Option Nat) : Option Nat := length.filter (· ≤ bound)

theorem upTo_eq_some {bound n : Nat} {length : Option Nat} :
    upTo bound length = some n ↔ length = some n ∧ n ≤ bound := by
  simp [upTo, Option.filter_eq_some_iff]

theorem upTo_eq_none {bound : Nat} {length : Option Nat}
    (hbeyond : ∀ n, length = some n → bound < n) : upTo bound length = none := by
  rw [upTo, Option.filter_eq_none_iff]
  intro n hn
  have hlt := hbeyond n hn
  simpa using hlt

theorem upTo_none (bound : Nat) : upTo bound none = none := rfl

theorem upTo_some {bound n : Nat} (hn : n ≤ bound) : upTo bound (some n) = some n :=
  upTo_eq_some.mpr ⟨rfl, hn⟩

theorem upTo_map_add (bound k : Nat) (length : Option Nat) :
    upTo (bound + k) (length.map (· + k)) = (upTo bound length).map (· + k) := by
  cases length with
  | none => rfl
  | some n => simp [upTo, Option.filter, apply_ite]

theorem upTo_map_eq_none {bound k : Nat} (hbeyond : bound < k) (length : Option Nat) :
    upTo bound (length.map (· + k)) = none := by
  apply upTo_eq_none
  intro n hn
  obtain ⟨m, -, rfl⟩ := Option.map_eq_some_iff.mp hn
  exact Nat.lt_of_lt_of_le hbeyond (Nat.le_add_left k m)

/-- Nothing that ends with a sign ends within nothing. -/
theorem EndsWith.upTo_zero {sign : Char} {text : List Char} {length : Option Nat}
    (hends : EndsWith sign text length) : upTo 0 length = none :=
  upTo_eq_none fun _ hn => hends.pos hn

/-! ## Texts between signs -/

theorem upTo_quotedLength {quote : Char} {after : List Char} (hafter : after.head? ≠ some quote)
    (text : List Char) :
    upTo text.length (quotedLength quote (text ++ after)) = quotedLength quote text := by
  fun_induction quotedLength quote text with
  | case1 => exact (quotedLength_endsWith quote after).upTo_zero
  | case2 =>
      cases after with
      | nil => simp [quotedLength, upTo]
      | cons d rest =>
          have hd : d ≠ quote := fun hd => hafter (congrArg some hd)
          simp [quotedLength, hd, upTo]
  | case3 c hc =>
      cases after with
      | nil => simp [quotedLength, hc, upTo]
      | cons d rest =>
          rw [List.singleton_append, quotedLength, if_neg hc]
          exact (upTo_map_add 0 1 _).trans
            (congrArg _ (quotedLength_endsWith quote (d :: rest)).upTo_zero)
  | case4 rest ih =>
      rw [List.cons_append, List.cons_append, quotedLength, if_pos rfl, if_pos rfl, ← ih]
      exact upTo_map_add rest.length 2 _
  | case5 d rest hd =>
      rw [List.cons_append, List.cons_append, quotedLength, if_pos rfl, if_neg hd]
      exact upTo_some (by simp)
  | case6 c d rest hc ih =>
      rw [List.cons_append, List.cons_append, quotedLength, if_neg hc, ← List.cons_append, ← ih]
      exact upTo_map_add (d :: rest).length 1 _

theorem upTo_tripleLength (quote : Char) (seen : Nat) (text after : List Char) :
    upTo text.length (tripleLength quote seen (text ++ after)) = tripleLength quote seen text := by
  fun_induction tripleLength quote seen text with
  | case1 => exact (tripleLength_endsWith quote _ after).upTo_zero
  | case2 rest =>
      rw [List.cons_append, tripleLength, if_pos rfl, if_pos rfl]
      exact upTo_some (by simp)
  | case3 seen rest hseen ih =>
      rw [List.cons_append, tripleLength, if_pos rfl, if_neg hseen, ← ih]
      exact upTo_map_add rest.length 1 _
  | case4 seen c rest hc ih =>
      rw [List.cons_append, tripleLength, if_neg hc, ← ih]
      exact upTo_map_add rest.length 1 _

theorem upTo_commentLength (nested : Nat) (last : Char) (text after : List Char) :
    upTo text.length (commentLength nested last (text ++ after)) =
      commentLength nested last text := by
  fun_induction commentLength nested last text with
  | case1 => exact (commentLength_endsWith _ _ after).upTo_zero
  | case2 nested last c rest hopening ih =>
      rw [List.cons_append, commentLength, if_pos hopening, ← ih]
      exact upTo_map_add rest.length 1 _
  | case3 nested last c rest hopening hclosing hle =>
      rw [List.cons_append, commentLength, if_neg hopening, if_pos hclosing, if_pos hle]
      exact upTo_some (by simp)
  | case4 nested last c rest hopening hclosing hlt ih =>
      rw [List.cons_append, commentLength, if_neg hopening, if_pos hclosing, if_neg hlt, ← ih]
      exact upTo_map_add rest.length 1 _
  | case5 nested last c rest hopening hclosing ih =>
      rw [List.cons_append, commentLength, if_neg hopening, if_neg hclosing, ← ih]
      exact upTo_map_add rest.length 1 _

theorem upTo_dollarLength (text after : List Char) :
    upTo text.length (dollarLength (text ++ after)) = dollarLength text := by
  fun_induction dollarLength text with
  | case1 => exact (dollarLength_endsWith after).upTo_zero
  | case2 c =>
      cases after with
      | nil => rfl
      | cons d rest =>
          rw [List.singleton_append, dollarLength]
          split
          · rfl
          · exact (upTo_map_add 0 1 _).trans
              (congrArg _ (dollarLength_endsWith (d :: rest)).upTo_zero)
  | case3 c d rest hpair =>
      rw [List.cons_append, List.cons_append, dollarLength, if_pos hpair]
      exact upTo_some (by simp)
  | case4 c d rest hpair ih =>
      rw [List.cons_append, List.cons_append, dollarLength, if_neg hpair, ← List.cons_append, ← ih]
      exact upTo_map_add (d :: rest).length 1 _

theorem matchTag_append_of_ne {tag text : List Char} (hmatch : matchTag tag text ≠ .ended)
    (after : List Char) : matchTag tag (text ++ after) = matchTag tag text := by
  fun_induction matchTag tag text with
  | case1 => rw [matchTag]
  | case2 => exact absurd rfl hmatch
  | case3 t tag rest n hrest ih | case4 t tag rest n hrest ih =>
      rw [List.cons_append, matchTag, if_pos rfl, ih (by simp [hrest]), hrest]
  | case5 => exact absurd rfl hmatch
  | case6 t tag c rest hne => rw [List.cons_append, matchTag, if_neg hne]

/-- If a text ends inside the tag, a longer one is compared with it beyond the end. -/
theorem matchTag_beyond {tag text : List Char} (hmatch : matchTag tag text = .ended)
    (after : List Char) {n : Nat}
    (hwhole : matchTag tag (text ++ after) = .whole n ∨ matchTag tag (text ++ after) = .differs n) :
    text.length < n := by
  fun_induction matchTag tag text generalizing n with
  | case1 | case3 | case4 | case6 => cases hmatch
  | case2 t tag =>
      cases after with
      | nil => rcases hwhole with hwhole | hwhole <;> cases hwhole
      | cons c rest =>
          rw [List.nil_append, matchTag] at hwhole
          split at hwhole
          · split at hwhole <;> rcases hwhole with hwhole | hwhole <;> cases hwhole <;>
              exact Nat.succ_pos _
          · rcases hwhole with hwhole | hwhole <;> cases hwhole
            exact Nat.one_pos
  | case5 t tag rest hrest ih =>
      rw [List.cons_append, matchTag, if_pos rfl] at hwhole
      split at hwhole
      · rename_i m hm
        rcases hwhole with hwhole | hwhole <;> cases hwhole
        exact Nat.succ_lt_succ (ih hrest (Or.inl hm))
      · rename_i m hm
        rcases hwhole with hwhole | hwhole <;> cases hwhole
        exact Nat.succ_lt_succ (ih hrest (Or.inr hm))
      · rcases hwhole with hwhole | hwhole <;> cases hwhole

theorem length_cons_eq_drop {c : Char} {text : List Char} {n : Nat} (hn : n ≤ text.length) :
    (c :: text).length = (text.drop n).length + (n + 1) := by
  rw [List.length_drop, List.length_cons]
  omega

section Tagged

variable {tag rest : List Char}

theorem matchTag_append_of_eq {found : TagMatch} (hmatch : matchTag tag rest = found)
    (hfound : found ≠ .ended) (after : List Char) : matchTag tag (rest ++ after) = found :=
  (matchTag_append_of_ne (hmatch ▸ hfound) after).trans hmatch

/-- If a text ends inside the tag, the string is not closed in it. -/
theorem upTo_taggedLength_ended (hmatch : matchTag tag rest = .ended) (after : List Char) :
    upTo (rest.length + 1) (taggedLength tag ('$' :: (rest ++ after))) = none := by
  cases hwhole : matchTag tag (rest ++ after) with
  | ended =>
      rw [taggedLength, if_pos rfl, hwhole]
      exact upTo_none _
  | differs n =>
      rw [taggedLength_differs hwhole]
      exact upTo_map_eq_none (Nat.succ_lt_succ (matchTag_beyond hmatch after (Or.inr hwhole))) _
  | whole n =>
      have hlt := Nat.succ_lt_succ (matchTag_beyond hmatch after (Or.inl hwhole))
      by_cases hclose : ((rest ++ after).drop n).head? = some '$'
      · rw [taggedLength_close hwhole hclose]
        exact upTo_eq_none fun m hm => by
          cases hm
          exact Nat.lt_succ_of_lt hlt
      · rw [taggedLength_open hwhole hclose]
        exact upTo_map_eq_none hlt _

end Tagged

theorem upTo_taggedLength (tag text after : List Char) :
    upTo text.length (taggedLength tag (text ++ after)) = taggedLength tag text := by
  fun_induction taggedLength tag text with
  | case1 => exact (taggedLength_endsWith tag after).upTo_zero
  | case2 rest hmatch => exact upTo_taggedLength_ended hmatch after
  | case3 rest n hmatch ih =>
      have hn := matchTag_fits tag rest
      rw [hmatch] at hn
      rw [List.cons_append, taggedLength_differs (matchTag_append_of_eq hmatch (by simp) after),
        List.drop_append_of_le_length hn, ← ih, length_cons_eq_drop hn]
      exact upTo_map_add _ _ _
  | case4 rest n hmatch hclose =>
      have hn := matchTag_fits tag rest
      rw [hmatch] at hn
      obtain ⟨more, hmore⟩ := List.head?_eq_some_iff.mp hclose
      have hwhole : ((rest ++ after).drop n).head? = some '$' := by
        rw [List.drop_append_of_le_length hn, hmore]
        rfl
      rw [List.cons_append,
        taggedLength_close (matchTag_append_of_eq hmatch (by simp) after) hwhole,
        length_cons_eq_drop hn, hmore]
      exact upTo_some (by simp; omega)
  | case5 rest n hmatch hopen ih =>
      have hn := matchTag_fits tag rest
      rw [hmatch] at hn
      have hwhole := matchTag_append_of_eq hmatch (by simp) after
      have hdrop : (rest ++ after).drop n = rest.drop n ++ after :=
        List.drop_append_of_le_length hn
      by_cases hclose : ((rest ++ after).drop n).head? = some '$'
      · -- The dollar stands behind the cut, so the part ends with what was taken for the tag.
        have hend : rest.drop n = [] := by
          cases hpart : rest.drop n with
          | nil => rfl
          | cons c more =>
              rw [hdrop, hpart] at hclose
              rw [hpart] at hopen
              exact absurd hclose hopen
        rw [List.cons_append, taggedLength_close hwhole hclose, length_cons_eq_drop hn, hend,
          taggedLength]
        exact upTo_eq_none fun m hm => by
          cases hm
          simp
      · rw [List.cons_append, taggedLength_open hwhole hclose, hdrop, ← ih, length_cons_eq_drop hn]
        exact upTo_map_add _ _ _
  | case6 c rest hc ih =>
      rw [List.cons_append, taggedLength, if_neg hc, ← ih]
      exact upTo_map_add rest.length 1 _

/-! ## Strings with escapes -/

theorem digitsUpTo_append {value? : Char → Option Nat} {after : List Char}
    (hstop : ∀ c ∈ after.head?, value? c = none) (limit : Nat) (text : List Char) :
    digitsUpTo value? limit (text ++ after) = digitsUpTo value? limit text := by
  fun_induction digitsUpTo value? limit text with
  | case1 => rw [digitsUpTo]
  | case2 limit hlimit =>
      obtain ⟨k, rfl⟩ := Nat.exists_eq_succ_of_ne_zero hlimit
      cases after with
      | nil => rfl
      | cons c rest => rw [List.nil_append, digitsUpTo, hstop c rfl]
  | case3 limit c rest n hn ih => rw [List.cons_append, digitsUpTo, hn, ih]
  | case4 limit c rest hnone => rw [List.cons_append, digitsUpTo, hnone]

theorem codePointEscape?_eq_some {digits n : Nat} {text : List Char}
    (hescape : codePointEscape? digits text = some n) : n = digits + 1 := by
  unfold codePointEscape? at hescape
  dsimp only at hescape
  split at hescape
  · cases hescape
  · split at hescape
    · split at hescape <;> cases hescape
      rfl
    · cases hescape

theorem upTo_codePointEscape? (digits : Nat) (text after : List Char) :
    upTo (text.length + 1) (codePointEscape? digits (text ++ after)) =
      codePointEscape? digits text := by
  by_cases hlength : digits ≤ text.length
  · have hsame : codePointEscape? digits (text ++ after) = codePointEscape? digits text := by
      rw [codePointEscape?, codePointEscape?, List.take_append_of_le_length hlength]
    rw [hsame]
    cases hfound : codePointEscape? digits text with
    | none => rfl
    | some n =>
        rw [codePointEscape?_eq_some hfound]
        exact upTo_some (Nat.succ_le_succ hlength)
  · have hnone : codePointEscape? digits text = none := by
      rw [codePointEscape?, if_pos]
      rw [List.length_take]
      omega
    rw [hnone]
    exact upTo_eq_none fun n hn => by
      rw [codePointEscape?_eq_some hn]
      omega

theorem byteEscape?_eq_some {base length n : Nat} {digits : List Nat}
    (hescape : byteEscape? base length digits = some n) : n = length := by
  unfold byteEscape? at hescape
  dsimp only at hescape
  split at hescape <;> cases hescape
  rfl

theorem escapeLength?_pos {text : List Char} {n : Nat} (hescape : escapeLength? text = some n) :
    0 < n := by
  have hpoint : ∀ {digits : Nat} {rest : List Char}, codePointEscape? digits rest = some n →
      0 < n := fun hfound => by
    rw [codePointEscape?_eq_some hfound]
    exact Nat.succ_pos _
  have hbyte : ∀ {base length : Nat} {digits : List Nat},
      byteEscape? base (length + 1) digits = some n → 0 < n := fun hfound => by
    rw [byteEscape?_eq_some hfound]
    exact Nat.succ_pos _
  unfold escapeLength? at hescape
  split at hescape
  · cases hescape
  · exact hpoint hescape
  · exact hpoint hescape
  · split at hescape
    · cases hescape
      exact Nat.one_pos
    · exact hbyte hescape
  · cases hescape
  · split at hescape
    · exact hbyte hescape
    · cases hescape
      exact Nat.one_pos

theorem octalValue?_of_isBlank {c : Char} (hc : isBlank c = true) : octalValue? c = none := by
  have hdigit := isDigit_of_isBlank hc
  rw [isDigit, Option.isSome_eq_false_iff, Option.isNone_iff_eq_none] at hdigit
  rw [octalValue?, hdigit]

theorem upTo_byteEscape? {base length bound : Nat} {digits : List Nat} (hlength : length ≤ bound) :
    upTo bound (byteEscape? base length digits) = byteEscape? base length digits := by
  cases hfound : byteEscape? base length digits with
  | none => rfl
  | some n =>
      rw [byteEscape?_eq_some hfound]
      exact upTo_some hlength

theorem upTo_escapeLength? {after : List Char} (hstops : Stops after) (text : List Char) :
    upTo text.length (escapeLength? (text ++ after)) = escapeLength? text := by
  have hhex : ∀ c ∈ after.head?, hexValue? c = none := by
    intro c hc
    rcases hstops c hc with rfl | hblank
    · rfl
    · exact hexValue?_of_isBlank hblank
  have hoctal : ∀ c ∈ after.head?, octalValue? c = none := by
    intro c hc
    rcases hstops c hc with rfl | hblank
    · rfl
    · exact octalValue?_of_isBlank hblank
  have hdigits := fun rest => digitsUpTo_append hhex 2 rest
  fun_cases escapeLength? text with
  | case1 => exact upTo_eq_none fun n hn => escapeLength?_pos hn
  | case2 rest => exact upTo_codePointEscape? 4 rest after
  | case3 rest => exact upTo_codePointEscape? 8 rest after
  | case4 rest hnone =>
      simp only [List.cons_append, escapeLength?, hdigits, hnone]
      exact upTo_some (by simp)
  | case5 rest hsome =>
      have hlength := length_digitsUpTo_le hexValue? 2 rest
      simp only [List.cons_append, escapeLength?, hdigits]
      generalize digitsUpTo hexValue? 2 rest = digits at hsome hlength ⊢
      cases digits with
      | nil => exact absurd rfl hsome
      | cons => exact upTo_byteEscape? (Nat.succ_le_succ hlength)
  | case6 rest => exact upTo_none _
  | case7 c rest hu hwide hx hzero n hn digits =>
      have hlength := length_digitsUpTo_le octalValue? 2 rest
      rw [List.cons_append, escapeLength?, hn]
      any_goals assumption
      simp only [digitsUpTo_append hoctal]
      exact upTo_byteEscape? (Nat.succ_le_succ hlength)
  | case8 c rest hu hwide hx hzero hnone =>
      rw [List.cons_append, escapeLength?, hnone]
      any_goals assumption
      exact upTo_some (by simp)

/-- An escape that is wrong or goes beyond the end leaves the string open. -/
theorem escapedLength_of_escapeLength?_none {rest : List Char}
    (hescape : escapeLength? rest = none) : escapedLength ('\\' :: rest) = none := by
  rw [escapedLength.eq_def]
  simp only [hescape]
  rfl

theorem upTo_escapedLength {after : List Char} (hstops : Stops after) (text : List Char) :
    upTo text.length (escapedLength (text ++ after)) = escapedLength text := by
  fun_induction escapedLength text with
  | case1 => exact (escapedLength_endsWith after).upTo_zero
  | case2 rest ih =>
      rw [List.cons_append, List.cons_append, escapedLength_quote, ← ih]
      exact upTo_map_add rest.length 2 _
  | case3 rest hrest =>
      have hclose := hstops.head?_append_ne (by decide) (by decide) hrest
      rw [List.cons_append, escapedLength_close hclose]
      exact upTo_some (by simp)
  | case4 rest n hescape hlt ih =>
      obtain ⟨hwhole, hn⟩ := upTo_eq_some.mp ((upTo_escapeLength? hstops rest).trans hescape)
      rw [List.cons_append, escapedLength_escape hwhole, List.drop_append_of_le_length hn, ← ih,
        length_cons_eq_drop hn]
      exact upTo_map_add _ _ _
  | case5 rest hescape =>
      have hwhole := (upTo_escapeLength? hstops rest).trans hescape
      rw [List.cons_append]
      cases hfound : escapeLength? (rest ++ after) with
      | none => rw [escapedLength_of_escapeLength?_none hfound, upTo_none]
      | some n =>
          have hlt : rest.length < n := by
            by_contra hle
            rw [hfound, upTo_some (by omega)] at hwhole
            cases hwhole
          rw [escapedLength_escape hfound]
          exact upTo_map_eq_none (Nat.succ_lt_succ hlt) _
  | case6 c rest hc hslash ih =>
      rw [List.cons_append, escapedLength_plain hc hslash, ← ih]
      exact upTo_map_add rest.length 1 _

/-! ## Strings with code points -/

theorem scanCodePoint_eq_ok {distance missing value n : Nat} {text : List Char}
    (hscan : scanCodePoint distance missing value text = .ok n) : n = distance + missing := by
  fun_induction scanCodePoint distance missing value text with
  | case1 =>
      cases hscan
      rfl
  | case2 | case3 | case5 => cases hscan
  | case4 _ _ _ _ _ _ _ ih =>
      have hn := ih hscan
      omega

theorem lt_of_scanUnicodeEscape {distance n : Nat} {text : List Char}
    (hscan : scanUnicodeEscape distance text = .ok n) : distance < n := by
  unfold scanUnicodeEscape at hscan
  split at hscan
  · cases hscan
    exact Nat.lt_succ_self distance
  · have hn := scanCodePoint_eq_ok hscan
    omega
  · have hn := scanCodePoint_eq_ok hscan
    omega

theorem upTo_toOption_eq_none {bound : Nat} {scan : Scan}
    (hbeyond : ∀ n, scan = .ok n → bound < n) : upTo bound scan.toOption = none := by
  exact upTo_eq_none fun n hn => hbeyond n (toOption_eq_some.mp hn)

theorem upTo_scanCodePoint (distance missing value : Nat) (text after : List Char) :
    upTo (distance + text.length)
        (scanCodePoint distance missing value (text ++ after)).toOption =
      (scanCodePoint distance missing value text).toOption := by
  fun_induction scanCodePoint distance missing value text with
  | case1 distance value text hvalid =>
      rw [scanCodePoint, if_pos hvalid]
      exact upTo_some (Nat.le_add_right _ _)
  | case2 distance value text hvalid =>
      rw [scanCodePoint, if_neg hvalid]
      exact upTo_none _
  | case3 distance missing value =>
      apply upTo_toOption_eq_none
      intro n hn
      have hlength := scanCodePoint_eq_ok hn
      rw [List.length_nil]
      omega
  | case4 distance value missing c rest digit hdigit ih =>
      rw [List.cons_append, scanCodePoint, hdigit, ← ih, List.length_cons, Nat.add_assoc,
        Nat.add_comm 1]
  | case5 distance value missing c rest hdigit =>
      rw [List.cons_append, scanCodePoint, hdigit]
      exact upTo_none _

theorem upTo_scanUnicodeEscape (distance : Nat) (text after : List Char) :
    upTo (distance + text.length) (scanUnicodeEscape distance (text ++ after)).toOption =
      (scanUnicodeEscape distance text).toOption := by
  fun_cases scanUnicodeEscape distance text with
  | case1 rest => exact upTo_some (by simp)
  | case2 rest =>
      rw [List.length_cons, Nat.add_comm rest.length, ← Nat.add_assoc]
      exact upTo_scanCodePoint (distance + 1) 6 0 rest after
  | case3 text hslash hplus =>
      cases text with
      | nil => exact upTo_toOption_eq_none fun n hn => lt_of_scanUnicodeEscape hn
      | cons c rest =>
          rw [List.cons_append, scanUnicodeEscape]
          · exact upTo_scanCodePoint distance 4 0 (c :: rest) after
          · rintro tail ⟨⟩
            exact hslash rest rfl
          · rintro tail ⟨⟩
            exact hplus rest rfl

theorem scanUnicodeString_of_error {distance : Nat} {rest : List Char} {fault : LexFault}
    (hescape : scanUnicodeEscape (distance + 1) rest = .error fault) :
    scanUnicodeString distance ('\\' :: rest) = .error fault := by
  rw [scanUnicodeString.eq_def]
  simp only [hescape]
  rfl

theorem upTo_scanUnicodeString {after : List Char} (hstops : Stops after) (distance : Nat)
    (text : List Char) :
    upTo (distance + text.length) (scanUnicodeString distance (text ++ after)).toOption =
      (scanUnicodeString distance text).toOption := by
  fun_induction scanUnicodeString distance text with
  | case1 distance =>
      apply upTo_toOption_eq_none
      intro n hn
      obtain ⟨m, rfl, -⟩ := scanUnicodeString_endsWith _ _ n hn
      exact Nat.lt_add_of_pos_right (Nat.succ_pos m)
  | case2 distance more ih =>
      rw [List.cons_append, List.cons_append, scanUnicodeString_quote, ← ih]
      simp only [List.length_cons]
      congr 1
      omega
  | case3 distance rest hrest =>
      have hclose := hstops.head?_append_ne (by decide) (by decide) hrest
      rw [List.cons_append, scanUnicodeString_close hclose]
      exact upTo_some (by simp)
  | case4 distance rest next hescape _ ih =>
      obtain ⟨n, rfl⟩ := Nat.exists_eq_add_of_lt (lt_of_scanUnicodeEscape hescape)
      have hcut := upTo_scanUnicodeEscape (distance + 1) rest after
      rw [hescape] at hcut
      obtain ⟨hwhole, hn⟩ := upTo_eq_some.mp hcut
      have hn : n + 1 ≤ rest.length := by omega
      rw [Nat.add_assoc (distance + 1), Nat.add_sub_cancel_left] at ih
      rw [Nat.add_assoc (distance + 1)] at hwhole ⊢
      rw [List.cons_append, scanUnicodeString_escape (toOption_eq_some.mp hwhole),
        Nat.add_sub_cancel_left, List.drop_append_of_le_length hn, ← ih, List.length_drop,
        List.length_cons]
      congr 1
      omega
  | case5 distance rest fault hescape _ =>
      have hcut := upTo_scanUnicodeEscape (distance + 1) rest after
      rw [hescape] at hcut
      rw [List.cons_append]
      cases hfound : scanUnicodeEscape (distance + 1) (rest ++ after) with
      | error found =>
          rw [scanUnicodeString_of_error hfound]
          exact upTo_none _
      | ok next =>
          have hlt : distance + 1 + rest.length < next := by
            by_contra hle
            rw [hfound] at hcut
            cases (upTo_some (Nat.le_of_not_lt hle)).symm.trans hcut
          obtain ⟨n, rfl⟩ := Nat.exists_eq_add_of_le (Nat.le_of_lt (lt_of_scanUnicodeEscape hfound))
          rw [scanUnicodeString_escape hfound]
          apply upTo_toOption_eq_none
          intro m hm
          obtain ⟨k, rfl, -⟩ := scanUnicodeString_endsWith _ _ m hm
          rw [List.length_cons]
          omega
  | case6 distance c rest hc hslash ih =>
      rw [List.cons_append, scanUnicodeString_plain hc hslash, ← ih, List.length_cons]
      congr 1
      omega

/-! ## Runs and numbers -/

theorem takeWhile_stops {isPart : Char → Bool} (hsolid : IsSolid isPart) {after : List Char}
    (hstops : Stops after) (text : List Char) :
    (text ++ after).takeWhile isPart = text.takeWhile isPart := by
  have hafter : after.takeWhile isPart = [] := by
    cases after with
    | nil => rfl
    | cons c rest => exact List.takeWhile_cons_of_neg (by simp [hsolid c (hstops c rfl)])
  rw [List.takeWhile_append, hafter, List.append_nil]
  split
  · rename_i hall
    exact ((List.takeWhile_prefix isPart).eq_of_length hall).symm
  · rfl

theorem runLength_stops {isPart : Char → Bool} (hsolid : IsSolid isPart) {after : List Char}
    (hstops : Stops after) (text : List Char) :
    runLength isPart (text ++ after) = runLength isPart text := by
  rw [runLength, takeWhile_stops hsolid hstops, runLength]

theorem exponentLength_eq_zero {text : List Char} (hsmall : text.head? ≠ some 'e')
    (hlarge : text.head? ≠ some 'E') : exponentLength text = 0 := by
  unfold exponentLength
  split
  case h_7 => rfl
  all_goals first | exact absurd rfl hsmall | exact absurd rfl hlarge

theorem exponentLength_stops {after : List Char} (hstops : Stops after) (text : List Char) :
    exponentLength (text ++ after) = exponentLength text := by
  have hrun := runLength_stops isSolid_isDigit hstops
  fun_cases exponentLength text with
  | case1 digits rest | case2 digits rest | case3 digits rest | case4 digits rest =>
      rw [List.cons_append, List.cons_append, exponentLength]
      simp only [hrun]
      rfl
  | case5 digits rest hplus hminus | case6 digits rest hplus hminus =>
      rw [List.cons_append, exponentLength]
      · simp only [hrun]
        rfl
      · intro tail heq
        obtain ⟨more, rfl⟩ := hstops.exists_cons (by decide) (by decide) heq
        exact hplus more rfl
      · intro tail heq
        obtain ⟨more, rfl⟩ := hstops.exists_cons (by decide) (by decide) heq
        exact hminus more rfl
  | case7 text hplus _ hminus _ hsmall hlarge =>
      apply exponentLength_eq_zero
      · intro hwhole
        obtain ⟨more, rfl⟩ := List.head?_eq_some_iff.mp
          ((hstops.head?_append_iff (by decide) (by decide) text).mp hwhole)
        exact hsmall more rfl
      · intro hwhole
        obtain ⟨more, rfl⟩ := List.head?_eq_some_iff.mp
          ((hstops.head?_append_iff (by decide) (by decide) text).mp hwhole)
        exact hlarge more rfl

theorem numberLength_stops {after : List Char} (hstops : Stops after) (text : List Char) :
    numberLength (text ++ after) = numberLength text := by
  have hdigits := runLength_stops isSolid_isDigit hstops
  have hdrop : ∀ n ≤ text.length, (text ++ after).drop n = text.drop n ++ after :=
    fun n hn => List.drop_append_of_le_length hn
  have hhead : ∀ sign ∈ ['x', '.', 'L'], ∀ rest : List Char,
      ((rest ++ after).head? = some sign) = (rest.head? = some sign) := by
    intro sign hsign rest
    have hsolid : sign ≠ ';' ∧ isBlank sign = false := by
      simp only [List.mem_cons, List.not_mem_nil, or_false] at hsign
      rcases hsign with rfl | rfl | rfl <;> decide
    exact propext (hstops.head?_append_iff hsolid.1 hsolid.2 rest)
  have hx := hhead 'x' (by simp)
  have hdot := hhead '.' (by simp)
  have hlong := hhead 'L' (by simp)
  have hwhole := runLength_le isDigit text
  unfold numberLength
  simp only [hdigits, List.drop_drop]
  generalize runLength isDigit text = whole at hwhole ⊢
  rw [hdrop whole hwhole, List.take_append_of_le_length hwhole]
  simp only [hx, hdot]
  split
  · rename_i hhex
    simp only [Bool.and_eq_true, decide_eq_true_eq] at hhex
    rw [hdrop _ (lt_length_of_head?_drop hhex.2), runLength_stops isSolid_isHexDigit hstops]
  · have hpoint := add_point_le hwhole
    have hlength := add_runLength_le isDigit hpoint
    rw [hdrop _ hpoint, hdigits, hdrop _ hlength, exponentLength_stops hstops,
      hdrop _ (add_exponentLength_le hlength)]
    simp only [hlong]

/-! ## Operators -/

theorem isPrefixOf_stops {after operator : List Char} (hstops : Stops after)
    (hsolid : ∀ c ∈ operator, c ≠ ';' ∧ isBlank c = false) (text : List Char) :
    operator.isPrefixOf (text ++ after) = operator.isPrefixOf text := by
  induction operator generalizing text with
  | nil => simp
  | cons sign operator ih =>
      have hrest := ih fun c hc => hsolid c (List.mem_cons_of_mem _ hc)
      cases text with
      | cons d rest =>
          rw [List.cons_append, List.isPrefixOf_cons_cons, List.isPrefixOf_cons_cons, hrest]
      | nil =>
          obtain ⟨hsign, hblank⟩ := hsolid sign List.mem_cons_self
          cases after with
          | nil => rfl
          | cons c rest =>
              have hne : (sign == c) = false := by
                rw [beq_eq_false_iff_ne]
                rintro rfl
                exact hstops.head?_ne hsign hblank rfl
              rw [List.nil_append, List.isPrefixOf_cons_cons, hne]
              rfl

theorem solid_of_mem_longOperators :
    ∀ operator ∈ longOperators, ∀ c ∈ operator, c ≠ ';' ∧ isBlank c = false := by
  have hall : (longOperators.all fun operator =>
      operator.all fun c => c != ';' && !isBlank c) = true := by decide
  simpa using hall

theorem operatorLength_stops {after : List Char} (hstops : Stops after) (text : List Char) :
    operatorLength (text ++ after) = operatorLength text := by
  unfold operatorLength
  rw [List.find?_congr fun operator hoperator =>
    isPrefixOf_stops hstops (solid_of_mem_longOperators operator hoperator) text]

/-! ## Tokens by their first character -/

theorem scanWord_stops {after : List Char} (hstops : Stops after) (before : Nat)
    (text : List Char) : scanWord before (text ++ after) = scanWord before text := by
  rw [scanWord, runLength_stops isSolid_isWordPart hstops, scanWord]

theorem upTo_scanWord (before : Nat) (text : List Char) :
    upTo (before + text.length) (scanWord before text).toOption =
      (scanWord before text).toOption :=
  upTo_some (Nat.add_le_add_left (runLength_le _ _) _)

theorem upTo_scanString {quote : Char} {after : List Char} (hafter : after.head? ≠ some quote)
    (before : Nat) (text : List Char) :
    upTo (text.length + (before + 1)) (scanString quote before (text ++ after)).toOption =
      (scanString quote before text).toOption := by
  rw [scanString, scanString, toOption_orFault, toOption_orFault, upTo_map_add,
    upTo_quotedLength hafter]

theorem upTo_scanRawString {quote : Char} (hsign : quote ≠ ';') (hsolid : isBlank quote = false)
    {after : List Char} (hstops : Stops after) (text : List Char) :
    upTo ((quote :: text).length + 1) (scanRawString quote (quote :: text ++ after)).toOption =
      (scanRawString quote (quote :: text)).toOption := by
  have hquote : IsSolid (· = quote) := by
    rintro c (rfl | hblank)
    · exact decide_eq_false hsign.symm
    · exact decide_eq_false (ne_of_isBlank hblank hsolid)
  have hrun := runLength_le (· = quote) (quote :: text)
  unfold scanRawString
  rw [runLength_stops hquote hstops]
  generalize runLength (· = quote) (quote :: text) = run at hrun ⊢
  split
  · rename_i htwo
    exact upTo_some (by omega)
  · rename_i hthree
    have hlength : 3 ≤ (quote :: text).length := by omega
    rw [List.drop_append_of_le_length hlength, toOption_orFault, toOption_orFault,
      ← upTo_tripleLength quote 0 ((quote :: text).drop 3) after,
      show (quote :: text).length + 1 = ((quote :: text).drop 3).length + 4 by
        rw [List.length_drop]; omega]
    exact upTo_map_add _ _ _
  · rw [toOption_orFault, toOption_orFault, List.cons_append, List.drop_succ_cons, List.drop_zero,
      List.drop_succ_cons, List.drop_zero,
      ← upTo_quotedLength (hstops.head?_ne hsign hsolid) text]
    exact upTo_map_add _ _ _

/-- The letters between the first two dollars, if nothing else is between them. -/
theorem scanDollar_of_tag {text rest : List Char} (hhead : text.head? ≠ some '$')
    (hrest : text.drop (text.takeWhile fun c => isLetterOrNumber c || c = '_').length =
      '$' :: rest) :
    let tag := text.takeWhile fun c => isLetterOrNumber c || c = '_'
    scanDollar text = orFault ((taggedLength tag rest).map (· + (tag.length + 2)))
      .openTaggedString (tag.length + 2 + rest.length) := by
  unfold scanDollar
  split
  · exact absurd rfl hhead
  · simp only [hrest]

theorem scanDollar_of_head?_ne {text : List Char} (hhead : text.head? ≠ some '$')
    (hrest : (text.drop (text.takeWhile fun c => isLetterOrNumber c || c = '_').length).head? ≠
      some '$') :
    scanDollar text =
      .ok ((text.takeWhile fun c => isLetterOrNumber c || c = '_').length + 1) := by
  unfold scanDollar
  split
  · exact absurd rfl hhead
  · simp only
    split
    · rename_i hdrop
      rw [hdrop] at hrest
      exact absurd rfl hrest
    · rfl

theorem upTo_scanDollar {after : List Char} (hstops : Stops after) (text : List Char) :
    upTo (text.length + 1) (scanDollar (text ++ after)).toOption = (scanDollar text).toOption := by
  have htag := takeWhile_stops isSolid_isTagPart hstops text
  have hle : (text.takeWhile fun c => isLetterOrNumber c || c = '_').length ≤ text.length :=
    (List.takeWhile_prefix _).length_le
  have hdollar := fun rest => hstops.head?_append_iff (c := '$') (by decide) (by decide) rest
  by_cases hhead : text.head? = some '$'
  · obtain ⟨rest, rfl⟩ := List.head?_eq_some_iff.mp hhead
    rw [List.cons_append, scanDollar, scanDollar, toOption_orFault, toOption_orFault,
      ← upTo_dollarLength rest after]
    exact upTo_map_add _ _ _
  · have hwhole : (text ++ after).head? ≠ some '$' := fun h => hhead ((hdollar text).mp h)
    by_cases hnext : (text.drop (text.takeWhile fun c =>
        isLetterOrNumber c || c = '_').length).head? = some '$'
    · obtain ⟨rest, hrest⟩ := List.head?_eq_some_iff.mp hnext
      have hlonger : (text ++ after).drop ((text ++ after).takeWhile fun c =>
          isLetterOrNumber c || c = '_').length = '$' :: (rest ++ after) := by
        rw [htag, List.drop_append_of_le_length hle, hrest, List.cons_append]
      rw [scanDollar_of_tag hhead hrest, scanDollar_of_tag hwhole hlonger, htag, toOption_orFault,
        toOption_orFault, ← upTo_taggedLength _ rest after]
      have hlength := congrArg List.length hrest
      rw [List.length_drop, List.length_cons] at hlength
      generalize (text.takeWhile fun c => isLetterOrNumber c || c = '_') = tag at *
      rw [show text.length + 1 = rest.length + (tag.length + 2) by omega]
      exact upTo_map_add _ _ _
    · rw [scanDollar_of_head?_ne hhead hnext, scanDollar_of_head?_ne hwhole, htag]
      · exact upTo_some (Nat.succ_le_succ hle)
      · rw [htag, List.drop_append_of_le_length hle]
        exact fun h => hnext ((hdollar _).mp h)

theorem upTo_scanLetter {after : List Char} (hstops : Stops after) (c : Char) (text : List Char) :
    upTo (text.length + 1) (scanLetter c (text ++ after)).toOption =
      (scanLetter c text).toOption := by
  have hsingle : after.head? ≠ some '\'' := hstops.head?_ne (by decide) (by decide)
  have hdouble : after.head? ≠ some '"' := hstops.head?_ne (by decide) (by decide)
  fun_cases scanLetter c text with
  | case1 body hc | case2 body hc | case3 body hc =>
      simp only [List.cons_append, scanLetter, hc]
      exact upTo_scanString hsingle 1 body
  | case4 body hc =>
      simp only [List.cons_append, scanLetter, hc]
      exact upTo_scanString hdouble 1 body
  | case5 body hc =>
      simp only [List.cons_append, scanLetter, hc]
      exact upTo_scanRawString (by decide) (by decide) hstops body
  | case6 body hc =>
      simp only [List.cons_append, scanLetter, hc]
      exact upTo_scanRawString (by decide) (by decide) hstops body
  | case7 body hc =>
      simp only [List.cons_append, scanLetter, hc]
      rw [toOption_orFault, toOption_orFault, ← upTo_escapedLength hstops body]
      exact upTo_map_add _ _ _
  | case8 body hc =>
      simp only [List.cons_append, scanLetter, hc]
      rw [← upTo_scanUnicodeString hstops 3 body, List.length_cons, List.length_cons,
        Nat.add_comm 3]
  | case9 text hb hn hx hbytes hraw hrawDouble he hu =>
      -- a sign that does not come next in the part does not come next in the whole
      have hlonger : ∀ {sign letter : Char}, sign ≠ ';' → isBlank sign = false →
          (∀ body, c.toLower = letter → text = sign :: body → False) →
          ∀ body, c.toLower = letter → text ++ after = sign :: body → False := by
        intro sign letter hsign hsolid hpart body hc heq
        obtain ⟨more, hmore⟩ := hstops.exists_cons hsign hsolid heq
        exact hpart more hc hmore
      rw [scanLetter, scanWord_stops hstops, Nat.add_comm]
      · exact upTo_scanWord 1 text
      · exact hlonger (by decide) (by decide) hb
      · exact hlonger (by decide) (by decide) hn
      · exact hlonger (by decide) (by decide) hx
      · exact hlonger (by decide) (by decide) hbytes
      · exact hlonger (by decide) (by decide) hraw
      · exact hlonger (by decide) (by decide) hrawDouble
      · exact hlonger (by decide) (by decide) he
      · intro body hc heq
        obtain ⟨more, rfl⟩ := hstops.exists_cons (by decide) (by decide) heq
        obtain ⟨rest, rfl⟩ := hstops.exists_cons (by decide) (by decide) (List.cons.inj heq).2
        exact hu rest hc rfl

end Sql

end MetricCatalog
