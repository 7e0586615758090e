/-
# Where a quoted text closes

A text between two of its signs is taken up to the closing one if it holds
nothing that closes it before. What this means depends on the form of the text:
doubled quotes, escapes and tags that differ do not close it, and comments close
when as many of them have ended as have begun.
-/

import MetricCatalog.Proofs.Sql.Scan

namespace MetricCatalog

namespace Sql

open Text

/-- The number of places in a text where one sign follows another. The character in front of the
text counts. -/
def adjacent (first second : Char) : Char → List Char → Nat
  | _, [] => 0
  | last, c :: rest =>
      (if last = first ∧ c = second then 1 else 0) + adjacent first second c rest

/-- A text closes some nested comments, and no part of it in front does. -/
structure Closes (nested : Nat) (last : Char) (body : List Char) : Prop where
  closed : adjacent '*' '/' last body = nested + adjacent '/' '*' last body
  isOpen : ∀ front back, body = front ++ back → back ≠ [] →
    adjacent '*' '/' last front < nested + adjacent '/' '*' last front

/-- A text in quotes in which a backslash starts an escape. What an escape is depends on what
follows it, up to the end of the text. -/
inductive EscapedBody (isEscape : List Char → List Char → Prop) (after : List Char) :
    List Char → Prop
  | nil : EscapedBody isEscape after []
  | plain {c : Char} {rest : List Char} (hquote : c ≠ '\'') (hslash : c ≠ '\\')
      (hrest : EscapedBody isEscape after rest) : EscapedBody isEscape after (c :: rest)
  | quote {rest : List Char} (hrest : EscapedBody isEscape after rest) :
      EscapedBody isEscape after ('\'' :: '\'' :: rest)
  | escape {escape rest : List Char} (hescape : isEscape escape (rest ++ '\'' :: after))
      (hrest : EscapedBody isEscape after rest) :
      EscapedBody isEscape after ('\\' :: (escape ++ rest))

/-- A text between tags. What differs from the tag behind a dollar does not close it, and what was
compared with the tag is not looked at again. -/
inductive TaggedBody (tag : List Char) : List Char → Prop
  | nil : TaggedBody tag []
  | plain {c : Char} {rest : List Char} (hc : c ≠ '$') (hrest : TaggedBody tag rest) :
      TaggedBody tag (c :: rest)
  | differs {same more rest : List Char} {t c : Char} (htag : tag = same ++ t :: more)
      (hc : c ≠ t) (hrest : TaggedBody tag rest) :
      TaggedBody tag ('$' :: (same ++ c :: rest))
  | unclosed {c : Char} {rest : List Char} (hc : c ≠ '$') (hrest : TaggedBody tag (c :: rest)) :
      TaggedBody tag ('$' :: (tag ++ c :: rest))

/-! ## Lengths -/

theorem tripleLength_append {quote : Char} {seen : Nat} {body : List Char} (after : List Char)
    (hseen : seen ≤ 2)
    (hbody : ¬ [quote, quote, quote] <:+: List.replicate seen quote ++ body ++ [quote, quote]) :
    tripleLength quote seen (body ++ (quote :: quote :: quote :: after)) =
      some (body.length + 3) := by
  induction body generalizing seen with
  | nil =>
      have hzero : seen = 0 := by
        by_contra hpos
        obtain ⟨k, rfl⟩ : ∃ k, seen = k + 1 := ⟨seen - 1, by omega⟩
        refine hbody ⟨List.replicate k quote, [], ?_⟩
        simp [List.replicate_succ']
      subst hzero
      simp [tripleLength]
  | cons c rest ih =>
      rw [List.cons_append, tripleLength]
      by_cases hc : c = quote
      · subst hc
        have hlt : seen ≠ 2 := by
          rintro rfl
          exact hbody ⟨[], rest ++ [c, c], by simp [List.replicate]⟩
        rw [if_pos rfl, if_neg hlt, ih (by omega) (by simpa [List.replicate_succ'] using hbody)]
        simp
      · rw [if_neg hc, ih (by omega) (fun hinfix => hbody ?_)]
        · simp
        · obtain ⟨front, back, heq⟩ := hinfix
          refine ⟨List.replicate seen quote ++ c :: front, back, ?_⟩
          simpa using heq

theorem dollarLength_append {body : List Char} (after : List Char)
    (hbody : ¬ ['$', '$'] <:+: body ++ ['$']) :
    dollarLength (body ++ '$' :: '$' :: after) = some (body.length + 2) := by
  induction body with
  | nil => rfl
  | cons c rest ih =>
      have hrest : ¬ ['$', '$'] <:+: rest ++ ['$'] := by
        rintro ⟨front, back, heq⟩
        exact hbody ⟨c :: front, back, by simpa using heq⟩
      have hstep : ∀ text, (∀ d ∈ text.head?, ¬ (c = '$' ∧ d = '$')) → text ≠ [] →
          dollarLength (c :: text) = (dollarLength text).map (· + 1) := by
        intro text hhead hsome
        obtain ⟨d, more, rfl⟩ := List.exists_cons_of_ne_nil hsome
        have hpair := hhead d rfl
        rw [dollarLength, if_neg (by simpa using hpair)]
      rw [List.cons_append, hstep _ _ (by simp), ih hrest]
      · rfl
      · intro d hd hpair
        obtain ⟨rfl, rfl⟩ := hpair
        cases rest with
        | nil => exact hbody ⟨[], [], rfl⟩
        | cons e more =>
            cases hd
            exact hbody ⟨[], more ++ ['$'], by simp⟩

theorem matchTag_append (tag rest : List Char) :
    matchTag tag (tag ++ rest) = .whole tag.length := by
  induction tag with
  | nil => rfl
  | cons t tag ih => simp [matchTag, ih]

theorem matchTag_differs {same more rest : List Char} {t c : Char} (hc : c ≠ t) :
    matchTag (same ++ t :: more) (same ++ c :: rest) = .differs (same.length + 1) := by
  induction same with
  | nil => simp [matchTag, hc.symm]
  | cons s same ih => simp [matchTag, ih]

theorem taggedLength_differs {tag rest : List Char} {n : Nat}
    (hmatch : matchTag tag rest = .differs n) :
    taggedLength tag ('$' :: rest) = (taggedLength tag (rest.drop n)).map (· + (n + 1)) := by
  rw [taggedLength, if_pos rfl, hmatch]

theorem taggedLength_close {tag rest : List Char} {n : Nat}
    (hmatch : matchTag tag rest = .whole n) (hclose : (rest.drop n).head? = some '$') :
    taggedLength tag ('$' :: rest) = some (n + 2) := by
  rw [taggedLength, if_pos rfl, hmatch]
  exact if_pos hclose

theorem taggedLength_open {tag rest : List Char} {n : Nat}
    (hmatch : matchTag tag rest = .whole n) (hopen : (rest.drop n).head? ≠ some '$') :
    taggedLength tag ('$' :: rest) = (taggedLength tag (rest.drop n)).map (· + (n + 1)) := by
  rw [taggedLength, if_pos rfl, hmatch]
  exact if_neg hopen

theorem TaggedBody.taggedLength_eq {tag body : List Char} (hbody : TaggedBody tag body)
    (after : List Char) :
    taggedLength tag (body ++ '$' :: (tag ++ '$' :: after)) =
      some (body.length + (tag.length + 2)) := by
  induction hbody with
  | nil =>
      rw [List.nil_append, taggedLength_close (matchTag_append _ _) (by simp), List.length_nil,
        Nat.zero_add]
  | plain hc _ ih =>
      rw [List.cons_append, taggedLength, if_neg hc, ih, Option.map_some, List.length_cons]
      congr 1
      omega
  | @differs same more rest t c htag hc _ ih =>
      have hmatch : matchTag tag (same ++ c :: (rest ++ '$' :: (tag ++ '$' :: after))) =
          .differs (same.length + 1) := by
        rw [htag]
        exact matchTag_differs hc
      have hdrop : (same ++ c :: (rest ++ '$' :: (tag ++ '$' :: after))).drop (same.length + 1) =
          rest ++ '$' :: (tag ++ '$' :: after) := by
        simp
      rw [List.cons_append, List.append_assoc, List.cons_append, taggedLength_differs hmatch, hdrop,
        ih, Option.map_some, List.length_cons, List.length_append, List.length_cons]
      congr 1
      omega
  | @unclosed c rest hc _ ih =>
      have hopen : ((tag ++ (c :: rest ++ '$' :: (tag ++ '$' :: after))).drop tag.length).head? ≠
          some '$' := by
        simpa using hc
      rw [List.cons_append, List.append_assoc, taggedLength_open (matchTag_append _ _) hopen,
        List.drop_left, ih, Option.map_some, List.length_cons, List.length_cons, List.length_append,
        List.length_cons]
      congr 1
      omega

theorem escapedLength_close {after : List Char} (hafter : after.head? ≠ some '\'') :
    escapedLength ('\'' :: after) = some 1 := by
  rw [escapedLength.eq_def]
  simp only [if_pos]
  split
  · exact absurd rfl hafter
  · rfl

theorem escapedLength_quote (rest : List Char) :
    escapedLength ('\'' :: '\'' :: rest) = (escapedLength rest).map (· + 2) := by
  rw [escapedLength.eq_def]
  rfl

theorem escapedLength_plain {c : Char} (hquote : c ≠ '\'') (hslash : c ≠ '\\')
    (rest : List Char) : escapedLength (c :: rest) = (escapedLength rest).map (· + 1) := by
  rw [escapedLength.eq_def]
  simp only [if_neg hquote, if_neg hslash]

theorem escapedLength_escape {n : Nat} {rest : List Char} (hescape : escapeLength? rest = some n) :
    escapedLength ('\\' :: rest) = (escapedLength (rest.drop n)).map (· + (n + 1)) := by
  rw [escapedLength.eq_def]
  simp only [hescape]
  rfl

theorem escapedLength_append {body after : List Char}
    (hbody : EscapedBody (fun escape rest => escapeLength? (escape ++ rest) = some escape.length)
      after body) (hafter : after.head? ≠ some '\'') :
    escapedLength (body ++ '\'' :: after) = some (body.length + 1) := by
  induction hbody with
  | nil => exact escapedLength_close hafter
  | plain hquote hslash _ ih =>
      rw [List.cons_append, escapedLength_plain hquote hslash, ih]
      rfl
  | quote _ ih =>
      rw [List.cons_append, List.cons_append, escapedLength_quote, ih]
      rfl
  | @escape escape rest hescape _ ih =>
      rw [List.cons_append, List.append_assoc, escapedLength_escape hescape, List.drop_left, ih,
        Option.map_some, List.length_cons, List.length_append]
      congr 1
      omega

/-! ## Comments -/

/-- What is left behind one character closes the comments that are open there. -/
theorem closes_cons {nested left : Nat} {last c : Char} {rest : List Char} (hnested : 0 < nested)
    (hstep : (if last = '*' ∧ c = '/' then 1 else 0) + left =
      nested + if last = '/' ∧ c = '*' then 1 else 0) :
    Closes nested last (c :: rest) ↔ Closes left c rest := by
  constructor
  · rintro ⟨hclosed, hopen⟩
    refine ⟨?_, fun front back hrest hback => ?_⟩
    · rw [adjacent, adjacent] at hclosed
      omega
    · have hfront := hopen (c :: front) back (by rw [hrest, List.cons_append]) hback
      rw [adjacent, adjacent] at hfront
      omega
  · rintro ⟨hclosed, hopen⟩
    refine ⟨?_, fun front back hbody hback => ?_⟩
    · rw [adjacent, adjacent]
      omega
    · cases front with
      | nil => exact hnested
      | cons d front =>
          obtain ⟨rfl, hrest⟩ := List.cons.inj hbody
          have hfront := hopen front back hrest hback
          rw [adjacent, adjacent]
          omega

theorem closes_slash {rest : List Char} : Closes 1 '*' ('/' :: rest) ↔ rest = [] := by
  constructor
  · rintro ⟨-, hopen⟩
    by_contra hrest
    exact absurd (hopen ['/'] rest rfl hrest) (by decide)
  · rintro rfl
    refine ⟨rfl, fun front back hbody hback => ?_⟩
    cases front with
    | nil => exact Nat.one_pos
    | cons c front =>
        have hnil := (List.cons.inj hbody).2
        exact absurd (List.append_eq_nil_iff.mp hnil.symm).2 hback

theorem not_closes_nil {nested : Nat} {last : Char} (hnested : 0 < nested) :
    ¬ Closes nested last [] := by
  rintro ⟨hclosed, -⟩
  rw [adjacent, adjacent] at hclosed
  omega

theorem Closes.commentLength_append {nested : Nat} {last : Char} {body : List Char}
    (hcloses : Closes nested last body) (hnested : 0 < nested) (after : List Char) :
    commentLength nested last (body ++ after) = some body.length := by
  induction body generalizing nested last with
  | nil => exact absurd hcloses (not_closes_nil hnested)
  | cons c rest ih =>
      have hnext : ∀ {left : Nat}, 0 < left → Closes left c rest →
          (commentLength left c (rest ++ after)).map (· + 1) = some (c :: rest).length := by
        intro left hleft hrest
        rw [ih hrest hleft]
        rfl
      rw [List.cons_append, commentLength]
      simp only [Bool.and_eq_true, decide_eq_true_eq]
      split
      · rename_i hopening
        apply hnext (Nat.succ_pos nested)
        refine (closes_cons hnested ?_).mp hcloses
        rw [if_pos hopening, if_neg (by rintro ⟨rfl, rfl⟩; exact absurd hopening.1 (by decide))]
        omega
      · rename_i hopening
        split
        · rename_i hclosing
          split
          · obtain ⟨rfl, rfl⟩ := hclosing
            obtain rfl : nested = 1 := by omega
            rw [closes_slash.mp hcloses]
            rfl
          · apply hnext (by omega)
            refine (closes_cons hnested ?_).mp hcloses
            rw [if_pos hclosing, if_neg hopening]
            omega
        · rename_i hclosing
          apply hnext hnested
          refine (closes_cons hnested ?_).mp hcloses
          rw [if_neg hclosing, if_neg hopening, Nat.zero_add, Nat.add_zero]

theorem closes_of_commentLength {nested : Nat} {last : Char} {text : List Char} {n : Nat}
    (hlength : commentLength nested last text = some n) (hnested : 0 < nested) :
    Closes nested last (text.take n) := by
  fun_induction commentLength nested last text generalizing n with
  | case1 => cases hlength
  | case2 nested last c rest hopening ih =>
      obtain ⟨m, hm, rfl⟩ := Option.map_eq_some_iff.mp hlength
      simp only [Bool.and_eq_true, decide_eq_true_eq] at hopening
      refine (closes_cons hnested ?_).mpr (ih hm (Nat.succ_pos nested))
      rw [if_pos hopening, if_neg (by rintro ⟨rfl, rfl⟩; exact absurd hopening.1 (by decide))]
      omega
  | case3 nested last c rest hopening hclosing hle =>
      cases hlength
      simp only [Bool.and_eq_true, decide_eq_true_eq] at hclosing
      obtain ⟨rfl, rfl⟩ := hclosing
      obtain rfl : nested = 1 := by omega
      exact closes_slash.mpr rfl
  | case4 nested last c rest hopening hclosing hlt ih =>
      obtain ⟨m, hm, rfl⟩ := Option.map_eq_some_iff.mp hlength
      simp only [Bool.and_eq_true, decide_eq_true_eq] at hopening hclosing
      refine (closes_cons hnested ?_).mpr (ih hm (by omega))
      rw [if_pos hclosing, if_neg hopening]
      omega
  | case5 nested last c rest hopening hclosing ih =>
      obtain ⟨m, hm, rfl⟩ := Option.map_eq_some_iff.mp hlength
      simp only [Bool.and_eq_true, decide_eq_true_eq] at hopening hclosing
      refine (closes_cons hnested ?_).mpr (ih hm hnested)
      rw [if_neg hclosing, if_neg hopening, Nat.zero_add, Nat.add_zero]

/-! ## Strings with code points -/

theorem scanCodePoint_shift {distance missing value : Nat} {text : List Char} {n : Nat}
    (hscan : scanCodePoint distance missing value text = .ok n) (before : Nat) :
    scanCodePoint (before + distance) missing value text = .ok (before + n) := by
  fun_induction scanCodePoint distance missing value text with
  | case1 distance value text hvalid =>
      cases hscan
      rw [scanCodePoint, if_pos hvalid]
  | case2 | case3 | case5 => cases hscan
  | case4 distance value missing c rest digit hdigit ih =>
      rw [scanCodePoint, hdigit]
      exact ih hscan

theorem scanUnicodeEscape_shift {text : List Char} {n : Nat}
    (hscan : scanUnicodeEscape 0 text = .ok n) (before : Nat) :
    scanUnicodeEscape before text = .ok (before + n) := by
  unfold scanUnicodeEscape at hscan ⊢
  split at hscan
  · cases hscan
    rfl
  · exact scanCodePoint_shift hscan before
  · exact scanCodePoint_shift hscan before

theorem scanUnicodeString_close {after : List Char} (hafter : after.head? ≠ some '\'')
    (distance : Nat) : scanUnicodeString distance ('\'' :: after) = .ok (distance + 1) := by
  rw [scanUnicodeString.eq_def]
  simp only [if_pos]
  split
  · exact absurd rfl hafter
  · rfl

theorem scanUnicodeString_quote (distance : Nat) (rest : List Char) :
    scanUnicodeString distance ('\'' :: '\'' :: rest) = scanUnicodeString (distance + 2) rest := by
  rw [scanUnicodeString.eq_def]
  rfl

theorem scanUnicodeString_plain {c : Char} (hquote : c ≠ '\'') (hslash : c ≠ '\\')
    (distance : Nat) (rest : List Char) :
    scanUnicodeString distance (c :: rest) = scanUnicodeString (distance + 1) rest := by
  rw [scanUnicodeString.eq_def]
  simp only [if_neg hquote, if_neg hslash]

theorem scanUnicodeString_escape {distance n : Nat} {rest : List Char}
    (hescape : scanUnicodeEscape (distance + 1) rest = .ok (distance + 1 + n)) :
    scanUnicodeString distance ('\\' :: rest) =
      scanUnicodeString (distance + 1 + n) (rest.drop n) := by
  rw [scanUnicodeString.eq_def]
  simp only [hescape, Nat.add_sub_cancel_left]
  rfl

theorem scanUnicodeString_append {body after : List Char}
    (hbody : EscapedBody (fun escape rest => scanUnicodeEscape 0 (escape ++ rest) =
      .ok escape.length) after body) (hafter : after.head? ≠ some '\'') (distance : Nat) :
    scanUnicodeString distance (body ++ '\'' :: after) = .ok (distance + (body.length + 1)) := by
  induction hbody generalizing distance with
  | nil => exact scanUnicodeString_close hafter distance
  | @plain c rest hquote hslash _ ih =>
      rw [List.cons_append, scanUnicodeString_plain hquote hslash, ih, List.length_cons,
        Nat.add_assoc, Nat.add_comm 1]
  | @quote rest _ ih =>
      rw [List.cons_append, List.cons_append, scanUnicodeString_quote, ih, List.length_cons,
        List.length_cons]
      congr 1
      omega
  | @escape escape rest hescape _ ih =>
      have hnext := scanUnicodeEscape_shift hescape (distance + 1)
      rw [List.cons_append, List.append_assoc, scanUnicodeString_escape hnext, List.drop_left, ih,
        List.length_cons, List.length_append]
      congr 1
      omega

/-! ## Raw strings -/

theorem runLength_quotes (quote : Char) (text : List Char) (count : Nat)
    (htext : text.head? ≠ some quote) :
    runLength (· = quote) (List.replicate count quote ++ text) = count := by
  have hrun : runLength (· = quote) (List.replicate count quote ++ text) =
      (List.replicate count quote).length := by
    refine runLength_append (fun c hc => ?_) fun c hc => ?_
    · rw [List.eq_of_mem_replicate hc, decide_eq_true_eq]
    · rw [decide_eq_false_iff_not]
      rintro rfl
      exact htext hc
  rw [hrun, List.length_replicate]

theorem scanRawString_single {quote : Char} {value after : List Char}
    (hvalue : value.head? ≠ some quote) (hafter : after.head? ≠ some quote) :
    scanRawString quote (quote :: (doubled quote value ++ quote :: after)) =
      .ok ((doubled quote value).length + 3) := by
  have hlength := quotedLength_doubled quote value hafter
  cases value with
  | nil =>
      have hrun := runLength_quotes quote after 2 hafter
      change runLength (· = quote) (quote :: quote :: after) = 2 at hrun
      rw [doubled_nil, List.nil_append, scanRawString, hrun]
      rfl
  | cons c rest =>
      have hc : c ≠ quote := fun hc => hvalue (congrArg some hc)
      have hrun := runLength_quotes quote (doubled quote (c :: rest) ++ quote :: after) 1
        (by simp [doubled, hc])
      change runLength (· = quote) (quote :: (doubled quote (c :: rest) ++ quote :: after)) = 1
        at hrun
      rw [scanRawString, hrun]
      show orFault ((quotedLength quote (doubled quote (c :: rest) ++ quote :: after)).map
        (· + 2)) _ _ = _
      rw [hlength]
      rfl

theorem scanRawString_triple {quote : Char} {body : List Char} (after : List Char)
    (hbody : ¬ [quote, quote, quote] <:+: body ++ [quote, quote]) :
    scanRawString quote (quote :: quote :: quote :: (body ++ quote :: quote :: quote :: after)) =
      .ok (body.length + 7) := by
  have hrun : min 3 (runLength (· = quote)
      (quote :: quote :: quote :: (body ++ quote :: quote :: quote :: after))) = 3 := by
    simp [runLength]
  rw [scanRawString, hrun]
  show orFault ((tripleLength quote 0 (body ++ quote :: quote :: quote :: after)).map
    (· + 4)) _ _ = _
  rw [tripleLength_append after (Nat.zero_le 2) hbody]
  rfl

end Sql

end MetricCatalog
