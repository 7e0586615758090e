/-
# Texts that hide semicolons

Strings, quoted identifiers and comments are single tokens, so nothing that
stands in them cuts a statement.
-/

import MetricCatalog.Proofs.Sql.Closing

namespace MetricCatalog

namespace Sql

open Text

/-- A text in which the lexer looks for nothing but its end, and so for no semicolon. What follows
counts where the end could be taken for something else. -/
inductive Enclosed : TokenKind → List Char → List Char → Prop
  /-- A string, or an identifier in either of its quotes. -/
  | quoted {quote : Char} (hquote : quote ∈ ['\'', '"', '\x60']) (value : List Char)
      {after : List Char} (hafter : after.head? ≠ some quote) :
      Enclosed .other (quote :: (doubled quote value ++ [quote])) after
  /-- A string behind the letter of its type. -/
  | lettered {letter : Char} (hletter : letter ∈ ['b', 'B', 'n', 'N', 'x', 'X'])
      (value : List Char) {after : List Char} (hafter : after.head? ≠ some '\'') :
      Enclosed .other (letter :: '\'' :: (doubled '\'' value ++ ['\''])) after
  | bytes {letter : Char} (hletter : letter ∈ ['b', 'B']) (value : List Char)
      {after : List Char} (hafter : after.head? ≠ some '"') :
      Enclosed .other (letter :: '"' :: (doubled '"' value ++ ['"'])) after
  | raw {letter quote : Char} (hletter : letter ∈ ['r', 'R']) (hquote : quote ∈ ['\'', '"'])
      {value after : List Char} (hvalue : value.head? ≠ some quote)
      (hafter : after.head? ≠ some quote) :
      Enclosed .other (letter :: quote :: (doubled quote value ++ [quote])) after
  | rawTriple {letter quote : Char} (hletter : letter ∈ ['r', 'R'])
      (hquote : quote ∈ ['\'', '"']) {body : List Char} (after : List Char)
      (hbody : ¬ [quote, quote, quote] <:+: body ++ [quote, quote]) :
      Enclosed .other
        (letter :: quote :: quote :: quote :: (body ++ [quote, quote, quote])) after
  | escaped {letter : Char} (hletter : letter ∈ ['e', 'E']) {body after : List Char}
      (hbody : EscapedBody (fun escape rest =>
        escapeLength? (escape ++ rest) = some escape.length) after body)
      (hafter : after.head? ≠ some '\'') :
      Enclosed .other (letter :: '\'' :: (body ++ ['\''])) after
  | codePoints {letter : Char} (hletter : letter ∈ ['u', 'U']) {body after : List Char}
      (hbody : EscapedBody (fun escape rest =>
        scanUnicodeEscape 0 (escape ++ rest) = .ok escape.length) after body)
      (hafter : after.head? ≠ some '\'') :
      Enclosed .other (letter :: '&' :: '\'' :: (body ++ ['\''])) after
  | dollars {body : List Char} (after : List Char) (hbody : ¬ ['$', '$'] <:+: body ++ ['$']) :
      Enclosed .other ('$' :: '$' :: (body ++ ['$', '$'])) after
  | tagged {tag body : List Char} (hsome : tag ≠ [])
      (htag : ∀ c ∈ tag, (isLetterOrNumber c || c = '_') = true) (hbody : TaggedBody tag body)
      (after : List Char) :
      Enclosed .other ('$' :: (tag ++ '$' :: (body ++ '$' :: (tag ++ ['$'])))) after
  | line {body : List Char} (hbody : '\n' ∉ body) (after : List Char) :
      Enclosed .space ('-' :: '-' :: (body ++ ['\n'])) after
  /-- The last line of a text needs no end. -/
  | lastLine {body : List Char} (hbody : '\n' ∉ body) : Enclosed .space ('-' :: '-' :: body) []
  | block {body : List Char} (hbody : Closes 1 ' ' body) (after : List Char) :
      Enclosed .space ('/' :: '*' :: body) after

/-! ## Tokens by their first character -/

theorem scanDollar_dollars {body : List Char} (after : List Char)
    (hbody : ¬ ['$', '$'] <:+: body ++ ['$']) :
    scanDollar ('$' :: (body ++ '$' :: '$' :: after)) = .ok (body.length + 4) := by
  rw [scanDollar, dollarLength_append after hbody]
  rfl

theorem scanDollar_tagged {tag body : List Char} (hsome : tag ≠ [])
    (htag : ∀ c ∈ tag, (isLetterOrNumber c || c = '_') = true) (hbody : TaggedBody tag body)
    (after : List Char) :
    scanDollar (tag ++ '$' :: (body ++ '$' :: (tag ++ '$' :: after))) =
      .ok (body.length + (tag.length + 2) + (tag.length + 2)) := by
  have htake : (tag ++ '$' :: (body ++ '$' :: (tag ++ '$' :: after))).takeWhile
      (fun c => isLetterOrNumber c || c = '_') = tag := by
    rw [List.takeWhile_append_of_pos htag, List.takeWhile_cons_of_neg (by decide), List.append_nil]
  obtain ⟨c, rest, rfl⟩ := List.exists_cons_of_ne_nil hsome
  have hc : c ≠ '$' := by
    rintro rfl
    exact absurd (htag '$' List.mem_cons_self) (by decide)
  unfold scanDollar
  split
  · rename_i heq
    exact absurd (List.cons.inj heq).1 hc
  · simp only [htake, List.drop_left]
    rw [hbody.taggedLength_eq]
    rfl

/-- The letters that change what a quote behind them means. -/
def isStringLetter (c : Char) : Bool := c ∈ ['b', 'B', 'n', 'N', 'x', 'X', 'r', 'R', 'e', 'E', 'u', 'U']

theorem scanToken_letter {letter : Char} (hletter : isStringLetter letter = true)
    (rest : List Char) :
    scanToken letter rest = (scanLetter letter rest).map fun length => (.other, length) := by
  simp only [isStringLetter, List.mem_cons, List.not_mem_nil, or_false,
    decide_eq_true_eq] at hletter
  rcases hletter with rfl | rfl | rfl | rfl | rfl | rfl | rfl | rfl | rfl | rfl | rfl | rfl <;> rfl

theorem scanToken_backtick (value : List Char) {rest : List Char}
    (hrest : rest.head? ≠ some '\x60') :
    scanToken '\x60' ((doubled '\x60' value ++ ['\x60']) ++ rest) =
      .ok (.other, (doubled '\x60' value ++ ['\x60']).length + 1) := by
  have hscan : ∀ text, scanToken '\x60' text =
      (orFault ((quotedLength '\x60' text).map (· + 1)) (.openIdentifier '\x60') 0).map
        fun length => (.other, length) := fun _ => rfl
  rw [hscan, List.append_assoc, List.singleton_append, quotedLength_doubled '\x60' value hrest,
    List.length_append]
  rfl

/-- The string behind its letter and its opening quote. -/
theorem scanString_doubled {quote : Char} (before : Nat) (value : List Char) {after : List Char}
    (hafter : after.head? ≠ some quote) :
    scanString quote before (doubled quote value ++ quote :: after) =
      .ok ((doubled quote value).length + 1 + (before + 1)) := by
  rw [scanString, quotedLength_doubled quote value hafter]
  rfl

theorem scanLetter_lettered {letter : Char} (hletter : letter ∈ ['b', 'B', 'n', 'N', 'x', 'X'])
    (body : List Char) : scanLetter letter ('\'' :: body) = scanString '\'' 1 body := by
  simp only [List.mem_cons, List.not_mem_nil, or_false] at hletter
  rcases hletter with rfl | rfl | rfl | rfl | rfl | rfl <;> rfl

theorem scanLetter_bytes {letter : Char} (hletter : letter ∈ ['b', 'B']) (body : List Char) :
    scanLetter letter ('"' :: body) = scanString '"' 1 body := by
  simp only [List.mem_cons, List.not_mem_nil, or_false] at hletter
  rcases hletter with rfl | rfl <;> rfl

theorem scanLetter_raw {letter quote : Char} (hletter : letter ∈ ['r', 'R'])
    (hquote : quote ∈ ['\'', '"']) (body : List Char) :
    scanLetter letter (quote :: body) = scanRawString quote (quote :: body) := by
  simp only [List.mem_cons, List.not_mem_nil, or_false] at hletter hquote
  rcases hletter with rfl | rfl <;> rcases hquote with rfl | rfl <;> rfl

theorem scanLetter_escaped {letter : Char} (hletter : letter ∈ ['e', 'E']) (body : List Char) :
    scanLetter letter ('\'' :: body) =
      orFault ((escapedLength body).map (· + 2)) .badEscapedString 0 := by
  simp only [List.mem_cons, List.not_mem_nil, or_false] at hletter
  rcases hletter with rfl | rfl <;> rfl

theorem scanLetter_codePoints {letter : Char} (hletter : letter ∈ ['u', 'U']) (body : List Char) :
    scanLetter letter ('&' :: '\'' :: body) = scanUnicodeString 3 body := by
  simp only [List.mem_cons, List.not_mem_nil, or_false] at hletter
  rcases hletter with rfl | rfl <;> rfl

/-- The line feed belongs to the comment, if there is one. -/
theorem scanToken_dashes {body rest : List Char} (hbody : '\n' ∉ body)
    (hrest : ∀ c ∈ rest.head?, c = '\n') :
    scanToken '-' ('-' :: (body ++ rest)) =
      .ok (.space, body.length + if rest = [] then 2 else 3) := by
  have hrun : runLength (fun c => c ≠ '\n') (body ++ rest) = body.length := by
    refine runLength_append (fun c hc => ?_) fun c hc => ?_
    · rw [decide_eq_true_eq]
      rintro rfl
      exact hbody hc
    · rw [hrest c hc]
      rfl
  have hscan : scanToken '-' ('-' :: (body ++ rest)) =
      .ok (.space, if (('-' :: (body ++ rest)).drop (2 + runLength (fun c => c ≠ '\n')
        (body ++ rest) - 1)).isEmpty then 2 + runLength (fun c => c ≠ '\n') (body ++ rest)
        else 2 + runLength (fun c => c ≠ '\n') (body ++ rest) + 1) := rfl
  have hdrop : ('-' :: (body ++ rest)).drop (2 + body.length - 1) = rest := by
    rw [show 2 + body.length - 1 = body.length + 1 by omega, List.drop_succ_cons, List.drop_left]
  rw [hscan, hrun, hdrop]
  cases rest with
  | nil =>
      rw [if_pos rfl, List.isEmpty_nil, if_pos rfl, Nat.add_comm]
  | cons c more =>
      rw [if_neg (by simp), if_neg (by simp)]
      congr 2
      omega

theorem scanToken_of_scanLetter {letter : Char} {letters body after : List Char} {n : Nat}
    (hletter : letter ∈ letters) (hletters : ∀ c ∈ letters, isStringLetter c = true)
    (hscan : scanLetter letter (body ++ after) = .ok n) (hn : n = body.length + 1) :
    scanToken letter (body ++ after) = .ok (.other, body.length + 1) := by
  rw [scanToken_letter (hletters letter hletter), hscan, hn]
  rfl

theorem scanToken_of_scanDollar {body after : List Char} {n : Nat}
    (hscan : scanDollar (body ++ after) = .ok n) (hn : n = body.length + 1) :
    scanToken '$' (body ++ after) = .ok (.other, body.length + 1) := by
  show (scanDollar (body ++ after)).map (fun length => (TokenKind.other, length)) = _
  rw [hscan, hn]
  rfl

/-- An enclosed text is a single token, whatever stands in it. -/
theorem Enclosed.scanToken_eq {kind : TokenKind} {shield after : List Char}
    (henclosed : Enclosed kind shield after) :
    ∃ c body, shield = c :: body ∧
      scanToken c (body ++ after) = .ok (kind, body.length + 1) := by
  cases henclosed with
  | @quoted quote hquote value _ hafter =>
      refine ⟨_, _, rfl, ?_⟩
      simp only [List.mem_cons, List.not_mem_nil, or_false] at hquote
      rcases hquote with rfl | rfl | rfl
      · exact scanToken_string value hafter
      · exact scanToken_identifier value hafter
      · exact scanToken_backtick value hafter
  | @lettered letter hletter value _ hafter =>
      refine ⟨_, _, rfl, ?_⟩
      apply scanToken_of_scanLetter hletter (by simp [isStringLetter])
      · rw [List.cons_append, scanLetter_lettered hletter, List.append_assoc]
        exact scanString_doubled 1 value hafter
      · simp
  | @bytes letter hletter value _ hafter =>
      refine ⟨_, _, rfl, ?_⟩
      apply scanToken_of_scanLetter hletter (by simp [isStringLetter])
      · rw [List.cons_append, scanLetter_bytes hletter, List.append_assoc]
        exact scanString_doubled 1 value hafter
      · simp
  | @raw letter quote hletter hquote value _ hvalue hafter =>
      refine ⟨_, _, rfl, ?_⟩
      refine scanToken_of_scanLetter hletter (by simp [isStringLetter]) ?_ rfl
      rw [List.cons_append, scanLetter_raw hletter hquote, List.append_assoc,
        List.singleton_append, scanRawString_single hvalue hafter]
      simp
  | @rawTriple letter quote hletter hquote body _ hbody =>
      refine ⟨_, _, rfl, ?_⟩
      apply scanToken_of_scanLetter hletter (by simp [isStringLetter])
      · rw [List.cons_append, scanLetter_raw hletter hquote, List.cons_append, List.cons_append,
          List.append_assoc]
        exact scanRawString_triple after hbody
      · simp
  | @escaped letter hletter body _ hbody hafter =>
      refine ⟨_, _, rfl, ?_⟩
      apply scanToken_of_scanLetter hletter (by simp [isStringLetter])
      · rw [List.cons_append, scanLetter_escaped hletter, List.append_assoc,
          List.singleton_append, escapedLength_append hbody hafter]
        rfl
      · simp
  | @codePoints letter hletter body _ hbody hafter =>
      refine ⟨_, _, rfl, ?_⟩
      apply scanToken_of_scanLetter hletter (by simp [isStringLetter])
      · rw [List.cons_append, List.cons_append, scanLetter_codePoints hletter, List.append_assoc]
        exact scanUnicodeString_append hbody hafter 3
      · simp
        omega
  | @dollars body _ hbody =>
      refine ⟨_, _, rfl, ?_⟩
      apply scanToken_of_scanDollar
      · rw [List.cons_append, List.append_assoc]
        exact scanDollar_dollars after hbody
      · simp
  | @tagged tag body hsome htag hbody _ =>
      refine ⟨_, _, rfl, ?_⟩
      apply scanToken_of_scanDollar
      · simpa using scanDollar_tagged hsome htag hbody after
      · simp
        omega
  | @line body hbody _ =>
      refine ⟨_, _, rfl, ?_⟩
      rw [List.cons_append, List.append_assoc, scanToken_dashes hbody (by simp)]
      simp
  | @lastLine body hbody =>
      refine ⟨_, _, rfl, ?_⟩
      rw [List.cons_append, scanToken_dashes hbody (by simp)]
      simp
  | @block body hbody _ =>
      refine ⟨_, _, rfl, ?_⟩
      show (orFault ((commentLength 1 ' ' (body ++ after)).map (· + 2)) _ _).map _ = _
      rw [hbody.commentLength_append Nat.one_pos]
      rfl

end Sql

end MetricCatalog
