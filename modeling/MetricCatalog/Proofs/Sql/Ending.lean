/-
# How a quoted text ends

The last character of a text in quotes, between dollars or between the signs of
a comment is the sign that closes it. A rule that looks for such a text takes at
least this one character.
-/

import MetricCatalog.Proofs.Sql.Extent

namespace MetricCatalog

namespace Sql

open Text

/-- What a rule takes from a text ends with a sign. -/
def EndsWith (sign : Char) (text : List Char) (length : Option Nat) : Prop :=
  ∀ n, length = some n → ∃ m, n = m + 1 ∧ text[m]? = some sign

theorem endsWith_none (sign : Char) (text : List Char) : EndsWith sign text none := by
  intro n hn
  cases hn

theorem endsWith_some {sign : Char} {text : List Char} {m : Nat} (hm : text[m]? = some sign) :
    EndsWith sign text (some (m + 1)) := by
  rintro n ⟨⟩
  exact ⟨m, rfl, hm⟩

theorem EndsWith.pos {sign : Char} {text : List Char} {length : Option Nat}
    (hends : EndsWith sign text length) {n : Nat} (hn : length = some n) : 0 < n := by
  obtain ⟨m, rfl, -⟩ := hends n hn
  exact Nat.succ_pos m

/-- What ends with a sign further on in a text ends with it from the start of the text. -/
theorem EndsWith.of_drop {sign : Char} {text : List Char} {length : Option Nat} {k : Nat}
    (hends : EndsWith sign (text.drop k) length) :
    EndsWith sign text (length.map (· + k)) := by
  intro n hn
  obtain ⟨found, hfound, rfl⟩ := Option.map_eq_some_iff.mp hn
  obtain ⟨m, rfl, hm⟩ := hends found hfound
  rw [List.getElem?_drop, Nat.add_comm] at hm
  exact ⟨m + k, by omega, hm⟩

theorem quotedLength_endsWith (quote : Char) (text : List Char) :
    EndsWith quote text (quotedLength quote text) := by
  fun_induction quotedLength quote text with
  | case1 | case3 => exact endsWith_none _ _
  | case2 | case5 => exact endsWith_some rfl
  | case4 rest ih | case6 _ _ rest _ ih => exact ih.of_drop

theorem tripleLength_endsWith (quote : Char) (seen : Nat) (text : List Char) :
    EndsWith quote text (tripleLength quote seen text) := by
  fun_induction tripleLength quote seen text with
  | case1 => exact endsWith_none _ _
  | case2 => exact endsWith_some rfl
  | case3 _ _ _ ih | case4 _ _ _ _ ih => exact ih.of_drop

theorem commentLength_endsWith (nested : Nat) (last : Char) (text : List Char) :
    EndsWith '/' text (commentLength nested last text) := by
  fun_induction commentLength nested last text with
  | case1 => exact endsWith_none _ _
  | case3 _ _ c _ _ hclosing =>
      simp only [Bool.and_eq_true, decide_eq_true_eq] at hclosing
      obtain ⟨rfl, rfl⟩ := hclosing
      exact endsWith_some rfl
  | case2 _ _ _ _ _ ih | case4 _ _ _ _ _ _ _ ih | case5 _ _ _ _ _ _ ih => exact ih.of_drop

theorem dollarLength_endsWith (text : List Char) : EndsWith '$' text (dollarLength text) := by
  fun_induction dollarLength text with
  | case1 | case2 => exact endsWith_none _ _
  | case3 c d rest hpair =>
      simp only [Bool.and_eq_true, decide_eq_true_eq] at hpair
      obtain ⟨rfl, rfl⟩ := hpair
      exact endsWith_some rfl
  | case4 _ _ _ _ ih => exact ih.of_drop

theorem taggedLength_endsWith (tag text : List Char) :
    EndsWith '$' text (taggedLength tag text) := by
  fun_induction taggedLength tag text with
  | case1 | case2 => exact endsWith_none _ _
  | case3 rest n _ ih | case5 rest n _ _ ih => exact EndsWith.of_drop (k := n + 1) ih
  | case4 rest n _ hclose =>
      rw [List.head?_drop] at hclose
      exact endsWith_some hclose
  | case6 _ _ _ ih => exact ih.of_drop

theorem escapedLength_endsWith (text : List Char) : EndsWith '\'' text (escapedLength text) := by
  fun_induction escapedLength text with
  | case1 | case5 => exact endsWith_none _ _
  | case2 rest ih => exact ih.of_drop
  | case3 => exact endsWith_some rfl
  | case4 rest n _ _ ih => exact EndsWith.of_drop (k := n + 1) ih
  | case6 _ _ _ _ ih => exact ih.of_drop

theorem scanUnicodeString_endsWith (distance : Nat) (text : List Char) :
    ∀ n, scanUnicodeString distance text = .ok n →
      ∃ m, n = distance + (m + 1) ∧ text[m]? = some '\'' := by
  fun_induction scanUnicodeString distance text with
  | case1 | case5 =>
      intro n hn
      cases hn
  | case2 distance more ih =>
      intro n hn
      obtain ⟨m, rfl, hm⟩ := ih n hn
      exact ⟨m + 2, by omega, hm⟩
  | case3 =>
      rintro n ⟨⟩
      exact ⟨0, rfl, rfl⟩
  | case4 distance rest next hescape _ ih =>
      intro n hn
      obtain ⟨m, rfl, hm⟩ := ih n hn
      obtain ⟨k, rfl⟩ := Nat.exists_eq_add_of_le (scanUnicodeEscape_within _ _ _ hescape).1
      rw [Nat.add_sub_cancel_left, List.getElem?_drop] at hm
      exact ⟨k + m + 1, by omega, hm⟩
  | case6 distance c rest _ _ ih =>
      intro n hn
      obtain ⟨m, rfl, hm⟩ := ih n hn
      exact ⟨m + 1, by omega, hm⟩

/-! ## Tokens -/

theorem toOption_eq_some {scan : Scan} {n : Nat} : scan.toOption = some n ↔ scan = .ok n := by
  cases scan with
  | error fault => exact ⟨nofun, nofun⟩
  | ok m => exact ⟨fun hm => congrArg _ (Option.some.inj hm), fun hm => by cases hm; rfl⟩

theorem toOption_orFault (length : Option Nat) (cause : LexCause) (distance : Nat) :
    (orFault length cause distance).toOption = length := by
  cases length <;> rfl

theorem scanRawString_endsWith {quote : Char} (letter : Char) (text : List Char) :
    EndsWith quote (letter :: text) (scanRawString quote text).toOption := by
  unfold scanRawString
  split
  · rename_i htwo
    have hrun : 2 ≤ runLength (· = quote) text := by omega
    apply endsWith_some (m := 2)
    obtain ⟨c, d, rest, rfl⟩ : ∃ c d rest, text = c :: d :: rest := by
      have hlength := Nat.le_trans hrun (runLength_le _ text)
      match text, hlength with
      | c :: d :: rest, _ => exact ⟨c, d, rest, rfl⟩
    by_cases hd : d = quote
    · rw [hd]
      rfl
    · have hshort : runLength (· = quote) (c :: d :: rest) ≤ 1 := by
        rw [runLength, List.takeWhile_cons]
        split
        · rw [List.takeWhile_cons_of_neg (by simpa using hd)]
          exact Nat.le_refl 1
        · exact Nat.zero_le 1
      omega
  · rw [toOption_orFault]
    exact EndsWith.of_drop (k := 4) (tripleLength_endsWith quote 0 (text.drop 3))
  · rw [toOption_orFault]
    exact EndsWith.of_drop (k := 2) (quotedLength_endsWith quote (text.drop 1))

/-- A word goes on as long as there are parts of a word, and a string behind a letter ends with its
quote. -/
theorem scanLetter_cases (c : Char) (text : List Char) :
    scanLetter c text = scanWord 1 text ∨
      ∃ quote, isBlank quote = false ∧ EndsWith quote (c :: text) (scanLetter c text).toOption := by
  fun_cases scanLetter c text with
  | case1 body | case2 body | case3 body =>
      refine Or.inr ⟨'\'', by decide, ?_⟩
      rw [scanString, toOption_orFault]
      exact EndsWith.of_drop (k := 2) (quotedLength_endsWith '\'' body)
  | case4 body =>
      refine Or.inr ⟨'"', by decide, ?_⟩
      rw [scanString, toOption_orFault]
      exact EndsWith.of_drop (k := 2) (quotedLength_endsWith '"' body)
  | case5 body => exact Or.inr ⟨'\'', by decide, scanRawString_endsWith c _⟩
  | case6 body => exact Or.inr ⟨'"', by decide, scanRawString_endsWith c _⟩
  | case7 body =>
      refine Or.inr ⟨'\'', by decide, ?_⟩
      rw [toOption_orFault]
      exact EndsWith.of_drop (k := 2) (escapedLength_endsWith body)
  | case8 body =>
      refine Or.inr ⟨'\'', by decide, fun n hn => ?_⟩
      obtain ⟨m, rfl, hm⟩ := scanUnicodeString_endsWith 3 body n (toOption_eq_some.mp hn)
      exact ⟨m + 3, by omega, hm⟩
  | case9 => exact Or.inl rfl

end Sql

end MetricCatalog
