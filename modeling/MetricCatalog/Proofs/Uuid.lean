/-
# Identifiers read back

The grouped digits of an identifier are read as that identifier.
-/

import MetricCatalog.Proofs.Text.Digits
import MetricCatalog.Uuid

namespace MetricCatalog

namespace Uuid

open Text

variable {digits : List Char}

/-- Without the hyphens the groups are the digits again. -/
theorem filter_grouped (hdigits : ∀ c ∈ digits, c ≠ '-') :
    (grouped digits).filter (· ≠ '-') = digits := by
  have hgroup : ∀ group : List Char, group ⊆ digits → group.filter (· ≠ '-') = group := by
    intro group hsub
    exact List.filter_eq_self.mpr fun c hc => by simpa using hdigits c (hsub hc)
  have htail (count : Nat) : digits.drop count ⊆ digits := List.drop_subset count digits
  have hmiddle (count : Nat) : (digits.drop count).take 4 ⊆ digits :=
    List.Subset.trans (List.take_subset 4 _) (htail count)
  have hsplit (count : Nat) :
      (digits.drop count).take 4 ++ digits.drop (count + 4) = digits.drop count := by
    rw [← List.drop_drop, List.take_append_drop]
  have hhyphen (rest : List Char) : ('-' :: rest).filter (· ≠ '-') = rest.filter (· ≠ '-') :=
    List.filter_cons_of_neg (by decide)
  simp only [grouped, List.append_assoc, List.cons_append, List.filter_append, hhyphen,
    hgroup _ (List.take_subset 8 digits), hgroup _ (hmiddle _), hgroup _ (htail _)]
  rw [hsplit 16, hsplit 12, hsplit 8, List.take_append_drop]

theorem length_digits (id : Uuid) : id.digits.length = 32 :=
  length_paddedHexDigits (by decide) id.value_lt

theorem isHexDigit_of_mem_digits {id : Uuid} {c : Char} (hc : c ∈ id.digits) :
    isHexDigit c = true := isHexDigit_of_mem_paddedHexDigits hc

theorem ofDigits?_digits (id : Uuid) : ofDigits? id.digits = some id := by
  have hvalue : hexadecimal? id.digits = some id.value := hexadecimal?_paddedHexDigits 32 id.value
  have hsame : ofNat id.value = id := by
    obtain ⟨value, hlt⟩ := id
    simp only [ofNat, Nat.mod_eq_of_lt hlt]
  rw [ofDigits?, if_pos id.length_digits, hvalue, Option.map_some, hsame]

theorem ofGroups?_digits (id : Uuid) : ofGroups? (grouped id.digits) = some id := by
  have hhyphen : ∀ c ∈ id.digits, c ≠ '-' := by
    rintro c hc rfl
    exact absurd (isHexDigit_of_mem_digits hc) (by decide)
  rw [ofGroups?, filter_grouped hhyphen, if_pos rfl, ofDigits?_digits]

/-- The groups start with a digit. -/
theorem exists_grouped_eq_cons (id : Uuid) :
    ∃ first rest, grouped id.digits = first :: rest ∧ isHexDigit first = true := by
  cases hdigits : id.digits with
  | nil =>
      have hlength := id.length_digits
      rw [hdigits] at hlength
      cases hlength
  | cons first rest =>
      exact ⟨first, _, rfl, isHexDigit_of_mem_digits (hdigits ▸ List.mem_cons_self)⟩

/-- An identifier is read back from its written form. -/
theorem parse?_format (id : Uuid) : parse? id.format = some id := by
  have hlength : (grouped id.digits).length = 36 := by
    simp [grouped, id.length_digits]
  have hgroups := id.ofGroups?_digits
  obtain ⟨first, rest, htext, hfirst⟩ := id.exists_grouped_eq_cons
  rw [htext] at hlength hgroups
  have hprefix : (first :: rest).take 9 ≠ "urn:uuid:".toList := by
    intro hprefix
    have hhead : first = 'u' := (List.cons.inj hprefix).1
    rw [hhead] at hfirst
    cases hfirst
  simp only [parse?, format, htext, String.toList_ofList]
  split
  · rename_i hbrace
    cases hbrace
    cases hfirst
  · rw [if_neg hprefix, if_neg (by omega), hgroups]

end Uuid

end MetricCatalog
