/-
# Trimming

A run of characters of a class ends where a character of another class follows.
Trimming leaves a text alone that neither starts nor ends with white space.
-/

import Mathlib.Data.List.Basic
import Mathlib.Data.List.TakeWhile
import MetricCatalog.Text.Blank

namespace MetricCatalog

namespace Text

/-! ## Runs -/

section

variable {isPart : Char → Bool} {run rest : List Char} (hrun : ∀ c ∈ run, isPart c = true)
  (hrest : ∀ c ∈ rest.head?, isPart c = false)

include hrun hrest

theorem takeWhile_run : (run ++ rest).takeWhile isPart = run := by
  rw [List.takeWhile_append_of_pos hrun]
  cases rest with
  | nil => exact List.append_nil run
  | cons c rest => simp [hrest c rfl]

theorem dropWhile_run : (run ++ rest).dropWhile isPart = rest := by
  rw [List.dropWhile_append_of_pos hrun]
  cases rest with
  | nil => rfl
  | cons c rest => simp [hrest c rfl]

end

theorem isPart_head?_dropWhile {isPart : Char → Bool} {text : List Char} :
    ∀ c ∈ (text.dropWhile isPart).head?, isPart c = false := by
  intro c hc
  have hstop := List.head?_dropWhile_not isPart text
  rw [hc] at hstop
  exact hstop

/-! ## Texts that end solid -/

/-- The text has a last character, and it is no white space. -/
def EndsSolid (text : List Char) : Prop := ∃ front c, text = front ++ [c] ∧ isBlank c = false

theorem EndsSolid.append_left {text : List Char} (hsolid : EndsSolid text) (before : List Char) :
    EndsSolid (before ++ text) := by
  obtain ⟨front, c, rfl, hc⟩ := hsolid
  exact ⟨before ++ front, c, (List.append_assoc ..).symm, hc⟩

theorem EndsSolid.cons {text : List Char} (hsolid : EndsSolid text) (c : Char) :
    EndsSolid (c :: text) := hsolid.append_left [c]

theorem endsSolid_of_forall {text : List Char} (hsome : text ≠ [])
    (hblank : ∀ c ∈ text, isBlank c = false) : EndsSolid text :=
  ⟨text.dropLast, text.getLast hsome, (List.dropLast_append_getLast hsome).symm,
    hblank _ (List.getLast_mem hsome)⟩

theorem trimStart_cons {c : Char} (hc : isBlank c = false) (rest : List Char) :
    trimStart (c :: rest) = c :: rest := by
  rw [trimStart, List.dropWhile_cons_of_neg (by simp [hc])]

theorem EndsSolid.trimEnd_eq {text : List Char} (hsolid : EndsSolid text) :
    trimEnd text = text := by
  obtain ⟨front, c, rfl, hc⟩ := hsolid
  rw [trimEnd, List.reverse_append, List.reverse_singleton, List.singleton_append,
    List.dropWhile_cons_of_neg (by simp [hc]), List.reverse_cons, List.reverse_reverse]

theorem EndsSolid.trim_cons {c : Char} {rest : List Char} (hsolid : EndsSolid (c :: rest))
    (hc : isBlank c = false) : trim (c :: rest) = c :: rest := by
  rw [trim, trimStart_cons hc, hsolid.trimEnd_eq]

/-! ## What trimming leaves -/

/-- Nothing but white space is trimmed. -/
theorem exists_trim_eq (text : List Char) :
    ∃ lead trail, text = lead ++ (trim text ++ trail) ∧ (∀ c ∈ lead, isBlank c = true) ∧
      ∀ c ∈ trail, isBlank c = true := by
  have hstart := List.takeWhile_append_dropWhile (p := isBlank) (l := text)
  have hend := List.takeWhile_append_dropWhile (p := isBlank) (l := (trimStart text).reverse)
  refine ⟨text.takeWhile isBlank, ((trimStart text).reverse.takeWhile isBlank).reverse, ?_,
    List.all_eq_true.mp List.all_takeWhile, ?_⟩
  · rw [trim, trimEnd, ← List.reverse_append, hend, List.reverse_reverse, trimStart, hstart]
  · intro c hc
    exact List.all_eq_true.mp List.all_takeWhile c (List.mem_reverse.mp hc)

theorem isBlank_getLast?_trim (text : List Char) :
    ∀ c ∈ (trim text).getLast?, isBlank c = false := by
  intro c hc
  rw [trim, trimEnd, List.getLast?_reverse] at hc
  exact isPart_head?_dropWhile c hc

theorem isBlank_head?_trim (text : List Char) : ∀ c ∈ (trim text).head?, isBlank c = false := by
  intro c hc
  have hend := List.takeWhile_append_dropWhile (p := isBlank) (l := (trimStart text).reverse)
  have hsplit := congrArg List.reverse hend
  rw [List.reverse_append, List.reverse_reverse, ← trimEnd, ← trim] at hsplit
  have hhead : c ∈ (trimStart text).head? := by
    rw [← hsplit, List.head?_append, hc]
    rfl
  exact isPart_head?_dropWhile c hhead

theorem EndsSolid.of_getLast? {text : List Char} (hsome : text ≠ [])
    (hlast : ∀ c ∈ text.getLast?, isBlank c = false) : EndsSolid text :=
  ⟨text.dropLast, text.getLast hsome, (List.dropLast_append_getLast hsome).symm,
    hlast _ (List.getLast?_eq_getLast_of_ne_nil hsome)⟩

@[simp] theorem trim_trim (text : List Char) : trim (trim text) = trim text := by
  have hlast := isBlank_getLast?_trim text
  have hhead := isBlank_head?_trim text
  cases htrim : trim text with
  | nil => rfl
  | cons c rest =>
      rw [htrim] at hlast hhead
      exact (EndsSolid.of_getLast? (List.cons_ne_nil c rest) hlast).trim_cons (hhead c rfl)

/-- A line break is white space. -/
theorem isBlank_newline : ∀ c ∈ ['\n'], isBlank c = true := by
  rw [List.forall_mem_singleton]
  decide

/-- White space behind a text makes no difference. -/
theorem trim_append_blank {blank : List Char} (hblank : ∀ c ∈ blank, isBlank c = true)
    (text : List Char) : trim (text ++ blank) = trim text := by
  have hnone : ∀ {blank : List Char}, (∀ c ∈ blank, isBlank c = true) →
      blank.dropWhile isBlank = [] := fun h => List.dropWhile_eq_nil_iff.mpr h
  rw [trim, trimStart, List.dropWhile_append]
  split
  · rename_i hempty
    rw [hnone hblank, trim, trimStart, List.isEmpty_iff.mp hempty]
  · rw [trimEnd, List.reverse_append, List.dropWhile_append,
      hnone fun c hc => hblank c (List.mem_reverse.mp hc)]
    rfl

end Text

end MetricCatalog
