/-
# From places back to offsets

Reading a piece of a text leads to a place, and the table of the starts of lines
takes this place back to the number of bytes that were read. So a text is cut at
places without cutting through a character.
-/

import Mathlib.Data.List.Induction
import MetricCatalog.Text.Location

namespace MetricCatalog

namespace Text

/-! ## Counting bytes -/

@[simp] theorem byteLength_nil : byteLength [] = 0 := rfl

@[simp] theorem byteLength_cons (c : Char) (text : List Char) :
    byteLength (c :: text) = c.utf8Size + byteLength text := rfl

@[simp] theorem byteLength_append (first second : List Char) :
    byteLength (first ++ second) = byteLength first + byteLength second := by
  induction first with
  | nil => simp
  | cons c rest ih => simp [ih, Nat.add_assoc]

/-- The bytes that are counted are those of the encoded text. -/
theorem byteLength_eq (text : List Char) : byteLength text = (String.ofList text).utf8ByteSize := by
  induction text with
  | nil => rfl
  | cons c rest ih =>
      rw [byteLength_cons, ih, String.ofList_cons, String.utf8ByteSize_append,
        String.utf8ByteSize_singleton]

theorem byteLength_toList (text : String) : byteLength text.toList = text.utf8ByteSize := by
  rw [byteLength_eq, String.ofList_toList]

/-- A text can be cut behind each of its pieces. -/
theorem isValid_byteLength {text : String} {front back : List Char}
    (htext : text.toList = front ++ back) :
    (⟨byteLength front⟩ : String.Pos.Raw).IsValid text := by
  rw [String.Pos.Raw.isValid_iff_exists_append]
  refine ⟨String.ofList front, String.ofList back, ?_, ?_⟩
  · rw [← String.ofList_append, ← htext, String.ofList_toList]
  · rw [byteLength_eq]
    rfl

@[simp] theorem dropBytes_zero (text : List Char) : dropBytes 0 text = text := by
  rw [dropBytes]

@[simp] theorem takeBytes_zero (text : List Char) : takeBytes 0 text = [] := by
  rw [takeBytes]

theorem dropBytes_cons (c : Char) (n : Nat) (rest : List Char) :
    dropBytes (c.utf8Size + n) (c :: rest) = dropBytes n rest := by
  have hpos := c.utf8Size_pos
  rw [dropBytes, Nat.add_sub_cancel_left]
  omega

theorem takeBytes_cons (c : Char) (n : Nat) (rest : List Char) :
    takeBytes (c.utf8Size + n) (c :: rest) = c :: takeBytes n rest := by
  have hpos := c.utf8Size_pos
  rw [takeBytes, Nat.add_sub_cancel_left]
  omega

theorem dropBytes_byteLength (before after : List Char) :
    dropBytes (byteLength before) (before ++ after) = after := by
  induction before with
  | nil => simp
  | cons c rest ih => rw [byteLength_cons, List.cons_append, dropBytes_cons, ih]

theorem takeBytes_byteLength (before after : List Char) :
    takeBytes (byteLength before) (before ++ after) = before := by
  induction before with
  | nil => simp
  | cons c rest ih => rw [byteLength_cons, List.cons_append, takeBytes_cons, ih]

/-- The bytes between the ends of two pieces are those of the text between them. -/
theorem sliceBytes_byteLength (before piece after : List Char) :
    sliceBytes (before ++ (piece ++ after)) (byteLength before)
      (byteLength (before ++ piece)) = piece := by
  rw [sliceBytes, dropBytes_byteLength, byteLength_append, Nat.add_sub_cancel_left,
    takeBytes_byteLength]

/-! ## Lines -/

theorem lineStartsFrom_append (offset : Nat) (first second : List Char) :
    lineStartsFrom offset (first ++ second) =
      lineStartsFrom offset first ++ lineStartsFrom (offset + byteLength first) second := by
  induction first generalizing offset with
  | nil => rfl
  | cons c rest ih =>
      by_cases hline : c = '\n' <;> simp [lineStartsFrom, hline, ih, Nat.add_assoc]

@[simp] theorem length_lineStartsFrom (offset : Nat) (text : List Char) :
    (lineStartsFrom offset text).length = text.count '\n' := by
  induction text generalizing offset with
  | nil => rfl
  | cons c rest ih => by_cases hline : c = '\n' <;> simp [lineStartsFrom, hline, ih]

namespace Location

@[simp] theorem advanceBy_nil (location : Location) : location.advanceBy [] = location := rfl

theorem advanceBy_append (location : Location) (first second : List Char) :
    location.advanceBy (first ++ second) = (location.advanceBy first).advanceBy second :=
  List.foldl_append

theorem line_advanceBy (location : Location) (text : List Char) :
    (location.advanceBy text).line = location.line + text.count '\n' := by
  induction text generalizing location with
  | nil => rfl
  | cons c rest ih =>
      rw [advanceBy, List.foldl_cons, ← advanceBy, ih]
      by_cases hline : c = '\n'
      · simp only [advance, hline, if_pos, List.count_cons_self]
        omega
      · simp [advance, hline]

end Location

/-- The place that a text leads to is in the last of its lines. The induction takes the text from
its end, where a line feed starts a line that is still empty. -/
theorem exists_lastLine (before : List Char) :
    ∃ earlier line, before = earlier ++ line ∧
      (Location.start.advanceBy before).column = line.length + 1 ∧
      ∀ after, (lineStarts (before ++ after))[before.count '\n']? = some (byteLength earlier) := by
  induction before using List.reverseRecOn with
  | nil => exact ⟨[], [], rfl, rfl, fun _ => rfl⟩
  | append_singleton before c ih =>
      obtain ⟨earlier, line, hbefore, hcolumn, hstart⟩ := ih
      rw [Location.advanceBy_append]
      by_cases hline : c = '\n'
      · refine ⟨before ++ [c], [], (List.append_nil _).symm, ?_, fun after => ?_⟩
        · simp [Location.advanceBy, Location.advance, hline]
        · rw [lineStarts, List.append_assoc, lineStartsFrom_append, hline]
          simp [lineStartsFrom]
      · refine ⟨earlier, line ++ [c], by rw [hbefore, List.append_assoc], ?_, fun after => ?_⟩
        · simpa [Location.advanceBy, Location.advance, hline] using hcolumn
        · rw [List.append_assoc, List.count_append, List.count_singleton]
          simpa [hline] using hstart ([c] ++ after)

/-- The place that a piece at the start of a text leads to has the offset of its end. -/
theorem offsetOf_advanceBy_start (before after : List Char) :
    offsetOf (lineStarts (before ++ after)) (before ++ after) (Location.start.advanceBy before) =
      byteLength before := by
  obtain ⟨earlier, line, hbefore, hcolumn, hstart⟩ := exists_lastLine before
  have hline : (Location.start.advanceBy before).line = before.count '\n' + 1 := by
    rw [Location.line_advanceBy, Nat.add_comm]
    rfl
  rw [offsetOf, hline, Nat.add_sub_cancel, hstart, hcolumn, Nat.add_sub_cancel]
  simp only
  have hrest : dropBytes (byteLength earlier) (before ++ after) = line ++ after := by
    rw [hbefore, List.append_assoc, dropBytes_byteLength]
  rw [hrest, List.take_left, hbefore]
  split
  · rw [byteLength_append]
  · rename_i hshort
    have hafter : after = [] := by
      rw [List.length_append] at hshort
      exact List.length_eq_zero_iff.mp (by omega)
    rw [hafter, List.append_nil]

end Text

end MetricCatalog
