/-
# Printed JSON is read back

Both printed forms of a value are among the texts that write it, so a reader that
gets either of them is given the value that was printed.
-/

import MetricCatalog.Json.Decoder
import MetricCatalog.Proofs.Json.Spelling

namespace MetricCatalog

namespace Json

/-- A value whose printed form is JSON: its numbers are numerals of JSON, its keys are texts,
and it is whole. -/
inductive IsPrintable : Json → Prop
  | null : IsPrintable null
  | bool (value : Bool) : IsPrintable (bool value)
  | num {n : Numeral} (hn : n.IsPlain) : IsPrintable (num n)
  | str (text : String) : IsPrintable (str text)
  | arr {items : List Json} (hitems : ∀ item ∈ items, IsPrintable item) : IsPrintable (arr items)
  | record {fields : List (String × Json)} (hfields : ∀ field ∈ fields, IsPrintable field.2) :
      IsPrintable (record fields)

theorem isGap_nil : IsGap [] := nofun

theorem isGap_lineStart (level : Nat) : IsGap (lineStart level) := by
  intro c hc
  rcases List.mem_cons.mp hc with rfl | hspace
  · rfl
  · rw [List.eq_of_mem_replicate hspace]
    rfl

theorem spellsItems_compactItems {items : List Json} (hsome : items ≠ [])
    (hitems : ∀ item ∈ items, Spells item item.compactText) :
    SpellsItems items (compactItems items) := by
  induction items with
  | nil => exact absurd rfl hsome
  | cons item rest ih =>
      obtain ⟨hitem, hrest⟩ := List.forall_mem_cons.mp hitems
      cases rest with
      | nil => exact .last isGap_nil hitem isGap_nil
      | cons next rest => exact .cons isGap_nil hitem (ih (List.cons_ne_nil _ _) hrest)

theorem spellsFields_compactFields {fields : List (String × Json)} (hsome : fields ≠ [])
    (hfields : ∀ field ∈ fields, Spells field.2 field.2.compactText) :
    SpellsFields (fields.map fun field => (str field.1, field.2))
      (compactFields (fields.map fun field => (str field.1, field.2))) := by
  induction fields with
  | nil => exact absurd rfl hsome
  | cons field rest ih =>
      obtain ⟨hfield, hrest⟩ := List.forall_mem_cons.mp hfields
      cases rest with
      | nil =>
          have hspelled : SpellsFields [(str field.1, field.2)] _ :=
            .last isGap_nil isGap_nil hfield isGap_nil
          simpa [compactFields, compactText, scalarText] using hspelled
      | cons next rest =>
          have hspelled : SpellsFields ((str field.1, field.2) :: _) _ :=
            .cons isGap_nil isGap_nil hfield (ih (List.cons_ne_nil _ _) hrest)
          simpa [compactFields, compactText, scalarText] using hspelled

/-- The compact form of a value spells it. -/
theorem IsPrintable.spells_compactText {value : Json} (hvalue : value.IsPrintable) :
    Spells value value.compactText := by
  induction hvalue with
  | null => exact .null
  | bool value => exact .bool value
  | num hn => exact .num hn
  | str text => exact .str text
  | @arr items _ ih =>
      cases items with
      | nil => exact .emptyList
      | cons => exact .arr (spellsItems_compactItems (List.cons_ne_nil _ _) ih)
  | @record fields _ ih =>
      cases fields with
      | nil => exact .emptyObject
      | cons => exact .obj (spellsFields_compactFields (List.cons_ne_nil _ _) ih)

theorem spellsItems_prettyItems {level : Nat} {items : List Json} (hsome : items ≠ [])
    (hitems : ∀ item ∈ items, Spells item (item.prettyText (level + 1))) :
    SpellsItems items (prettyItems level items) := by
  induction items with
  | nil => exact absurd rfl hsome
  | cons item rest ih =>
      obtain ⟨hitem, hrest⟩ := List.forall_mem_cons.mp hitems
      cases rest with
      | nil =>
          have hspelled :=
            SpellsItems.last (isGap_lineStart (level + 1)) hitem (isGap_lineStart level)
          simpa [prettyItems] using hspelled
      | cons next rest =>
          have hspelled := SpellsItems.cons (isGap_lineStart (level + 1)) hitem
            (ih (List.cons_ne_nil _ _) hrest)
          simpa [prettyItems] using hspelled

theorem spellsFields_prettyFields {level : Nat} {fields : List (String × Json)}
    (hsome : fields ≠ [])
    (hfields : ∀ field ∈ fields, Spells field.2 (field.2.prettyText (level + 1))) :
    SpellsFields (fields.map fun field => (str field.1, field.2))
      (prettyFields level (fields.map fun field => (str field.1, field.2))) := by
  have hspace : IsGap [' '] := List.forall_mem_singleton.mpr (by decide)
  induction fields with
  | nil => exact absurd rfl hsome
  | cons field rest ih =>
      obtain ⟨hfield, hrest⟩ := List.forall_mem_cons.mp hfields
      cases rest with
      | nil =>
          have hspelled : SpellsFields [(str field.1, field.2)] _ :=
            .last (isGap_lineStart (level + 1)) hspace hfield (isGap_lineStart level)
          simpa [prettyFields, compactText, scalarText] using hspelled
      | cons next rest =>
          have hspelled : SpellsFields ((str field.1, field.2) :: _) _ :=
            .cons (isGap_lineStart (level + 1)) hspace hfield (ih (List.cons_ne_nil _ _) hrest)
          simpa [prettyFields, compactText, scalarText] using hspelled

/-- The form of a value with a line for every part spells it. -/
theorem IsPrintable.spells_prettyText {value : Json} (hvalue : value.IsPrintable)
    (level : Nat) : Spells value (value.prettyText level) := by
  induction hvalue generalizing level with
  | null => exact .null
  | bool value => exact .bool value
  | num hn => exact .num hn
  | str text => exact .str text
  | @arr items _ ih =>
      cases items with
      | nil => exact .emptyList
      | cons =>
          exact .arr (spellsItems_prettyItems (List.cons_ne_nil _ _) fun item hitem =>
            ih item hitem (level + 1))
  | @record fields _ ih =>
      cases fields with
      | nil => exact .emptyObject
      | cons =>
          exact .obj (spellsFields_prettyFields (List.cons_ne_nil _ _) fun field hfield =>
            ih field hfield (level + 1))

/-! ## Decoding what was printed -/

variable {α : Type} {read : Decoder α} {value : Json}

theorem decodeText_of_spells {text : List Char} (hvalue : Spells value text) :
    decodeText read (String.ofList text) = read value := by
  rw [decodeText, parse_of_spells hvalue]
  cases hread : read value <;> simp [hread, bind, Except.bind]

theorem decodeText_compact (hvalue : value.IsPrintable) :
    decodeText read value.compact = read value :=
  decodeText_of_spells hvalue.spells_compactText

theorem decodeText_pretty (hvalue : value.IsPrintable) :
    decodeText read value.pretty = read value :=
  decodeText_of_spells (hvalue.spells_prettyText 0)

end Json

end MetricCatalog
