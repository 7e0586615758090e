/-
# Records read back

What a reader makes of a record whose fields stand in the order of declaration,
built up field by field: if every field is read, the record is. The same for
values that may be missing, for lists, for choices and for maps.
-/

import MetricCatalog.Catalog.Codec
import MetricCatalog.Proofs.Json.Number
import MetricCatalog.Proofs.KeyMap

namespace MetricCatalog

/-! ## The fields of a record -/

namespace RecordReader

variable {α β : Type}

/-- The reader knows each of the fields and fills one set of slots to another with them. -/
inductive Fills (reader : RecordReader Json α) :
    List (String × Json) → reader.Slots → reader.Slots → Prop
  | nil (slots : reader.Slots) : Fills reader [] slots slots
  | cons {name : String} {value : Json} {fields : List (String × Json)}
      {slots next last : reader.Slots} (hfield : reader.fill? name value slots = some (.ok next))
      (hrest : Fills reader fields next last) : Fills reader ((name, value) :: fields) slots last

/-- From the fields, in this order, the reader makes the value. -/
def Reads (reader : RecordReader Json α) (fields : List (String × Json)) (value : α) : Prop :=
  ∃ last, Fills reader fields reader.empty last ∧ reader.finish last = .ok value

variable {name : String} {read : Json → Except DecodeError α} {absent : Option α}
  {value : α} {form : Json} {fields : List (String × Json)}

theorem Fills.fillFields {reader : RecordReader Json α} {slots last : reader.Slots}
    (hfills : Fills reader fields slots last) :
    Json.fillFields reader (fields.map fun field => (.str field.1, field.2)) slots = .ok last := by
  induction hfills with
  | nil slots => rfl
  | cons hfield _ ih =>
      simp only [List.map_cons, Json.fillFields, hfield, Except.bind]
      exact ih

theorem fill?_field (hread : read form = .ok value) :
    (field name read absent).fill? name form none = some (.ok (some value)) := by
  simp [field, hread, Except.map]

/-- A record of a single field. -/
theorem Reads.field (hread : read form = .ok value) :
    (RecordReader.field name read absent).Reads [(name, form)] value :=
  ⟨some value, .cons (fill?_field hread) (.nil _), rfl⟩

/-- Fields that the first field is not among are filled as if it were not there. -/
theorem Fills.behind {second : RecordReader Json β} {before after : second.Slots}
    (hfills : Fills second fields before after) (hname : ∀ field ∈ fields, field.1 ≠ name)
    (slot : Option α) :
    Fills (both (RecordReader.field name read absent) second) fields (slot, before)
      (slot, after) := by
  induction hfills with
  | nil => exact .nil _
  | cons hfield _ ih =>
      obtain ⟨hfirst, hrest⟩ := List.forall_mem_cons.mp hname
      refine .cons ?_ (ih hrest)
      simp only at hfirst
      simp [both, RecordReader.field, hfirst, hfield, Except.map]

/-- One field more in front. -/
theorem Reads.both {second : RecordReader Json β} {other : β} (hread : read form = .ok value)
    (hname : ∀ field ∈ fields, field.1 ≠ name) (hothers : second.Reads fields other) :
    (RecordReader.both (RecordReader.field name read absent) second).Reads
      ((name, form) :: fields) (value, other) := by
  obtain ⟨last, hfills, hfinish⟩ := hothers
  refine ⟨(some value, last), .cons ?_ (hfills.behind hname (some value)), ?_⟩
  · simp [RecordReader.both, RecordReader.field, hread, Except.map]
  · simp [RecordReader.both, RecordReader.field, hfinish, bind, Except.bind, pure, Except.pure]

theorem Fills.map {reader : RecordReader Json α} {before after : reader.Slots}
    (hfills : Fills reader fields before after) (build : α → β) :
    Fills (RecordReader.map build reader) fields before after := by
  induction hfills with
  | nil slots => exact .nil _
  | cons hfield _ ih => exact .cons hfield ih

theorem Reads.map {reader : RecordReader Json α} (hreads : reader.Reads fields value)
    (build : α → β) : (RecordReader.map build reader).Reads fields (build value) := by
  obtain ⟨last, hfills, hfinish⟩ := hreads
  exact ⟨last, hfills.map build, by simp [RecordReader.map, hfinish, Except.map]⟩

theorem Reads.readRecord {reader : RecordReader Json α} (hreads : reader.Reads fields value)
    (expected : String) : Json.readRecord expected reader (Json.record fields) = .ok value := by
  obtain ⟨last, hfills, hfinish⟩ := hreads
  simp [Json.readRecord, Json.record, hfills.fillFields, hfinish, bind, Except.bind]

end RecordReader

/-! ## The values of fields -/

namespace Json

variable {α β : Type} {read : Decoder α} {encode : α → Json}

theorem readNat_nat {n limit : Nat} (hlimit : n < limit) (hword : limit ≤ UInt64.size)
    (expected : String) : readNat expected limit (Json.nat n) = .ok n := by
  have hnumber := readNumber_ofNat (Nat.lt_of_lt_of_le hlimit hword)
  simp [readNat, Json.nat, hnumber, hlimit]

theorem readOption_ofOption {value : Option α} (hread : ∀ a ∈ value, read (encode a) = .ok a)
    (hsome : ∀ a, encode a ≠ .null) :
    readOption read (ofOption (value.map encode)) = .ok value := by
  cases value with
  | none => rfl
  | some a =>
      simp only [Option.map_some, ofOption, Option.getD_some, readOption]
      split
      · rename_i hnull
        exact absurd hnull (hsome a)
      · rw [hread a rfl]
        rfl

theorem readList_map {items : List α} (hread : ∀ item ∈ items, read (encode item) = .ok item) :
    readList read (.arr (items.map encode)) = .ok items := by
  simp only [readList]
  induction items with
  | nil => rfl
  | cons item rest ih =>
      obtain ⟨hitem, hrest⟩ := List.forall_mem_cons.mp hread
      simp [hitem, ih hrest, bind, Except.bind, pure, Except.pure]

theorem readVariant_str {known : List String}
    {choice? : String → Option (Option Json → Except DecodeError α)} {name : String} {value : α}
    (hchoice : choice? name = some (bareChoice value)) :
    readVariant known choice? (.str name) = .ok value := by
  simp [readVariant, hchoice, bareChoice]

theorem readVariant_record {known : List String}
    {choice? : String → Option (Option Json → Except DecodeError α)} {name kind : String}
    {form : Json} {value : α} (hchoice : choice? name = some (choiceOf kind read))
    (hread : read form = .ok value) :
    readVariant known choice? (record [(name, form)]) = .ok value := by
  simp [readVariant, record, hchoice, choiceOf, hread, bind, Except.bind]

/-- The fields of a map are put into it from the first to the last. -/
theorem readMap_record {empty : β} {insert : α → β → β}
    {readField : String → Json → Except DecodeError α} {key : α → String} {entries : List α}
    (hread : ∀ entry ∈ entries, readField (key entry) (encode entry) = .ok entry) :
    readMap empty insert readField (record (entries.map fun entry => (key entry, encode entry))) =
      .ok (entries.foldl (fun map entry => insert entry map) empty) := by
  simp only [readMap, record, List.map_map]
  induction entries generalizing empty with
  | nil => rfl
  | cons entry rest ih =>
      obtain ⟨hentry, hrest⟩ := List.forall_mem_cons.mp hread
      simp only [List.map_cons, List.foldlM_cons, Function.comp, hentry, Except.map, bind,
        Except.bind]
      exact ih hrest

end Json

/-! ## Maps with keys in order -/

theorem Codec.readKeyMap_ofEntries {κ α : Type} [KeyOrder κ] (key : κ → String)
    {readKey : String → Except DecodeError κ} (encode : α → Json) {read : Json.Decoder α}
    (map : KeyMap κ α) (hkey : ∀ entry ∈ map.entries, readKey (key entry.1) = .ok entry.1)
    (hvalue : ∀ entry ∈ map.entries, read (encode entry.2) = .ok entry.2) :
    readKeyMap readKey read (ofEntries (key ·.1) (encode ·.2) map.entries) = .ok map := by
  rw [readKeyMap, ofEntries]
  refine (Json.readMap_record fun entry hentry => ?_).trans (congrArg Except.ok map.ofList_entries)
  simp [hkey entry hentry, hvalue entry hentry, bind, Except.bind, pure, Except.pure]

end MetricCatalog
