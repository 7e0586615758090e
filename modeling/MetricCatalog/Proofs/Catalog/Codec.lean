/-
# Persisted records read back

Every record has a form that is printed as JSON, and from the form its reader
makes the record again. So a catalog that has been written is the catalog that is
read, and a change is the same change after its text.
-/

import MetricCatalog.Catalog.Storage
import MetricCatalog.Proofs.Catalog.Writing
import MetricCatalog.Proofs.Json.Printing
import MetricCatalog.Proofs.Json.Record
import MetricCatalog.Proofs.Time.Timestamp
import MetricCatalog.Proofs.Uuid

namespace MetricCatalog

open Codec Json

/-! ## What can be persisted -/

/-- The text of the number is read as the same number. -/
def Double.ReadsBack (x : Double) : Prop := readDouble (ofDouble x) = .ok x

/-- What is not finite has no text that is a number. -/
theorem Double.ReadsBack.isFinite {x : Double} (hx : x.ReadsBack) : x.isFinite = true := by
  by_contra hinfinite
  rw [ReadsBack, ofDouble, if_neg hinfinite] at hx
  cases hx

/-- The instants of the database have years of four digits. -/
def Database.IsPersistable (database : Database) : Prop :=
  database.createdAt.IsOrdinary ∧ database.updatedAt.IsOrdinary

/-- The instants of the node have years of four digits. -/
def Node.IsPersistable (node : Node) : Prop :=
  node.createdAt.IsOrdinary ∧ node.updatedAt.IsOrdinary

/-- The instants of the query have years of four digits, and its progress is a number whose text
stands for it. -/
structure Query.IsPersistable (query : Query) : Prop where
  scheduled : ∀ instant ∈ query.scheduled, instant.IsOrdinary
  started : ∀ instant ∈ query.started, instant.IsOrdinary
  finished : ∀ instant ∈ query.finished, instant.IsOrdinary
  progress : query.progress.ReadsBack

/-- Every record of the catalog can be persisted. -/
structure Catalog.IsPersistable (catalog : Catalog) : Prop where
  databases : ∀ database ∈ catalog.databases.values, database.IsPersistable
  nodes : ∀ node ∈ catalog.nodes.values, node.IsPersistable
  queries : ∀ query ∈ catalog.queries.values, query.IsPersistable

/-- The record in the change can be persisted. -/
def Mutation.IsPersistable : Mutation → Prop
  | createDatabase database => database.IsPersistable
  | createNode node => node.IsPersistable
  | putQuery query => query.IsPersistable
  | dropDatabase _ | dropNode _ => True

namespace Codec

/-! ## The forms are printed as JSON -/

@[simp] theorem isPrintable_str (text : String) : (Json.str text).IsPrintable := .str text

@[simp] theorem isPrintable_nat (n : Nat) : (Json.nat n).IsPrintable :=
  .num (Numeral.isPlain_ofNat n)

theorem isPrintable_ofOption {value : Option Json} (hvalue : ∀ form ∈ value, form.IsPrintable) :
    (Json.ofOption value).IsPrintable := by
  cases value with
  | none => exact .null
  | some form => exact hvalue form rfl

@[simp] theorem isPrintable_ofText? (text : Option String) : (ofText? text).IsPrintable :=
  isPrintable_ofOption fun form hform => by
    obtain ⟨content, _, rfl⟩ := Option.map_eq_some_iff.mp hform
    exact .str content

@[simp] theorem isPrintable_ofInstant? (instant : Option Instant) :
    (ofInstant? instant).IsPrintable :=
  isPrintable_ofOption fun form hform => by
    obtain ⟨moment, _, rfl⟩ := Option.map_eq_some_iff.mp hform
    exact .str moment.format

@[simp] theorem isPrintable_ofDouble (x : Double) : (ofDouble x).IsPrintable := by
  unfold ofDouble
  split
  · exact .num (Layout.isPlain_numeral (Or.inr rfl) x)
  · exact .null

@[simp] theorem isPrintable_ofUuid (id : Uuid) : (ofUuid id).IsPrintable := .str id.format

@[simp] theorem isPrintable_ofInstant (instant : Instant) : (ofInstant instant).IsPrintable :=
  .str instant.format

/-- A list whose items are printed. -/
theorem isPrintable_map {α : Type} {encode : α → Json} (hencode : ∀ a, (encode a).IsPrintable)
    (items : List α) : (Json.arr (items.map encode)).IsPrintable :=
  .arr fun form hform => by
    obtain ⟨item, _, rfl⟩ := List.mem_map.mp hform
    exact hencode item

@[simp] theorem isPrintable_ofDatabase (database : Database) : (ofDatabase database).IsPrintable :=
  .record (by simp)

@[simp] theorem isPrintable_ofRepresentation (representation : Representation) :
    (ofRepresentation representation).IsPrintable := .record (by simp)

@[simp] theorem isPrintable_ofColumn (column : Column) : (ofColumn column).IsPrintable :=
  .record (by simp)

@[simp] theorem isPrintable_ofNode (node : Node) : (ofNode node).IsPrintable :=
  .record (by simp [isPrintable_map])

theorem isPrintable_queryFields (query : Query) :
    ∀ field ∈ queryFields query, field.2.IsPrintable := by
  simp [queryFields]

@[simp] theorem isPrintable_ofQuery (query : Query) : (ofQuery query).IsPrintable :=
  .record (isPrintable_queryFields query)

theorem isPrintable_ofEntries {α : Type} {key : α → String} {encode : α → Json}
    (hencode : ∀ a, (encode a).IsPrintable) (entries : List α) :
    (ofEntries key encode entries).IsPrintable :=
  .record fun field hfield => by
    obtain ⟨entry, _, rfl⟩ := List.mem_map.mp hfield
    exact hencode entry

theorem isPrintable_ofCatalog (catalog : Catalog) : (ofCatalog catalog).IsPrintable :=
  .record (by simp [isPrintable_ofEntries])

theorem isPrintable_ofMutation (mutation : Mutation) : (ofMutation mutation).IsPrintable := by
  cases mutation <;> exact .record (by simp [IsPrintable.record])

/-! ## The forms are read -/

theorem readString_str (text : String) : readString (.str text) = .ok text := rfl

theorem readUuid_ofUuid (id : Uuid) : readUuid (ofUuid id) = .ok id := by
  simp [readUuid, ofUuid, readText, Uuid.parse?_format]

theorem readInstant_ofInstant {instant : Instant} (hinstant : instant.IsOrdinary) :
    readInstant (ofInstant instant) = .ok instant := by
  simp [readInstant, ofInstant, readText, Instant.parse?_format hinstant]

theorem readOption_ofText? (text : Option String) :
    readOption readString (ofText? text) = .ok text :=
  readOption_ofOption (fun content _ => readString_str content) nofun

theorem readOption_ofInstant? {instant : Option Instant}
    (hinstant : ∀ moment ∈ instant, moment.IsOrdinary) :
    readOption readInstant (ofInstant? instant) = .ok instant :=
  readOption_ofOption (fun moment hmoment => readInstant_ofInstant (hinstant moment hmoment)) nofun

theorem readWord_nat (n : UInt64) : readWord (Json.nat n.toNat) = .ok n := by
  rw [readWord, readNat_nat n.toNat_lt (Nat.le_refl _)]
  exact congrArg Except.ok (UInt64.ofNat_toNat)

theorem readColumnType_tag (type : ColumnType) :
    readColumnType (.str type.tag) = .ok type :=
  readVariant_str (by rw [type.ofTag?_tag, Option.map_some])

theorem queryState?_name (state : QueryState) : queryState? state.name = some state := by
  cases state <;> rfl

theorem readQueryState_name (state : QueryState) :
    readQueryState (.str state.name) = .ok state :=
  readVariant_str (by rw [queryState?_name, Option.map_some])

theorem readDatabase_ofDatabase {database : Database} (hdatabase : database.IsPersistable) :
    readDatabase (ofDatabase database) = .ok database :=
  ((RecordReader.Reads.both (readUuid_ofUuid database.id) (by simp)
    (.both (readString_str database.name) (by simp)
    (.both (readString_str database.uri) (by simp)
    (.both (readOption_ofText? database.description) (by simp)
    (.both (readInstant_ofInstant hdatabase.1) (by simp)
      (.field (readInstant_ofInstant hdatabase.2))))))).map _).readRecord _

theorem readRepresentation_ofRepresentation (representation : Representation) :
    readRepresentation (ofRepresentation representation) = .ok representation :=
  ((RecordReader.Reads.both (readString_str representation.database) (by simp)
    (.both (readOption_ofText? representation.schema) (by simp)
      (.field (readString_str representation.table)))).map _).readRecord _

theorem reads_ofColumn (column : Column) :
    columnReader.Reads [("name", .str column.name), ("type", .str column.type.tag)] column :=
  (RecordReader.Reads.both (readString_str column.name) (by simp)
    (.field (readColumnType_tag column.type))).map _

theorem readNode_ofNode {node : Node} (hnode : node.IsPersistable) :
    readNode (ofNode node) = .ok node :=
  ((RecordReader.Reads.both (readUuid_ofUuid node.id) (by simp)
    (.both (readString_str node.name) (by simp)
    (.both (readOption_ofText? node.description) (by simp)
    (.both (readOption_ofText? node.expression) (by simp)
    (.both (readList_map fun representation _ =>
      readRepresentation_ofRepresentation representation) (by simp)
    (.both (readList_map fun column _ => (reads_ofColumn column).readRecord _) (by simp)
    (.both (readInstant_ofInstant hnode.1) (by simp)
      (.field (readInstant_ofInstant hnode.2))))))))).map _).readRecord _

/-- The fields of a query, whatever reads the name of its state. -/
theorem reads_queryFields {query : Query} (hquery : query.IsPersistable)
    {readState : Decoder QueryState}
    (hstate : readState (.str query.state.name) = .ok query.state) :
    (queryReader readState).Reads (queryFields query) query :=
  (RecordReader.Reads.both (readUuid_ofUuid query.id) (by simp)
    (.both (readString_str query.database) (by simp)
    (.both (readOption_ofText? query.catalog) (by simp)
    (.both (readString_str query.submittedQuery) (by simp)
    (.both (readOption_ofText? query.executedQuery) (by simp)
    (.both hstate (by simp)
    (.both (readOption_ofInstant? hquery.scheduled) (by simp)
    (.both (readOption_ofInstant? hquery.started) (by simp)
    (.both (readOption_ofInstant? hquery.finished) (by simp)
      (.field hquery.progress)))))))))).map _

theorem readQuery_ofQuery {query : Query} (hquery : query.IsPersistable) :
    readQuery (ofQuery query) = .ok query :=
  (reads_queryFields hquery (readQueryState_name query.state)).readRecord _

theorem readCatalog_ofCatalog {catalog : Catalog} (hcatalog : catalog.IsPersistable) :
    readCatalog (ofCatalog catalog) = .ok catalog := by
  have hdatabases : readKeyMap .ok readDatabase
      (ofEntries (·.1) (ofDatabase ·.2) catalog.databases.entries) = .ok catalog.databases :=
    readKeyMap_ofEntries id ofDatabase catalog.databases (fun _ _ => rfl) fun entry hentry =>
      readDatabase_ofDatabase (hcatalog.databases _ (List.mem_map_of_mem hentry))
  have hnodes : readKeyMap .ok readNode
      (ofEntries (·.1) (ofNode ·.2) catalog.nodes.entries) = .ok catalog.nodes :=
    readKeyMap_ofEntries id ofNode catalog.nodes (fun _ _ => rfl) fun entry hentry =>
      readNode_ofNode (hcatalog.nodes _ (List.mem_map_of_mem hentry))
  have hqueries : readKeyMap readUuidKey readQuery
      (ofEntries (·.1.format) (ofQuery ·.2) catalog.queries.entries) = .ok catalog.queries :=
    readKeyMap_ofEntries Uuid.format ofQuery catalog.queries
      (fun entry _ => by rw [readUuidKey, Uuid.parse?_format]) fun entry hentry =>
      readQuery_ofQuery (hcatalog.queries _ (List.mem_map_of_mem hentry))
  exact ((RecordReader.Reads.both (readWord_nat catalog.version) (by simp)
    (.both hdatabases (by simp) (.both hnodes (by simp) (.field hqueries)))).map _).readRecord _

theorem readDrop_record (name variant : String) :
    readDrop variant (Json.record [("name", .str name)]) = .ok name :=
  (RecordReader.Reads.field (readString_str name)).readRecord _

theorem readMutation_ofMutation {mutation : Mutation} (hmutation : mutation.IsPersistable) :
    readMutation (ofMutation mutation) = .ok mutation := by
  cases mutation with
  | createDatabase database =>
      exact readVariant_record rfl (by rw [readDatabase_ofDatabase hmutation]; rfl)
  | dropDatabase name => exact readVariant_record rfl (by rw [readDrop_record]; rfl)
  | createNode node => exact readVariant_record rfl (by rw [readNode_ofNode hmutation]; rfl)
  | dropNode name => exact readVariant_record rfl (by rw [readDrop_record]; rfl)
  | putQuery query => exact readVariant_record rfl (by rw [readQuery_ofQuery hmutation]; rfl)

end Codec

/-! ## Catalogs in files -/

namespace Storage

variable {storage : Storage} {catalog : Catalog} {now : Instant} {tree next : FileTree}

theorem read_text_of_write (hwrite : storage.write now tree catalog = (.ok (), next)) :
    next.read storage.path = .ok (.text (encode catalog)) := by
  have hperform : FileStep.performAll now tree (storage.writeSteps catalog) = (.ok (), next) := by
    unfold write at hwrite
    rcases hsteps : FileStep.performAll now tree (storage.writeSteps catalog) with ⟨result, after⟩
    rw [hsteps] at hwrite
    cases result with
    | error error => cases hwrite
    | ok => exact congrArg (Except.ok (), ·) (congrArg Prod.snd hwrite)
  exact (storage.phase_writeSteps catalog).read_of_performAll
    (fun hlast => absurd hlast (storage.writeSteps_ne_rename catalog))
    (storage.writeSteps_ne_nil catalog) hperform

theorem decode_encode (hcatalog : catalog.IsPersistable) :
    decode (.text (encode catalog)) = .ok catalog := by
  rw [decode, textOf, encode, decodeText_pretty (isPrintable_ofCatalog catalog),
    readCatalog_ofCatalog hcatalog]
  rfl

theorem read_of_write (hcatalog : catalog.IsPersistable)
    (hwrite : storage.write now tree catalog = (.ok (), next)) :
    read next storage.path = .ok (some catalog) := by
  rw [read, read_text_of_write hwrite]
  simp only
  rw [decode_encode hcatalog]
  rfl

end Storage

/-- What is persisted is read back as it was: a catalog from the file that it was written to, with
every record under its key, and a change from either form of its text. -/
theorem persisted_reads_back {catalog : Catalog} {mutation : Mutation}
    (hcatalog : catalog.IsPersistable) (hmutation : mutation.IsPersistable) :
    Storage.decode (.text (Storage.encode catalog)) = .ok catalog ∧
      (∀ (storage : Storage) (now : Instant) (tree next : FileTree),
        storage.write now tree catalog = (.ok (), next) →
          Storage.read next storage.path = .ok (some catalog)) ∧
      decodeText readMutation (ofMutation mutation).compact = .ok mutation ∧
      decodeText readMutation (ofMutation mutation).pretty = .ok mutation := by
  have hprintable := isPrintable_ofMutation mutation
  refine ⟨Storage.decode_encode hcatalog, fun storage now tree next => ?_, ?_, ?_⟩
  · exact Storage.read_of_write hcatalog
  · rw [decodeText_compact hprintable, readMutation_ofMutation hmutation]
  · rw [decodeText_pretty hprintable, readMutation_ofMutation hmutation]

/-! ## A catalog with awkward contents -/

/-- The first moment of the year 0, a moment of a leap second, and the last moment of the year
9999. -/
def edgeInstants : Instant × Instant × Instant :=
  (⟨-62167219200, 0⟩, ⟨1483228799, 1500000000⟩, ⟨253402300799, 999999999⟩)

/-- A database whose name and description need escapes. -/
def awkwardDatabase : Database where
  id := .ofNat 7
  name := "a \"quoted\"\\ name"
  uri := "sqlite:///x"
  description := some "two\nlines, \u0001 and ü"
  createdAt := edgeInstants.1
  updatedAt := edgeInstants.2.1

/-- A node with a representation, columns of two types and no expression. -/
def awkwardNode : Node where
  id := .ofNat (Nat.pow 2 128 - 1)
  name := ""
  description := none
  expression := none
  representations := [⟨"warehouse", none, "t"⟩, ⟨"other", some "public", "t\t2"⟩]
  columns := [⟨"x", .decimal⟩, ⟨"x", .int⟩]
  createdAt := edgeInstants.1
  updatedAt := edgeInstants.2.2

/-- A query that is half done. -/
def halfQuery : Query where
  id := .ofNat 3
  database := "warehouse"
  catalog := none
  submittedQuery := "SELECT 1"
  executedQuery := some "SELECT 1;"
  state := .scheduled
  scheduled := some ⟨1700000000, 120000⟩
  started := some ⟨1700000000, 123456789⟩
  finished := none
  progress := ⟨0x3FE0000000000000⟩

theorem isPersistable_halfQuery : halfQuery.IsPersistable where
  scheduled := by
    rintro _ ⟨⟩
    exact ⟨by decide, by decide, by decide⟩
  started := by
    rintro _ ⟨⟩
    exact ⟨by decide, by decide, by decide⟩
  finished := nofun
  progress := by
    unfold Double.ReadsBack
    decide +kernel

/-- A catalog with one record of each kind, at the last version. -/
def awkwardCatalog : Catalog where
  version := 18446744073709551615
  databases := .ofList [(awkwardDatabase.name, awkwardDatabase)]
  nodes := .ofList [(awkwardNode.name, awkwardNode)]
  queries := .ofList [(halfQuery.id, halfQuery)]

theorem persisted_reads_back_awkward :
    (awkwardCatalog.IsPersistable ∧ (Mutation.putQuery halfQuery).IsPersistable) ∧
      Storage.decode (.text (Storage.encode awkwardCatalog)) = .ok awkwardCatalog ∧
      decodeText readMutation (ofMutation (.putQuery halfQuery)).compact =
        .ok (.putQuery halfQuery) := by
  have hfirst : edgeInstants.1.IsOrdinary := ⟨by decide, by decide, by decide⟩
  have hleap : edgeInstants.2.1.IsOrdinary := ⟨by decide, by decide, by decide⟩
  have hlast : edgeInstants.2.2.IsOrdinary := ⟨by decide, by decide, by decide⟩
  have hcatalog : awkwardCatalog.IsPersistable :=
    { databases := by
        intro database hdatabase
        rw [List.mem_singleton.mp hdatabase]
        exact ⟨hfirst, hleap⟩
      nodes := by
        intro node hnode
        rw [List.mem_singleton.mp hnode]
        exact ⟨hfirst, hlast⟩
      queries := by
        intro query hmem
        rw [List.mem_singleton.mp hmem]
        exact isPersistable_halfQuery }
  have hmutation : (Mutation.putQuery halfQuery).IsPersistable := isPersistable_halfQuery
  have hback := persisted_reads_back hcatalog hmutation
  exact ⟨⟨hcatalog, hmutation⟩, hback.1, hback.2.2.1⟩

end MetricCatalog
