/-
# Entries

For one database or one node of a catalog only those changes count that make or
drop an entry of its kind and name. So what a log does to an entry can be read
off these changes, whatever else there is in the log.
-/

import MetricCatalog.Definition.Name
import MetricCatalog.Proofs.Catalog.Change
import MetricCatalog.Proofs.KeyMap
import MetricCatalog.Catalog.Session

namespace MetricCatalog

/-- What a catalog keeps of a definition. -/
inductive Entry
  | database (database : Database)
  | node (node : Node)

namespace Entry

def kind : Entry → DefinitionKind
  | .database _ => .database
  | .node _ => .node

def name : Entry → String
  | .database made => made.name
  | .node made => made.name

/-- When the entry was made. -/
def updatedAt : Entry → Instant
  | .database made => made.updatedAt
  | .node made => made.updatedAt

/-- The change that makes the entry. -/
def create : Entry → Mutation
  | .database made => .createDatabase made
  | .node made => .createNode made

end Entry

/-- The change that drops the entry of a kind and a name. -/
def DefinitionKind.drop : DefinitionKind → String → Mutation
  | database, name => .dropDatabase name
  | node, name => .dropNode name

/-- The entry of a kind and a name. -/
def Catalog.entryOf? (catalog : Catalog) : DefinitionKind → String → Option Entry
  | .database, name => (catalog.databases.find? name).map .database
  | .node, name => (catalog.nodes.find? name).map .node

/-- What a change makes of the entry of a kind and a name, if it is about it. -/
def Mutation.effectOn (mutation : Mutation) (kind : DefinitionKind) (name : String) :
    Option (Option Entry) :=
  match mutation with
  | createDatabase database =>
      if kind = .database ∧ name = database.name then some (some (.database database)) else none
  | dropDatabase dropped => if kind = .database ∧ name = dropped then some none else none
  | createNode node => if kind = .node ∧ name = node.name then some (some (.node node)) else none
  | dropNode dropped => if kind = .node ∧ name = dropped then some none else none
  | putQuery _ => none

/-- The entry of a kind and a name after a log. -/
def Entry.after (kind : DefinitionKind) (name : String) (log : List Mutation)
    (entry : Option Entry) : Option Entry :=
  log.foldl (fun entry mutation => (mutation.effectOn kind name).getD entry) entry

variable {catalog next : Catalog} {mutation : Mutation} {log : List Mutation}
  {kind : DefinitionKind} {name : String}

theorem Entry.effectOn_create (entry : Entry) :
    entry.create.effectOn kind name =
      if kind = entry.kind ∧ name = entry.name then some (some entry) else none := by
  cases entry <;> rfl

theorem DefinitionKind.effectOn_drop (dropped : DefinitionKind) (other : String) :
    (dropped.drop other).effectOn kind name =
      if kind = dropped ∧ name = other then some none else none := by
  cases dropped <;> rfl

theorem Entry.after_append (first second : List Mutation) (entry : Option Entry) :
    after kind name (first ++ second) entry =
      after kind name second (after kind name first entry) :=
  List.foldl_append

theorem Entry.after_of_none {entry : Option Entry}
    (hnone : ∀ mutation ∈ log, mutation.effectOn kind name = none) :
    after kind name log entry = entry := by
  induction log with
  | nil => rfl
  | cons mutation rest ih =>
      rw [after, List.foldl_cons, hnone mutation List.mem_cons_self]
      exact ih fun later hlater => hnone later (List.mem_cons_of_mem _ hlater)

/-- By induction on the log: if it has to do with an entry, then it does not matter what there was
before. -/
theorem Entry.after_eq_or (log : List Mutation) :
    (∀ mutation ∈ log, mutation.effectOn kind name = none) ∨
      ∀ first second, after kind name log first = after kind name log second := by
  induction log with
  | nil => exact Or.inl (by simp)
  | cons mutation rest ih =>
      rcases ih with hnone | hsame
      · cases heffect : mutation.effectOn kind name with
        | none => exact Or.inl (List.forall_mem_cons.mpr ⟨heffect, hnone⟩)
        | some effect =>
            refine Or.inr fun first second => ?_
            rw [after, after, List.foldl_cons, List.foldl_cons, heffect]
            rfl
      · exact Or.inr fun first second => hsame _ _

/-- By induction on the log: an entry was there before, or a change has made it. -/
theorem Entry.after_cases {before : Option Entry} {entry : Entry}
    (hafter : after kind name log before = some entry) :
    before = some entry ∨ ∃ mutation ∈ log, mutation.effectOn kind name = some (some entry) := by
  induction log generalizing before with
  | nil => exact Or.inl hafter
  | cons mutation rest ih =>
      rcases ih hafter with hmiddle | ⟨later, hlater, heffect⟩
      · change (mutation.effectOn kind name).getD before = some entry at hmiddle
        cases heffect : mutation.effectOn kind name with
        | none =>
            rw [heffect] at hmiddle
            exact Or.inl hmiddle
        | some effect =>
            rw [heffect] at hmiddle
            refine Or.inr ⟨mutation, List.mem_cons_self, ?_⟩
            rw [heffect]
            exact congrArg some hmiddle
      · exact Or.inr ⟨later, List.mem_cons_of_mem _ hlater, heffect⟩

/-- A change does to an entry what it makes of it, and otherwise leaves it. -/
theorem Mutation.entryOf?_apply (happly : mutation.apply catalog = .ok next) :
    next.entryOf? kind name = (mutation.effectOn kind name).getD (catalog.entryOf? kind name) := by
  cases mutation with
  | createDatabase database =>
      rw [apply] at happly
      split at happly
      · cases happly
      · cases happly
        cases kind with
        | node => rfl
        | database =>
            simp only [Catalog.entryOf?, effectOn, KeyMap.find?_insert, true_and]
            split <;> rfl
  | dropDatabase dropped =>
      rw [apply] at happly
      split at happly
      · cases happly
        cases kind with
        | node => rfl
        | database =>
            simp only [Catalog.entryOf?, effectOn, KeyMap.find?_erase, true_and]
            split <;> rfl
      · cases happly
  | createNode node =>
      rw [apply] at happly
      split at happly
      · cases happly
      · cases happly
        cases kind with
        | database => rfl
        | node =>
            simp only [Catalog.entryOf?, effectOn, KeyMap.find?_insert, true_and]
            split <;> rfl
  | dropNode dropped =>
      rw [apply] at happly
      split at happly
      · cases happly
        cases kind with
        | database => rfl
        | node =>
            simp only [Catalog.entryOf?, effectOn, KeyMap.find?_erase, true_and]
            split <;> rfl
      · cases happly
  | putQuery query =>
      cases happly
      cases kind <;> rfl

namespace Catalog

theorem entryOf?_withVersion (catalog : Catalog) (version : UInt64) :
    (catalog.withVersion version).entryOf? kind name = catalog.entryOf? kind name := by
  cases kind <;> rfl

/-- By induction on the log: what it does to an entry does not depend on the other ones. -/
theorem entryOf?_applyAll (happly : catalog.applyAll log = .ok next) :
    next.entryOf? kind name = Entry.after kind name log (catalog.entryOf? kind name) := by
  induction log generalizing catalog with
  | nil =>
      cases happly
      rfl
  | cons mutation rest ih =>
      obtain ⟨middle, hfirst, hrest⟩ := applyAll_cons_eq_ok.mp happly
      rw [ih hrest, Mutation.entryOf?_apply hfirst]
      rfl

end Catalog

/-! ## Sessions -/

/-- A session has made some changes and flushed them. -/
structure Session.Makes (session : Session) (changes : List Mutation) (next : Session) : Prop where
  view : session.view.applyAll changes = .ok next.view
  log : next.log = session.log ++ changes
  flushed : next.pending = []

namespace Session

variable {session next last : Session} {changes more : List Mutation}

theorem Makes.refl (hflushed : session.pending = []) : session.Makes [] session :=
  ⟨rfl, (List.append_nil _).symm, hflushed⟩

theorem Makes.trans (hfirst : session.Makes changes next) (hsecond : next.Makes more last) :
    session.Makes (changes ++ more) last where
  view := by
    rw [Catalog.applyAll_append, hfirst.view]
    exact hsecond.view
  log := by rw [hsecond.log, hfirst.log, List.append_assoc]
  flushed := hsecond.flushed

theorem Makes.entryOf?_view (hmakes : session.Makes changes next) :
    next.view.entryOf? kind name =
      Entry.after kind name changes (session.view.entryOf? kind name) :=
  Catalog.entryOf?_applyAll hmakes.view

end Session

end MetricCatalog
