/-
# Replacing an entry

An entry is replaced by dropping the one that is there and making another one,
each with a flush of its own. Such a flush cannot fail: what is dropped is
there, and what is made is not there yet. It leaves everything else in the
catalog alone.
-/

import MetricCatalog.Compile.Workspace
import MetricCatalog.Proofs.Catalog.Entries

namespace MetricCatalog

variable {kind : DefinitionKind} {name : String} {catalog next last : Catalog}

/-! ## One entry of a catalog -/

/-- Two catalogs agree, but for one entry. -/
structure Catalog.AgreesBut (kind : DefinitionKind) (name : String) (first second : Catalog) :
    Prop where
  version : second.version = first.version
  queries : second.queries = first.queries
  entries : ∀ otherKind other, otherKind ≠ kind ∨ other ≠ name →
    second.entryOf? otherKind other = first.entryOf? otherKind other

theorem Catalog.AgreesBut.refl (kind : DefinitionKind) (name : String) (catalog : Catalog) :
    catalog.AgreesBut kind name catalog :=
  ⟨rfl, rfl, fun _ _ _ => rfl⟩

theorem Catalog.AgreesBut.trans (hfirst : catalog.AgreesBut kind name next)
    (hsecond : next.AgreesBut kind name last) : catalog.AgreesBut kind name last where
  version := hsecond.version.trans hfirst.version
  queries := hsecond.queries.trans hfirst.queries
  entries := fun otherKind other hother =>
    (hsecond.entries otherKind other hother).trans (hfirst.entries otherKind other hother)

theorem DefinitionKind.agreesBut_drop (happly : (kind.drop name).apply catalog = .ok next) :
    catalog.AgreesBut kind name next where
  version := by
    cases kind <;> simp only [drop, Mutation.apply] at happly <;> split at happly <;>
      cases happly <;> rfl
  queries := by
    cases kind <;> simp only [drop, Mutation.apply] at happly <;> split at happly <;>
      cases happly <;> rfl
  entries := by
    intro otherKind other hother
    have hboth : ¬ (otherKind = kind ∧ other = name) := fun hboth =>
      hother.elim (fun hkind => hkind hboth.1) (fun hname => hname hboth.2)
    rw [Mutation.entryOf?_apply happly, effectOn_drop, if_neg hboth]
    rfl

theorem Entry.agreesBut_create {entry : Entry} (happly : entry.create.apply catalog = .ok next) :
    catalog.AgreesBut entry.kind entry.name next where
  version := by
    cases entry <;> simp only [create, Mutation.apply] at happly <;> split at happly <;>
      cases happly <;> rfl
  queries := by
    cases entry <;> simp only [create, Mutation.apply] at happly <;> split at happly <;>
      cases happly <;> rfl
  entries := by
    intro otherKind other hother
    have hboth : ¬ (otherKind = entry.kind ∧ other = entry.name) := fun hboth =>
      hother.elim (fun hkind => hkind hboth.1) (fun hname => hname hboth.2)
    rw [Mutation.entryOf?_apply happly, effectOn_create, if_neg hboth]
    rfl

/-- What is there can be dropped. -/
theorem DefinitionKind.exists_apply_drop {entry : Entry}
    (hfound : catalog.entryOf? kind name = some entry) :
    ∃ next, (kind.drop name).apply catalog = .ok next := by
  cases kind with
  | database =>
      have hcontains : catalog.databases.contains name = true := by
        obtain ⟨found, hfound, -⟩ := Option.map_eq_some_iff.mp hfound
        rw [KeyMap.contains, hfound]
        rfl
      exact ⟨_, if_pos hcontains⟩
  | node =>
      have hcontains : catalog.nodes.contains name = true := by
        obtain ⟨found, hfound, -⟩ := Option.map_eq_some_iff.mp hfound
        rw [KeyMap.contains, hfound]
        rfl
      exact ⟨_, if_pos hcontains⟩

/-- What is not there can be made. -/
theorem Entry.exists_apply_create {entry : Entry}
    (hfree : catalog.entryOf? entry.kind entry.name = none) :
    ∃ next, entry.create.apply catalog = .ok next := by
  cases entry with
  | database made =>
      have hnone : catalog.databases.find? made.name = none := Option.map_eq_none_iff.mp hfree
      have hcontains : ¬ catalog.databases.contains made.name = true := by
        rw [KeyMap.contains, hnone]
        decide
      exact ⟨_, if_neg hcontains⟩
  | node made =>
      have hnone : catalog.nodes.find? made.name = none := Option.map_eq_none_iff.mp hfree
      have hcontains : ¬ catalog.nodes.contains made.name = true := by
        rw [KeyMap.contains, hnone]
        decide
      exact ⟨_, if_neg hcontains⟩

/-! ## One entry of a session -/

/-- A session with nothing buffered shows an entry, or none, where an earlier one may have shown
something else, and what that one showed elsewhere. -/
structure Session.Puts (kind : DefinitionKind) (name : String) (entry : Option Entry)
    (session next : Session) : Prop where
  flushed : next.pending = []
  others : session.view.AgreesBut kind name next.view
  self : next.view.entryOf? kind name = entry

theorem Session.Puts.same {entry : Option Entry} {session : Session}
    (hflushed : session.pending = []) (hentry : session.view.entryOf? kind name = entry) :
    session.Puts kind name entry session :=
  ⟨hflushed, .refl kind name _, hentry⟩

theorem Session.Puts.trans {first second : Option Entry} {session next last : Session}
    (hfirst : session.Puts kind name first next) (hsecond : next.Puts kind name second last) :
    session.Puts kind name second last :=
  ⟨hsecond.flushed, hfirst.others.trans hsecond.others, hsecond.self⟩

namespace Workspace

variable {σ : Type} {workspace : Workspace σ}

/-- With nothing else in the buffer, a change that applies is flushed. -/
theorem change_of_apply (hflushed : workspace.session.pending = []) {mutation : Mutation}
    {view : Catalog} (happly : mutation.apply workspace.session.view = .ok view) :
    workspace.change mutation =
      (.ok (), { workspace with session := ⟨view, [], workspace.session.log ++ [mutation]⟩ }) := by
  have hall : workspace.session.view.applyAll [mutation] = .ok view := by
    rw [Catalog.applyAll_cons, happly]
    rfl
  simp only [change, Session.push, Session.flush, hflushed, List.nil_append, hall]
  rfl

/-- The entry that is there, if there is one, is dropped. -/
theorem exists_drop {α : Type} (existing : Option α) (entryOf : α → Entry)
    (hflushed : workspace.session.pending = [])
    (hfound : workspace.session.view.entryOf? kind name = existing.map entryOf) :
    ∃ session, workspace.session.Puts kind name none session ∧
      existing.elim (.ok (), workspace) (fun _ => workspace.change (kind.drop name)) =
        (.ok (), { workspace with session := session }) := by
  cases existing with
  | none => exact ⟨workspace.session, .same hflushed hfound, rfl⟩
  | some found =>
      obtain ⟨view, happly⟩ := DefinitionKind.exists_apply_drop hfound
      refine ⟨_, ⟨rfl, DefinitionKind.agreesBut_drop happly, ?_⟩, change_of_apply hflushed happly⟩
      rw [Mutation.entryOf?_apply happly, DefinitionKind.effectOn_drop, if_pos ⟨rfl, rfl⟩]
      rfl

/-- An entry is made where there is none. -/
theorem exists_create (workspace : Workspace σ) {entry : Entry}
    (hflushed : workspace.session.pending = [])
    (hfree : workspace.session.view.entryOf? entry.kind entry.name = none) :
    ∃ session, workspace.session.Puts entry.kind entry.name (some entry) session ∧
      workspace.change entry.create = (.ok (), { workspace with session := session }) := by
  obtain ⟨view, happly⟩ := Entry.exists_apply_create hfree
  refine ⟨_, ⟨rfl, Entry.agreesBut_create happly, ?_⟩, change_of_apply hflushed happly⟩
  rw [Mutation.entryOf?_apply happly, Entry.effectOn_create, if_pos ⟨rfl, rfl⟩]
  rfl

end Workspace

end MetricCatalog
