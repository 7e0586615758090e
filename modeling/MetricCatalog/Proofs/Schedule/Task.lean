/-
# Steps of a task

A task that does not end in a step waits for answers. A step at some millisecond
settles all answers that are due by then, so that fewer are awaited afterwards,
and never more than the definition has representations.
-/

import Mathlib.Data.List.Forall2
import MetricCatalog.Compile.NodeTask

namespace MetricCatalog

namespace Reading

variable {ω γ : Type}

/-- The milliseconds of the answers that are not there yet. -/
def awaited (readings : List (Reading ω)) : List Nat := readings.filterMap due?

theorem mem_dueTimes {readings : List (Reading ω)} {due : Nat} :
    due ∈ dueTimes readings ↔ due ∈ awaited readings :=
  List.mem_mergeSort

/-- An answer that is due by now is there, and the others are awaited as before. -/
theorem due?_wake (now : Nat) (reading : Reading ω) (state : ω) :
    (reading.wake now state).1.due? = reading.due?.filter (now < ·) := by
  cases reading with
  | settled answer => rfl
  | underway due finish =>
      simp only [wake]
      split
      · rename_i hdue
        simp [due?, Option.filter, Nat.not_lt.mpr hdue]
      · rename_i hdue
        simp [due?, Option.filter, Nat.lt_of_not_le hdue]

theorem awaited_wakeAll (now : Nat) (readings : List (Reading ω)) (state : ω) :
    awaited (wakeAll now readings state).1 = (awaited readings).filter (now < ·) := by
  induction readings generalizing state with
  | nil => rfl
  | cons reading rest ih =>
      have hrest := ih (reading.wake now state).2
      have hfirst := due?_wake now reading state
      simp only [awaited] at hrest ⊢
      simp only [wakeAll, List.filterMap_cons, hfirst, hrest]
      cases reading.due? with
      | none => rfl
      | some due =>
          by_cases hlate : now < due <;> simp [Option.filter, hlate]

theorem length_startAll_le (drivers : Drivers ω γ) (now : Nat)
    (databases : KeyMap String Database) (representations : List Representation) (state : ω) :
    (startAll drivers now databases representations state).1.length ≤ representations.length := by
  induction representations generalizing state with
  | nil => exact Nat.le_refl _
  | cons representation rest ih =>
      simp only [startAll]
      split
      · exact Nat.le_succ_of_le (ih state)
      · exact Nat.succ_le_succ (ih _)

theorem length_awaited_le (readings : List (Reading ω)) :
    (awaited readings).length ≤ readings.length :=
  List.length_filterMap_le due? readings

/-- As long as not all answers are there, some answer is awaited. -/
theorem awaited_ne_nil_of_mapM_answer? {readings : List (Reading ω)}
    (hanswers : readings.mapM answer? = none) : awaited readings ≠ [] := by
  induction readings with
  | nil => cases hanswers
  | cons reading rest ih =>
      cases reading with
      | underway due finish => simp [awaited, due?]
      | settled answer =>
          have hrest : rest.mapM answer? = none := by
            rw [Option.eq_none_iff_forall_ne_some]
            simpa [List.mapM_cons, answer?] using hanswers
          simpa [awaited, due?] using ih hrest

end Reading

theorem forall₂_of_mapM_ok {ε α β : Type} {f : α → Except ε β} {items : List α} {values : List β}
    (hvalues : items.mapM f = .ok values) :
    List.Forall₂ (fun item value => f item = .ok value) items values := by
  induction items generalizing values with
  | nil =>
      cases hvalues
      exact .nil
  | cons item rest ih =>
      rw [List.mapM_cons] at hvalues
      cases hitem : f item with
      | error error => simp [hitem, bind, Except.bind] at hvalues
      | ok value =>
          cases hrest : rest.mapM f with
          | error error => simp [hitem, hrest, bind, Except.bind] at hvalues
          | ok found =>
              simp only [hitem, hrest, bind, Except.bind, pure, Except.pure, Except.ok.injEq]
                at hvalues
              rw [← hvalues]
              exact .cons hitem (ih hrest)

namespace NodeTask

open Reading

variable {σ γ : Type}

/-- Whether the task waits for answers, for some number of them at most. -/
def Awaits (bound : Nat) (task : NodeTask σ) : Prop :=
  ∃ existing representations readings, task = .reading existing representations readings ∧
    awaited readings ≠ [] ∧ (awaited readings).length ≤ bound

theorem settle_ends_or_awaits (definition : NodeDefinition) (existing : Option Node)
    (representations : List Representation) (readings : List (Reading (Environment σ)))
    (workspace : Workspace σ) :
    (∃ result, (settle definition existing representations readings workspace).1.result? =
        some result) ∨
      (settle definition existing representations readings workspace).1.Awaits
        (awaited readings).length := by
  unfold settle
  split
  · rename_i hanswers
    exact Or.inr ⟨existing, representations, readings, rfl,
      awaited_ne_nil_of_mapM_answer? hanswers, Nat.le_refl _⟩
  · exact Or.inl ⟨_, rfl⟩

theorem length_representations {databases : KeyMap String Database}
    {definition : NodeDefinition} {found : List Representation}
    (hfound : representations databases definition = .ok found) :
    found.length = definition.config.representations.length :=
  (forall₂_of_mapM_ok hfound).length_eq.symm

theorem Awaits.mono {bound larger : Nat} {task : NodeTask σ} (hawaits : task.Awaits bound)
    (hle : bound ≤ larger) : task.Awaits larger := by
  obtain ⟨existing, representations, readings, htask, hawaited, hbound⟩ := hawaits
  exact ⟨existing, representations, readings, htask, hawaited, Nat.le_trans hbound hle⟩

/-- The first step of a task ends it, or starts to read the columns of its representations. -/
theorem step_ready (drivers : Drivers (Environment σ) γ) (databases : KeyMap String Database)
    (clock : Nat) (definition : NodeDefinition) (workspace : Workspace σ) :
    (∃ result, (step drivers databases clock definition .ready workspace).1.result? =
        some result) ∨
      (step drivers databases clock definition .ready workspace).1.Awaits
        definition.config.representations.length := by
  simp only [step]
  split
  · exact Or.inl ⟨_, rfl⟩
  · split
    · exact Or.inl ⟨_, rfl⟩
    · rename_i found hfound
      unfold startReading
      split
      rename_i dropped after _
      cases dropped with
      | error error => exact Or.inl ⟨_, rfl⟩
      | ok _ =>
          refine (settle_ends_or_awaits ..).imp_right fun hawaits => hawaits.mono ?_
          rw [← length_representations hfound]
          exact Nat.le_trans (length_awaited_le _) (length_startAll_le ..)

/-- A step of a task that reads ends it, or only what is due later is still awaited. -/
theorem step_reading (drivers : Drivers (Environment σ) γ) (databases : KeyMap String Database)
    (clock : Nat) (definition : NodeDefinition) (existing : Option Node)
    (found : List Representation) (readings : List (Reading (Environment σ)))
    (workspace : Workspace σ) :
    (∃ result, (step drivers databases clock definition (.reading existing found readings)
        workspace).1.result? = some result) ∨
      (step drivers databases clock definition (.reading existing found readings)
        workspace).1.Awaits ((awaited readings).filter (clock < ·)).length := by
  simp only [step]
  rw [← awaited_wakeAll clock readings workspace.environment]
  exact settle_ends_or_awaits ..

end NodeTask

end MetricCatalog
