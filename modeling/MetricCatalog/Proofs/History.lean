/-
# Lists of events

What happens in a run is kept as a list of events. A law may tie each event to
those before it, and it holds along a longer list if it holds along the shorter
one and for the events that are new.
-/

import Mathlib.Data.List.Basic

namespace MetricCatalog

namespace History

variable {ε α : Type}

/-- Each event of a list satisfies a law together with the events before it. -/
def Along (law : List ε → ε → Prop) (events : List ε) : Prop :=
  ∀ before event after, events = before ++ event :: after → law before event

theorem along_nil (law : List ε → ε → Prop) : Along law [] := by
  intro before event after hsplit
  cases before <;> cases hsplit

theorem Along.append {law : List ε → ε → Prop} {events batch : List ε} (hevents : Along law events)
    (hbatch : Along (fun before event => law (events ++ before) event) batch) :
    Along law (events ++ batch) := by
  intro before event after hsplit
  rcases List.append_eq_append_iff.mp hsplit with ⟨middle, rfl, hrest⟩ | ⟨middle, hfirst, hrest⟩
  · exact hbatch middle event after hrest
  · cases middle with
    | nil =>
        rw [List.append_nil] at hfirst
        subst hfirst
        simpa using hbatch [] event after hrest.symm
    | cons first middle =>
        obtain ⟨rfl, -⟩ := List.cons.inj hrest
        exact hevents before event middle hfirst

theorem Along.of_append {law : List ε → ε → Prop} {events batch : List ε}
    (hall : Along law (events ++ batch)) : Along law events := by
  rintro before event after rfl
  exact hall before event (after ++ batch) (by simp)

/-- The law for one event more. -/
theorem Along.concat {law : List ε → ε → Prop} {events : List ε} (hevents : Along law events)
    {event : ε} (hevent : law events event) : Along law (events ++ [event]) := by
  refine hevents.append fun before last after hsplit => ?_
  rcases List.append_eq_cons_iff.mp hsplit.symm with ⟨rfl, hlast⟩ | ⟨rest, -, hrest⟩
  · obtain ⟨rfl, -⟩ := List.cons.inj hlast
    simpa using hevent
  · cases rest <;> cases hrest

/-- An event of some kind has happened, and nothing since that disturbs it. -/
def Since (start calm : ε → Prop) (events : List ε) : Prop :=
  ∃ before event after, events = before ++ event :: after ∧ start event ∧
    ∀ later ∈ after, calm later

theorem since_concat {start calm : ε → Prop} {events : List ε} {event : ε} :
    Since start calm (events ++ [event]) ↔
      start event ∨ (Since start calm events ∧ calm event) := by
  constructor
  · rintro ⟨before, first, after, hsplit, hstart, hcalm⟩
    rcases List.eq_nil_or_concat after with rfl | ⟨rest, last, rfl⟩
    · obtain ⟨-, hlast⟩ := List.append_inj' hsplit rfl
      cases hlast
      exact Or.inl hstart
    · rw [List.concat_eq_append] at hsplit hcalm
      rw [← List.cons_append, ← List.append_assoc] at hsplit
      obtain ⟨hevents, hlast⟩ := List.append_inj' hsplit rfl
      cases hlast
      exact Or.inr ⟨⟨before, first, rest, hevents, hstart,
        fun later hlater => hcalm later (List.mem_append_left _ hlater)⟩, hcalm _ (by simp)⟩
  · rintro (hstart | ⟨⟨before, first, after, rfl, hstart, hcalm⟩, hevent⟩)
    · exact ⟨events, event, [], rfl, hstart, by simp⟩
    · refine ⟨before, first, after ++ [event], by simp, hstart, fun later hlater => ?_⟩
      rcases List.mem_append.mp hlater with hlater | hlast
      · exact hcalm later hlater
      · rw [List.mem_singleton.mp hlast]
        exact hevent

theorem Since.of_concat {start calm : ε → Prop} {events : List ε} {event : ε}
    (hsince : Since start calm (events ++ [event])) (hevent : ¬ start event) :
    Since start calm events ∧ calm event :=
  (since_concat.mp hsince).resolve_left hevent

/-- What is read off a list with one event more. -/
theorem filterMap_concat (read : ε → Option α) (events : List ε) (event : ε) :
    (events ++ [event]).filterMap read = events.filterMap read ++ (read event).toList := by
  rw [List.filterMap_append]
  cases hread : read event <;> simp [hread]

/-- A split of what is read off a list comes from a split of the list. -/
theorem split_of_filterMap {read : ε → Option α} {events : List ε} {before after : List α}
    {value : α} (hsplit : events.filterMap read = before ++ value :: after) :
    ∃ earlier event later, events = earlier ++ event :: later ∧ read event = some value ∧
      earlier.filterMap read = before := by
  obtain ⟨first, second, rfl, hfirst, hsecond⟩ := List.filterMap_eq_append_iff.mp hsplit
  obtain ⟨skipped, event, later, rfl, hskipped, hevent, -⟩ :=
    List.filterMap_eq_cons_iff.mp hsecond
  refine ⟨first ++ skipped, event, later, by simp, hevent, ?_⟩
  rw [List.filterMap_append, hfirst, List.filterMap_eq_nil_iff.mpr hskipped, List.append_nil]

end History

end MetricCatalog
