/-
# A session that tasks share

Tasks may share a session, and each of them writes to it and flushes it when it
likes. But the session has one buffer for all of them: a flush makes or discards
what any task has written so far. So what becomes of a write is decided by the
first flush behind it, whoever asks for it, and the task that wrote is only told
if that was its own.
-/

import MetricCatalog.Proofs.Catalog.Replay

namespace MetricCatalog

namespace Session

variable {τ : Type}

/-- The session after calls of tasks, in the order in which they came. -/
def afterTasks (session : Session) (calls : List (τ × Call)) : Session :=
  session.after (calls.map Prod.snd)

/-- If a session is flushed in the course of some calls, the first flush succeeds. -/
def FirstFlushHolds (session : Session) : List Call → Prop
  | [] => True
  | .push mutation :: rest => (session.push mutation).FirstFlushHolds rest
  | .flush :: _ => session.flush.1 = .ok ()

variable {base : Catalog} {session : Session} {calls : List Call} {error : CatalogError}

/-! ## Logs grow -/

theorem log_prefix_flush (session : Session) : session.log <+: session.flush.2.log := by
  rcases session.flush_cases with ⟨view, -, hflush⟩ | ⟨error, -, hflush⟩
  · rw [hflush]
    exact List.prefix_append _ _
  · refine ⟨[], ?_⟩
    rw [List.append_nil, hflush]

/-- By induction on the calls: what is in the log stays there. -/
theorem log_prefix_after (session : Session) (calls : List Call) :
    session.log <+: (session.after calls).log := by
  induction calls generalizing session with
  | nil => exact List.prefix_refl _
  | cons call rest ih =>
      apply List.IsPrefix.trans _ (ih (session.call call))
      cases call with
      | push mutation => exact List.prefix_refl _
      | flush => exact session.log_prefix_flush

/-- By induction on the calls up to the first flush: what was buffered goes into the log with it. -/
theorem FirstFlushHolds.prefix_log (hholds : session.FirstFlushHolds calls)
    (hflush : (session.after calls).flush.1 = .ok ()) :
    session.log ++ session.pending <+: (session.after calls).flush.2.log := by
  induction calls generalizing session with
  | nil =>
      have hlog := (flush_eq_ok hflush).log
      rw [hlog]
      exact List.prefix_refl _
  | cons call rest ih =>
      cases call with
      | push mutation =>
          apply List.IsPrefix.trans _ (ih hholds hflush)
          show session.log ++ session.pending <+: session.log ++ (session.pending ++ [mutation])
          rw [← List.append_assoc]
          exact List.prefix_append _ _
      | flush =>
          have hkept : session.flush.2.log = session.log ++ session.pending :=
            (flush_eq_ok hholds).log
          rw [← hkept]
          exact (log_prefix_after _ rest).trans (log_prefix_flush _)

/-- By induction on the calls up to the first flush. -/
theorem exists_failed_flush (hfails : ¬ session.FirstFlushHolds calls) :
    ∃ front back error, calls = front ++ .flush :: back ∧ .flush ∉ front ∧
      (session.after front).flush.1 = .error error := by
  induction calls generalizing session with
  | nil => exact absurd trivial hfails
  | cons call rest ih =>
      cases call with
      | push mutation =>
          obtain ⟨front, back, error, rfl, hquiet, herror⟩ := ih hfails
          refine ⟨.push mutation :: front, back, error, rfl, ?_, herror⟩
          intro hmem
          exact hquiet ((List.mem_cons.mp hmem).resolve_left (by simp))
      | flush =>
          cases hresult : session.flush.1 with
          | ok => exact absurd hresult hfails
          | error error => exact ⟨[], rest, error, rfl, by simp, hresult⟩

/-! ## The flush of a task -/

/-- Writes behind the last flush are not among the calls up to it. -/
theorem settledCalls_append_of_notMem {first second : List Call} (hquiet : .flush ∉ second) :
    settledCalls (first ++ second) = settledCalls first := by
  rw [settledCalls, settledCalls, List.reverse_append, List.dropWhile_append_of_pos]
  intro call hmem
  cases call with
  | push mutation => rfl
  | flush => exact absurd (List.mem_reverse.mp hmem) hquiet

/-- When a task's flush succeeds, its write is in the log, with all that was written before it, if
the first flush behind the write succeeded. Otherwise that flush has discarded the write, and it is
as if it had never been made. In both cases the session shows its log. -/
theorem first_flush_decides (base : Catalog) (before between : List (τ × Call)) (task : τ)
    (mutation : Mutation)
    (hflush : ((start base).afterTasks (before ++ (task, .push mutation) :: between)).flush.1 =
      .ok ()) :
    let written := (start base).afterTasks before
    let last := (start base).afterTasks
      (before ++ (task, .push mutation) :: between ++ [(task, .flush)])
    base.applyAll last.log = .ok last.view ∧
    ((written.push mutation).FirstFlushHolds (between.map Prod.snd) →
      written.log ++ written.pending ++ [mutation] <+: last.log) ∧
    (¬ (written.push mutation).FirstFlushHolds (between.map Prod.snd) →
      ∃ front other back, between = front ++ (other, .flush) :: back ∧
        last = (start base).after
          (settledCalls (before.map Prod.snd) ++ (back.map Prod.snd ++ [.flush]))) := by
  intro written last
  have hcalls : (before ++ (task, .push mutation) :: between).map Prod.snd =
      before.map Prod.snd ++ .push mutation :: between.map Prod.snd := by
    rw [List.map_append, List.map_cons]
  have hlast : last = ((start base).after
      (before.map Prod.snd ++ .push mutation :: between.map Prod.snd)).flush.2 := by
    show (start base).after _ = _
    rw [List.map_append, after_append, hcalls]
    rfl
  rw [afterTasks, hcalls] at hflush
  refine ⟨replays_after base _, ?_, ?_⟩
  · intro hholds
    rw [after_append] at hflush hlast
    rw [hlast, List.append_assoc]
    exact hholds.prefix_log hflush
  · intro hfails
    obtain ⟨calls, more, error, hsplit, hquiet, hfailed⟩ := exists_failed_flush hfails
    obtain ⟨front, rest, rfl, rfl, hrest⟩ := List.map_eq_append_iff.mp hsplit
    obtain ⟨⟨other, _⟩, back, rfl, rfl, rfl⟩ := List.map_eq_cons_iff.mp hrest
    refine ⟨front, other, back, rfl, ?_⟩
    have hbehind : Call.flush ∉ .push mutation :: front.map Prod.snd := by
      intro hmem
      exact hquiet ((List.mem_cons.mp hmem).resolve_left (by simp))
    have hfailed : ((start base).after
        (before.map Prod.snd ++ .push mutation :: front.map Prod.snd)).flush.1 =
          .error error := by
      rw [after_append]
      exact hfailed
    have hdiscarded := after_failed_flush hfailed (back.map Prod.snd ++ [.flush])
    rw [settledCalls_append_of_notMem hbehind] at hdiscarded
    rw [← hdiscarded]
    show (start base).after _ = _
    simp

/-- While one task makes the warehouse and flushes, another one makes the lake and flushes too, and
then fails to drop what is not there. -/
def warehouseAndLake : List (Bool × Call) :=
  [(true, .push (.createDatabase { World.warehouse with name := "lake" })), (true, .flush),
    (true, .push (.dropDatabase "missing")), (true, .flush)]

theorem first_flush_decides_warehouseAndLake :
    let calls := (false, .push (.createDatabase World.warehouse)) :: warehouseAndLake
    ((start .empty).afterTasks calls).flush.1 = .ok () ∧
      [.createDatabase World.warehouse] <+:
        ((start .empty).afterTasks (calls ++ [(false, .flush)])).log := by
  have hflush : ((start .empty).afterTasks
      ((false, .push (.createDatabase World.warehouse)) :: warehouseAndLake)).flush.1 = .ok () := by
    decide
  obtain ⟨-, hkept, -⟩ := first_flush_decides .empty [] warehouseAndLake false
    (.createDatabase World.warehouse) hflush
  refine ⟨hflush, hkept ?_⟩
  show (Session.flush _).1 = .ok ()
  decide

/-- A task makes the warehouse. Before it flushes, another one fails to drop what is not there. The
first task is told that all went well, but its write is neither in what the session shows nor in
what a commit replays. -/
theorem exists_lost_write :
    ∃ (between : List (Bool × Call)) (mutation : Mutation),
      (false, .flush) ∉ between ∧
      ((start .empty).afterTasks ((false, .push mutation) :: between)).flush.1 = .ok () ∧
      (start .empty).afterTasks ((false, .push mutation) :: between ++ [(false, .flush)]) =
        start .empty := by
  refine ⟨[(true, .push (.dropDatabase "missing")), (true, .flush)],
    .createDatabase World.warehouse, ?_, ?_, ?_⟩
  · simp
  · decide
  · decide

end Session

end MetricCatalog
