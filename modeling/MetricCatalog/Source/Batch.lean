/-
# Reading rows in batches

The rows of a statement are asked for one at a time, and taken in batches of a
fixed size, until a batch comes out empty. A row that cannot be read ends the
reading. Whether it ends otherwise is up to where the rows come from, so whoever
reads them has to know that it does: it is enough that they are finitely many
and that nothing turns up behind the last of them.
-/

namespace MetricCatalog

variable {σ ε α : Type}

/-- Where rows come from. Asked for the next one, a supply gives it, or why it cannot be read, or
says that there is none; what is left of it is asked the next time. -/
abbrev Supply (σ ε α : Type) := σ → Option (Except ε α) × σ

namespace Supply

/-- The rows of a list, one after the other. -/
def ofList : Supply (List (Except ε α)) ε α
  | [] => (none, [])
  | row :: rest => (some row, rest)

/-- The answer to a request with so many others before it. -/
def answer (next : Supply σ ε α) : σ → Nat → Option (Except ε α)
  | state, 0 => (next state).1
  | state, n + 1 => answer next (next state).2 n

/-- The supply gives these rows in order, and none from then on, however often it is asked. -/
def Yields (next : Supply σ ε α) (state : σ) (rows : List (Except ε α)) : Prop :=
  ∀ n, next.answer state n = rows[n]?

variable {next : Supply σ ε α} {state later : σ} {rows : List (Except ε α)}

theorem Yields.answer_later {answered : Option (Except ε α)} (hyields : next.Yields state rows)
    (hnext : next state = (answered, later)) (n : Nat) : next.answer later n = rows[n + 1]? := by
  have hlater := hyields (n + 1)
  rwa [answer, hnext] at hlater

theorem Yields.of_none (hyields : next.Yields state rows) (hnext : next state = (none, later)) :
    rows = [] ∧ next.Yields later [] := by
  have hfirst := hyields 0
  rw [answer, hnext] at hfirst
  cases rows with
  | nil => exact ⟨rfl, hyields.answer_later hnext⟩
  | cons row rest => cases hfirst

theorem Yields.of_some {row : Except ε α} (hyields : next.Yields state rows)
    (hnext : next state = (some row, later)) :
    ∃ rest, rows = row :: rest ∧ next.Yields later rest := by
  have hfirst := hyields 0
  rw [answer, hnext] at hfirst
  cases rows with
  | nil => cases hfirst
  | cons first rest =>
      obtain rfl := Option.some.inj hfirst
      exact ⟨rest, rfl, hyields.answer_later hnext⟩

theorem yields_ofList (rows : List (Except ε α)) : ofList.Yields rows rows := by
  intro n
  induction n generalizing rows with
  | zero => cases rows <;> rfl
  | succ n ih =>
      cases rows with
      | nil => exact ih []
      | cons row rest => exact ih rest

end Supply

namespace Batch

/-- The largest number of rows in a batch. -/
def size : Nat := 1000

/-- The next rows, as many as there may be, and what is left of the supply. -/
def take (next : Supply σ ε α) : Nat → σ → Except ε (List α) × σ
  | 0, state => (.ok [], state)
  | n + 1, state =>
      match next state with
      | (none, state) => (.ok [], state)
      | (some (.error error), state) => (.error error, state)
      | (some (.ok row), state) =>
          let (batch, state) := take next n state
          (batch.map (row :: ·), state)

/-- A pass of a reading leads from one state of the supply to a later one if it takes any rows. -/
def Leads (next : Supply σ ε α) (later state : σ) : Prop :=
  ∃ row batch, take next size state = (.ok (row :: batch), later)

/-- A reading from this state ends: one pass after the other, it comes to one that leads nowhere. -/
def Ends (next : Supply σ ε α) (state : σ) : Prop := Acc (Leads next) state

theorem Ends.later {next : Supply σ ε α} {state later : σ} (hends : Ends next state)
    (hleads : Leads next later state) : Ends next later := hends.inv hleads

/-- Puts batches behind those that are there, up to the first empty one. -/
def readOn (next : Supply σ ε α) (batches : List (List α)) (state : σ)
    (hends : Ends next state) : Except ε (List (List α)) :=
  match htake : take next size state with
  | (.error error, _) => .error error
  | (.ok [], _) => .ok batches
  | (.ok (row :: batch), later) =>
      readOn next (batches ++ [row :: batch]) later (hends.later ⟨row, batch, htake⟩)
termination_by (⟨state, hends⟩ : { state // Acc (Leads next) state })
decreasing_by exact ⟨row, batch, htake⟩

/-- The batches of all rows. -/
def read (next : Supply σ ε α) (state : σ) (hends : Ends next state) :
    Except ε (List (List α)) :=
  readOn next [] state hends

variable {next : Supply σ ε α} {state : σ} {rows : List (Except ε α)}

/-- A batch takes the rows at the front, as many as it may unless there are no more, and leaves the
others. If it fails, then with the first error among the rows. -/
theorem take_cases (hyields : next.Yields state rows) (n : Nat) :
    match take next n state with
    | (.error error, _) =>
        ∃ (before : List α) (after : List (Except ε α)),
          rows = before.map .ok ++ .error error :: after
    | (.ok batch, later) =>
        ∃ rest : List (Except ε α), rows = batch.map .ok ++ rest ∧ next.Yields later rest ∧
          batch.length ≤ n ∧ (rest ≠ [] → batch.length = n) := by
  fun_induction take next n state generalizing rows with
  | case1 state => exact ⟨rows, rfl, hyields, Nat.le_refl _, fun _ => rfl⟩
  | case2 n state later hnext =>
      obtain ⟨rfl, hlater⟩ := hyields.of_none hnext
      exact ⟨[], rfl, hlater, Nat.zero_le _, fun hmore => absurd rfl hmore⟩
  | case3 n state error later hnext =>
      obtain ⟨rest, rfl, -⟩ := hyields.of_some hnext
      exact ⟨[], rest, rfl⟩
  | case4 n state row later hnext taken left htake ih =>
      obtain ⟨rest, rfl, hlater⟩ := hyields.of_some hnext
      have hrest := ih hlater
      rw [htake] at hrest
      cases taken with
      | error error =>
          obtain ⟨before, after, rfl⟩ := hrest
          exact ⟨row :: before, after, rfl⟩
      | ok batch =>
          obtain ⟨rest, rfl, hleft, hle, hfull⟩ := hrest
          exact ⟨rest, rfl, hleft, Nat.succ_le_succ hle,
            fun hmore => congrArg (· + 1) (hfull hmore)⟩

/-- A reading ends if there is an end to the rows. By induction on how many there are: a pass that
takes any leaves fewer of them. -/
theorem ends_of_yields (hyields : next.Yields state rows) : Ends next state := by
  generalize hlength : rows.length = length
  induction length using Nat.strongRecOn generalizing state rows with
  | ind length ih =>
      refine Acc.intro state ?_
      rintro later ⟨row, batch, hpass⟩
      have htaken := take_cases hyields size
      rw [hpass] at htaken
      obtain ⟨rest, rfl, hlater, -, -⟩ := htaken
      have hfewer : rest.length < length := by
        rw [← hlength, List.length_append, List.length_map, List.length_cons]
        omega
      exact ih _ hfewer hlater rfl

theorem ends_ofList (rows : List (Except ε α)) : Ends .ofList rows :=
  ends_of_yields (Supply.yields_ofList rows)

end Batch

end MetricCatalog
