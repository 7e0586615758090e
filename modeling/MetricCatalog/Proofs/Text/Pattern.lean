/-
# Patterns

A pattern can often read a text in several ways. The readings are listed here in
the order in which they are preferred: a greedy repetition would rather take
more and a lazy one less, and each gives way only where nothing that follows can
read the rest. The first reading in the list is the one that counts.

A greedy repetition need not be tried at every length if what follows cannot
start with a character of its class. Then it takes the whole run.

A pattern is searched for from left to right: each match is looked for behind the
one before it, at the first place where there is one.
-/

import MetricCatalog.Proofs.Text.Blank

namespace MetricCatalog

namespace Text

/-- A pattern for the front of a text. -/
inductive Pattern
  /-- A character of a class. -/
  | one (isPart : Char → Bool)
  /-- Characters of a class, as many as possible. -/
  | greedy (isPart : Char → Bool)
  /-- Characters of a class, as few as possible. -/
  | lazy (isPart : Char → Bool)
  /-- A pattern whose characters are kept. -/
  | group (inner : Pattern)
  /-- A pattern behind another one. -/
  | next (first second : Pattern)
  /-- The end of the text. -/
  | stop

/-- What a pattern has read. -/
structure Reading where
  taken : List Char
  /-- What the groups have taken. -/
  groups : List (List Char)
  /-- The text that is left. -/
  rest : List Char
  deriving DecidableEq, Repr

/-- A reading behind another one. -/
def Reading.before (first second : Reading) : Reading :=
  ⟨first.taken ++ second.taken, first.groups ++ second.groups, second.rest⟩

/-- The ways to take a run of a class from a text, longest first, or shortest first. -/
def runReadings (isLazy : Bool) (isPart : Char → Bool) : List Char → List Reading
  | [] => [⟨[], [], []⟩]
  | c :: rest =>
      let nothing : Reading := ⟨[], [], c :: rest⟩
      if isPart c then
        let more := (runReadings isLazy isPart rest).map (Reading.before ⟨[c], [], rest⟩)
        if isLazy then nothing :: more else more ++ [nothing]
      else [nothing]

namespace Pattern

/-- One or more characters of a class, as many as possible. -/
def run (isPart : Char → Bool) : Pattern := .next (.one isPart) (.greedy isPart)

/-- The ways in which a pattern can read the front of a text, the preferred one first. -/
def readings : Pattern → List Char → List Reading
  | one isPart, c :: rest => if isPart c then [⟨[c], [], rest⟩] else []
  | one _, [] => []
  | greedy isPart, text => runReadings false isPart text
  | lazy isPart, text => runReadings true isPart text
  | group inner, text =>
      (inner.readings text).map fun reading =>
        { reading with groups := reading.taken :: reading.groups }
  | next first second, text =>
      (first.readings text).flatMap fun reading =>
        (second.readings reading.rest).map reading.before
  | stop, [] => [⟨[], [], []⟩]
  | stop, _ :: _ => []

/-- What the groups take from a text, if the pattern can read its front. -/
def groups? (pattern : Pattern) (text : List Char) : Option (List (List Char)) :=
  (pattern.readings text).head?.map (·.groups)

/-- What the groups take from a text, and the text that is left, if the pattern can read its
front. -/
def match? (pattern : Pattern) (text : List Char) : Option (List (List Char) × List Char) :=
  (pattern.readings text).head?.map fun reading => (reading.groups, reading.rest)

/-! ## Where a pattern cannot start -/

/-- A pattern cannot start with a character of a class. -/
def Avoids (pattern : Pattern) (isPart : Char → Bool) : Prop :=
  ∀ c rest, isPart c = true → pattern.readings (c :: rest) = []

section

variable {isPart other : Char → Bool} {first second : Pattern}

theorem avoids_stop : stop.Avoids isPart := fun _ _ _ => rfl

theorem runReadings_of_other {isLazy : Bool} {c : Char} (hc : other c = false)
    (rest : List Char) : runReadings isLazy other (c :: rest) = [⟨[], [], c :: rest⟩] := by
  rw [runReadings, if_neg (by simp [hc])]

theorem avoids_one (hother : ∀ c, isPart c = true → other c = false) :
    (one other).Avoids isPart := by
  intro c rest hc
  simp [readings, hother c hc]

theorem Avoids.next (hfirst : first.Avoids isPart) (second : Pattern) :
    (next first second).Avoids isPart := by
  intro c rest hc
  simp [readings, hfirst c rest hc]

theorem Avoids.group (hfirst : first.Avoids isPart) : (group first).Avoids isPart := by
  intro c rest hc
  simp [readings, hfirst c rest hc]

theorem Avoids.behind_greedy (hsecond : second.Avoids isPart)
    (hother : ∀ c, isPart c = true → other c = false) :
    (Pattern.next (greedy other) second).Avoids isPart := by
  intro c rest hc
  simp [readings, runReadings_of_other (hother c hc), hsecond c rest hc]

theorem avoids_run_next (hother : ∀ c, isPart c = true → other c = false) (second : Pattern) :
    (Pattern.next (.group (run other)) second).Avoids isPart :=
  (((avoids_one hother).next _).group).next second

end

/-! ## Greedy repetitions -/

section

variable {isPart : Char → Bool} {second : Pattern}

/-- By induction on the text: only the longest run leaves a rest that does not start with the
class. -/
theorem runReadings_flatMap {β : Type} {f : Reading → List β}
    (hdead : ∀ reading c rest, reading.rest = c :: rest → isPart c = true → f reading = [])
    (text : List Char) :
    (runReadings false isPart text).flatMap f =
      f ⟨text.takeWhile isPart, [], text.dropWhile isPart⟩ := by
  induction text generalizing f with
  | nil => simp [runReadings]
  | cons c rest ih =>
      by_cases hc : isPart c = true
      · have hmore := ih (f := fun reading => f (Reading.before ⟨[c], [], rest⟩ reading))
          fun reading d more hrest hd => hdead _ d more hrest hd
        have hnothing := hdead ⟨[], [], c :: rest⟩ c rest rfl hc
        simpa [runReadings, hc, List.flatMap_map, hnothing, Reading.before] using hmore
      · rw [runReadings_of_other (by simpa using hc)]
        simp [hc]

theorem readings_greedy_next (hsecond : second.Avoids isPart) (text : List Char) :
    (next (greedy isPart) second).readings text =
      (second.readings (text.dropWhile isPart)).map
        (Reading.before ⟨text.takeWhile isPart, [], text.dropWhile isPart⟩) := by
  rw [readings, readings, runReadings_flatMap]
  intro reading c rest hrest hc
  rw [hrest, hsecond c rest hc, List.map_nil]

theorem readings_run_next (hsecond : second.Avoids isPart) (text : List Char) :
    (next (group (run isPart)) second).readings text =
      if text.takeWhile isPart = [] then []
      else (second.readings (text.dropWhile isPart)).map
        (Reading.before
          ⟨text.takeWhile isPart, [text.takeWhile isPart], text.dropWhile isPart⟩) := by
  cases text with
  | nil => rfl
  | cons c rest =>
      by_cases hc : isPart c = true
      · simp only [readings, run, hc, if_true, List.flatMap_singleton, List.map_map,
          List.flatMap_map, List.takeWhile_cons_of_pos, List.dropWhile_cons_of_pos,
          reduceCtorEq, if_false]
        rw [runReadings_flatMap]
        · rfl
        · intro reading d more hrest hd
          simp only [Function.comp_apply, Reading.before]
          rw [hrest, hsecond d more hd, List.map_nil]
      · simp [readings, run, hc]

theorem groups?_greedy_next (hsecond : second.Avoids isPart) (text : List Char) :
    (next (greedy isPart) second).groups? text = second.groups? (text.dropWhile isPart) := by
  simp [groups?, readings_greedy_next hsecond, Reading.before, Function.comp_def]

theorem groups?_run_next (hsecond : second.Avoids isPart) (text : List Char) :
    (next (group (run isPart)) second).groups? text =
      if text.takeWhile isPart = [] then none
      else (second.groups? (text.dropWhile isPart)).map (text.takeWhile isPart :: ·) := by
  rw [groups?, readings_run_next hsecond]
  split
  · rfl
  · simp [groups?, Reading.before, Function.comp_def]

theorem match?_greedy_next (hsecond : second.Avoids isPart) (text : List Char) :
    (next (greedy isPart) second).match? text = second.match? (text.dropWhile isPart) := by
  simp [match?, readings_greedy_next hsecond, Reading.before, Function.comp_def]

theorem match?_one_next (isPart : Char → Bool) (second : Pattern) (c : Char)
    (rest : List Char) :
    (next (one isPart) second).match? (c :: rest) =
      if isPart c then second.match? rest else none := by
  by_cases hc : isPart c = true <;>
    simp [match?, readings, hc, Reading.before, Function.comp_def]

/-- By induction on the text: the longest run comes first. -/
theorem head?_runReadings (isPart : Char → Bool) (text : List Char) :
    (runReadings false isPart text).head? =
      some ⟨text.takeWhile isPart, [], text.dropWhile isPart⟩ := by
  induction text with
  | nil => rfl
  | cons c rest ih =>
      by_cases hc : isPart c = true
      · simp [runReadings, hc, ih, Reading.before]
      · rw [runReadings_of_other (by simpa using hc)]
        simp [hc]

theorem match?_group_run (isPart : Char → Bool) (text : List Char) :
    (group (run isPart)).match? text =
      if text.takeWhile isPart = [] then none
      else some ([text.takeWhile isPart], text.dropWhile isPart) := by
  cases text with
  | nil => rfl
  | cons c rest =>
      by_cases hc : isPart c = true
      · simp [match?, run, readings, hc, head?_runReadings, Reading.before]
      · simp [match?, run, readings, hc]

end

/-! ## Lazy repetitions in front of white space -/

/-- White space up to the end of the text. -/
def blankEnd : Pattern := next (greedy isBlank) stop

theorem readings_blankEnd (text : List Char) :
    blankEnd.readings text = if text.all isBlank then [⟨text, [], []⟩] else [] := by
  rw [blankEnd, readings_greedy_next avoids_stop]
  cases hend : text.dropWhile isBlank with
  | nil =>
      have htake := List.takeWhile_append_dropWhile (p := isBlank) (l := text)
      rw [hend, List.append_nil] at htake
      rw [if_pos (List.all_eq_true.mpr (List.dropWhile_eq_nil_iff.mp hend))]
      simp [readings, Reading.before, htake]
  | cons c rest =>
      rw [if_neg]
      · rfl
      · intro hall
        rw [List.dropWhile_eq_nil_iff.mpr (List.all_eq_true.mp hall)] at hend
        cases hend

theorem trimEnd_cons (c : Char) (rest : List Char) :
    trimEnd (c :: rest) = if (c :: rest).all isBlank then [] else c :: trimEnd rest := by
  rw [trimEnd, trimEnd, List.reverse_cons, List.dropWhile_append]
  by_cases hrest : rest.all isBlank = true
  · have hnone : rest.reverse.dropWhile isBlank = [] :=
      List.dropWhile_eq_nil_iff.mpr fun d hd =>
        List.all_eq_true.mp hrest d (List.mem_reverse.mp hd)
    rw [hnone, List.isEmpty_nil, if_pos rfl, List.all_cons, hrest, Bool.and_true]
    cases hc : isBlank c <;> simp [hc]
  · have hsome : rest.reverse.dropWhile isBlank ≠ [] := fun hnil =>
      hrest (List.all_eq_true.mpr fun d hd =>
        List.dropWhile_eq_nil_iff.mp hnil d (List.mem_reverse.mpr hd))
    rw [List.all_cons, Bool.eq_false_iff.mpr hrest, Bool.and_false, if_neg Bool.false_ne_true,
      if_neg (by simpa using hsome), List.reverse_append, List.reverse_singleton,
      List.singleton_append]

/-- By induction on the text: the repetition stops at the first place from which on there is only
white space, if it gets there. -/
theorem head?_lazy_blankEnd {β : Type} (isPart : Char → Bool)
    (f : List Char → List (List Char) → β) (text : List Char) :
    ((runReadings true isPart text).flatMap fun reading =>
        (blankEnd.readings reading.rest).map fun last =>
          f reading.taken (reading.groups ++ last.groups)).head? =
      if (trimEnd text).all isPart then some (f (trimEnd text) []) else none := by
  induction text generalizing f with
  | nil => rfl
  | cons c rest ih =>
      rw [trimEnd_cons]
      by_cases hall : (c :: rest).all isBlank = true
      · have hend := readings_blankEnd (c :: rest)
        rw [if_pos hall] at hend
        rw [if_pos hall, runReadings]
        by_cases hc : isPart c = true <;> simp [hc, hend]
      · have hend := readings_blankEnd (c :: rest)
        rw [if_neg hall] at hend
        rw [if_neg hall, runReadings]
        by_cases hc : isPart c = true
        · have hmore := ih fun taken groups => f (c :: taken) groups
          simpa [hc, hend, List.flatMap_map, Reading.before] using hmore
        · simp [hc, hend]

/-- What is left in the group when white space at the end of the text has been left out of it. -/
theorem groups?_lazy_blankEnd (first isPart : Char → Bool) (c : Char) (rest : List Char) :
    (next (group (next (one first) (lazy isPart))) blankEnd).groups? (c :: rest) =
      if first c && (trimEnd rest).all isPart then some [c :: trimEnd rest] else none := by
  have hhead := head?_lazy_blankEnd isPart (fun taken groups => (c :: taken) :: groups) rest
  by_cases hc : first c = true
  · simpa [groups?, readings, hc, Reading.before, List.flatMap_map, List.map_flatMap,
      ← List.head?_map, Function.comp_def] using hhead
  · simp [groups?, readings, hc]

/-! ## Searching -/

/-- The matches of a pattern in a text from left to right, each behind the one before. None of them
starts right behind a character of a class. The character in front of the text is given, if there is
one. -/
inductive Searches (pattern : Pattern) (isPart : Char → Bool) :
    Option Char → List Char → List (List (List Char)) → Prop
  | stop (previous : Option Char) : Searches pattern isPart previous [] []
  | found {previous : Option Char} {front rest : List Char} {groups : List (List Char)}
      {later : List (List (List Char))} (hfree : previous.any isPart = false)
      (hsome : front ≠ []) (hmatch : pattern.match? (front ++ rest) = some (groups, rest))
      (hrest : Searches pattern isPart front.getLast? rest later) :
      Searches pattern isPart previous (front ++ rest) (groups :: later)
  | pass {previous : Option Char} {c : Char} {rest : List Char}
      {later : List (List (List Char))}
      (hnone : previous.any isPart = true ∨ pattern.match? (c :: rest) = none)
      (hrest : Searches pattern isPart (some c) rest later) :
      Searches pattern isPart previous (c :: rest) later

/-- By induction on the search: there is one way to go on at each place. -/
theorem Searches.unique {pattern : Pattern} {isPart : Char → Bool} {previous : Option Char}
    {text : List Char} {first second : List (List (List Char))}
    (hfirst : Searches pattern isPart previous text first)
    (hsecond : Searches pattern isPart previous text second) : first = second := by
  induction hfirst generalizing second with
  | stop previous =>
      generalize htext : ([] : List Char) = text at hsecond
      cases hsecond with
      | stop => rfl
      | found _ hsome => exact absurd (List.append_eq_nil_iff.mp htext.symm).1 hsome
      | pass => cases htext
  | @found previous front rest groups later hfree hsome hmatch _ ih =>
      generalize htext : front ++ rest = text at hsecond
      cases hsecond with
      | stop => exact absurd (List.append_eq_nil_iff.mp htext).1 hsome
      | @found _ front' rest' groups' later' _ _ hmatch' hrest' =>
          rw [← htext, hmatch] at hmatch'
          cases hmatch'
          obtain rfl := List.append_cancel_right htext
          rw [ih hrest']
      | pass hnone =>
          rw [← htext, hmatch, hfree] at hnone
          simp at hnone
  | @pass previous c rest later hnone _ ih =>
      generalize htext : c :: rest = text at hsecond
      cases hsecond with
      | stop => cases htext
      | found hfree _ hmatch =>
          rw [← htext] at hmatch
          rw [hmatch, hfree] at hnone
          simp at hnone
      | pass _ hrest' =>
          cases htext
          exact ih hrest'

end Pattern

end Text

end MetricCatalog
