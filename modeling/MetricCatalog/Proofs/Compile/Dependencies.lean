/-
# Dependencies word by word

An expression is searched for `FROM` character by character, and each word that
is found behind one is passed over as a whole. The same words are found by a
scan that only looks at words: it takes the word behind a keyword and goes on
behind that, and goes on by one word everywhere else. The keyword is at the end
of its word, so it is seen in `(SELECT` or `x=FROM` as well, and only a word
that has been taken itself is not looked at.
-/

import Mathlib.Data.List.DropRight
import MetricCatalog.Compile.Dependencies
import MetricCatalog.Proofs.Query.Form

namespace MetricCatalog

/-! ## Sets of names -/

theorem KeyMap.mem_put_keys {κ α : Type} [KeyOrder κ] {key other : κ} {value : α}
    {entries : List (κ × α)} :
    other ∈ (put key value entries).map (·.1) ↔ other = key ∨ other ∈ entries.map (·.1) := by
  induction entries with
  | nil => simp [put]
  | cons entry rest ih =>
      obtain ⟨first, old⟩ := entry
      simp only [put]
      split
      · rw [List.map_cons, List.mem_cons, ih, List.map_cons, List.mem_cons]
        tauto
      · rename_i hnot
        split
        · simp
        · rename_i hother
          have hkey : key = first :=
            KeyOrder.eq_of_not_before (by simpa using hother) (by simpa using hnot)
          simp [hkey]

/-- By induction on the list, the set before it being general. -/
theorem NameSet.mem_toNames_ofNames {names : List String} {name : String} :
    name ∈ (ofNames names).toNames ↔ name ∈ names := by
  have hfold : ∀ (rest : List (String × Unit)) (found : NameSet),
      name ∈ (rest.foldl (fun map entry => map.insert entry.1 entry.2) found).keys ↔
        name ∈ found.keys ∨ name ∈ rest.map (·.1) := by
    intro rest
    induction rest with
    | nil => simp
    | cons entry rest ih =>
        intro found
        have hput : name ∈ (found.insert entry.1 entry.2).keys ↔
            name = entry.1 ∨ name ∈ found.keys := KeyMap.mem_put_keys
        rw [List.foldl_cons, ih, hput, List.map_cons, List.mem_cons]
        tauto
  have hnone : name ∉ (KeyMap.empty : NameSet).keys := List.not_mem_nil
  rw [toNames, ofNames, KeyMap.ofList, hfold]
  simp [hnone, Function.comp_def]

namespace Dependencies

open Text

/-! ## Words -/

/-- The words of a text: its longest runs without white space. -/
def words (text : List Char) : List (List Char) :=
  (text.splitOnP isBlank).filter fun word => !word.isEmpty

theorem words_nil : words [] = [] := by
  simp [words, List.splitOnP_nil]

theorem words_append_blank {c : Char} (hc : isBlank c = true) (first second : List Char) :
    words (first ++ c :: second) = words first ++ words second := by
  rw [words, List.splitOnP_append_cons first second hc, List.filter_append]
  rfl

theorem words_of_solid {word : List Char} (hsome : word ≠ [])
    (hsolid : ∀ c ∈ word, isBlank c = false) : words word = [word] := by
  rw [words, List.splitOnP_eq_singleton hsolid]
  simp [hsome]

theorem words_cons_blank {c : Char} (hc : isBlank c = true) (rest : List Char) :
    words (c :: rest) = words rest := by
  have happend := words_append_blank hc [] rest
  rwa [List.nil_append, words_nil, List.nil_append] at happend

/-- White space in front of a text belongs to no word. -/
theorem words_blank_append {gap : List Char} (hgap : ∀ c ∈ gap, isBlank c = true)
    (rest : List Char) : words (gap ++ rest) = words rest := by
  induction gap with
  | nil => rfl
  | cons c gap ih =>
      rw [List.cons_append, words_cons_blank (hgap c List.mem_cons_self)]
      exact ih fun d hd => hgap d (List.mem_cons_of_mem c hd)

/-- The text starts with white space, if there is anything in it. -/
def StartsBlank (text : List Char) : Prop := ∀ c ∈ text.head?, isBlank c = true

theorem words_solid_append {word rest : List Char} (hsome : word ≠ [])
    (hsolid : ∀ c ∈ word, isBlank c = false) (hrest : StartsBlank rest) :
    words (word ++ rest) = word :: words rest := by
  cases rest with
  | nil => rw [List.append_nil, words_of_solid hsome hsolid, words_nil]
  | cons c rest =>
      have hc := hrest c rfl
      rw [words_append_blank hc, words_of_solid hsome hsolid, words_cons_blank hc]
      rfl

/-- A text is a word, or nothing, and then white space. -/
theorem exists_solid_append (text : List Char) :
    ∃ word rest, text = word ++ rest ∧ (∀ c ∈ word, isBlank c = false) ∧ StartsBlank rest := by
  refine ⟨text.takeWhile fun c => !isBlank c, text.dropWhile fun c => !isBlank c,
    List.takeWhile_append_dropWhile.symm, fun c hc => ?_, fun c hc => ?_⟩
  · simpa using List.all_eq_true.mp List.all_takeWhile c hc
  · simpa using isPart_head?_dropWhile c hc

/-- A text is made of white space and of words, each as long as it can be. -/
theorem words_induction {motive : List Char → Prop} (nil : motive [])
    (blank : ∀ c rest, isBlank c = true → motive rest → motive (c :: rest))
    (word : ∀ word rest, word ≠ [] → (∀ c ∈ word, isBlank c = false) → StartsBlank rest →
      motive rest → motive (word ++ rest)) (text : List Char) : motive text := by
  induction hlength : text.length using Nat.strongRecOn generalizing text with
  | ind length ih =>
      obtain ⟨first, rest, rfl, hsolid, hrest⟩ := exists_solid_append text
      cases first with
      | cons c first =>
          refine word _ rest (List.cons_ne_nil c first) hsolid hrest (ih _ ?_ rest rfl)
          rw [← hlength, List.length_append, List.length_cons]
          omega
      | nil =>
          cases rest with
          | nil => exact nil
          | cons c rest =>
              refine blank c rest (hrest c rfl) (ih _ ?_ rest rfl)
              rw [← hlength]
              exact Nat.lt_succ_self _

theorem isWord_of_mem_words {text : List Char} :
    ∀ word ∈ words text, word ≠ [] ∧ ∀ c ∈ word, isBlank c = false := by
  induction text using words_induction with
  | nil =>
      rw [words_nil]
      exact nofun
  | blank c rest hc ih => rwa [words_cons_blank hc]
  | word first rest hsome hsolid hrest ih =>
      rw [words_solid_append hsome hsolid hrest, List.forall_mem_cons]
      exact ⟨⟨hsome, hsolid⟩, ih⟩

/-! ## Scanning words -/

section

variable {α β : Type}

/-- The items behind keys, from left to right. The scan goes on behind an item that is taken, which
is therefore not looked at itself. -/
def scan (isKey : α → Bool) : List α → List α
  | item :: next :: rest =>
      if isKey item then next :: scan isKey rest else scan isKey (next :: rest)
  | [_] => []
  | [] => []

/-- The items that are taken from here on, given whether a key stands in front. -/
def scanBehind (isKey : α → Bool) : Bool → List α → List α
  | true, next :: rest => next :: scan isKey rest
  | true, [] => []
  | false, items => scan isKey items

theorem scan_cons (isKey : α → Bool) (item : α) (rest : List α) :
    scan isKey (item :: rest) = scanBehind isKey (isKey item) rest := by
  cases rest <;> cases hkey : isKey item <;> simp [scan, scanBehind, hkey]

theorem scanBehind_nil (isKey : α → Bool) (isTaken : Bool) : scanBehind isKey isTaken [] = [] := by
  cases isTaken <;> rfl

theorem map_scan (isKey : β → Bool) (f : α → β) (items : List α) :
    (scan (fun item => isKey (f item)) items).map f = scan isKey (items.map f) := by
  fun_induction scan (fun item => isKey (f item)) items with
  | case1 item next rest hkey ih => simp [scan, hkey, ih]
  | case2 item next rest hkey ih => simpa [scan, hkey] using ih
  | case3 | case4 => rfl

theorem mem_of_mem_scan {isKey : α → Bool} {items : List α} :
    ∀ item ∈ scan isKey items, item ∈ items := by
  fun_induction scan isKey items with
  | case1 item next rest hkey ih =>
      rw [List.forall_mem_cons]
      exact ⟨by simp, fun other hother => by simp [ih other hother]⟩
  | case2 item next rest hkey ih =>
      exact fun other hother => List.mem_cons_of_mem _ (ih other hother)
  | case3 | case4 => exact nofun

/-- The items that are taken, with their places. -/
def scanPlaces (isKey : α → Bool) (start : ℕ) (items : List α) : List (α × ℕ) :=
  scan (fun item => isKey item.1) (items.zipIdx start)

/-- By induction on the scan: a key with an item behind it is taken, or else that item is. -/
theorem taken_or_next_taken {isKey : α → Bool} {items : List α} (start : ℕ) {place : ℕ}
    {key next : α} (hkey : items[place]? = some key) (hnext : items[place + 1]? = some next)
    (hisKey : isKey key = true) :
    (key, start + place) ∈ scanPlaces isKey start items ∨
      (next, start + place + 1) ∈ scanPlaces isKey start items := by
  fun_induction scan isKey items generalizing start place with
  | case1 item second rest hitem ih =>
      simp only [scanPlaces, List.zipIdx_cons, scan, hitem, if_true]
      match place with
      | 0 =>
          cases hnext
          exact Or.inr List.mem_cons_self
      | 1 =>
          cases hkey
          exact Or.inl List.mem_cons_self
      | place + 2 =>
          have hrest := ih (start + 1 + 1) hkey hnext
          have hplace : start + (place + 2) = start + 1 + 1 + place := by omega
          rw [hplace]
          exact hrest.imp (List.mem_cons_of_mem _) (List.mem_cons_of_mem _)
  | case2 item second rest hitem ih =>
      simp only [scanPlaces, List.zipIdx_cons, scan, hitem]
      cases place with
      | zero =>
          cases hkey
          exact absurd hisKey hitem
      | succ place =>
          have hplace : start + (place + 1) = start + 1 + place := by omega
          rw [hplace]
          exact ih (start + 1) hkey hnext
  | case3 | case4 => simp at hnext

end

/-! ## Keywords -/

/-- Whether the word ends with `FROM` in any case, with no word character before it. -/
def isKeyword (word : List Char) : Bool :=
  (word.rtake 4).map Char.toLower = ['f', 'r', 'o', 'm'] &&
    !(word.rdrop 4).getLast?.any isWordChar

/-- The same for a word of which the beginning is not there; the last character of it is given. -/
def isKeywordBehind (previous : Option Char) (word : List Char) : Bool :=
  (word.rtake 4).map Char.toLower = ['f', 'r', 'o', 'm'] &&
    !((word.rdrop 4).getLast?.or previous).any isWordChar

section

variable {word rest : List Char} {previous : Option Char} {c : Char}

theorem isKeywordBehind_of_not_wordChar (hprevious : previous.any isWordChar = false) :
    isKeywordBehind previous word = isKeyword word := by
  rw [isKeywordBehind, isKeyword]
  cases (word.rdrop 4).getLast? with
  | none => rw [Option.none_or, hprevious, Option.any_none]
  | some last => rfl

theorem isKeywordBehind_of_short (hshort : word.length < 4) :
    isKeywordBehind previous word = false := by
  have hne : (word.rtake 4).map Char.toLower ≠ ['f', 'r', 'o', 'm'] := by
    intro heq
    have hlength := congrArg List.length heq
    rw [List.length_map, List.rtake, List.length_drop] at hlength
    simp only [List.length_cons, List.length_nil] at hlength
    omega
  rw [isKeywordBehind, decide_eq_false hne, Bool.false_and]

theorem isKeywordBehind_of_exact (hexact : word.length = 4) :
    isKeywordBehind previous word =
      (decide (word.map Char.toLower = ['f', 'r', 'o', 'm']) && !previous.any isWordChar) := by
  simp [isKeywordBehind, List.rtake, List.rdrop, hexact]

theorem isKeywordBehind_cons (hlong : 4 ≤ word.length) :
    isKeywordBehind previous (c :: word) = isKeywordBehind (some c) word := by
  have hlength : (c :: word).length - 4 = (word.length - 4) + 1 := by
    rw [List.length_cons]
    omega
  have htake : (c :: word).rtake 4 = word.rtake 4 := by
    rw [List.rtake, hlength, List.drop_succ_cons, List.rtake]
  have hdrop : (c :: word).rdrop 4 = c :: word.rdrop 4 := by
    rw [List.rdrop, hlength, List.take_succ_cons, List.rdrop]
  rw [isKeywordBehind, isKeywordBehind, htake, hdrop, List.getLast?_cons]
  cases (word.rdrop 4).getLast? <;> rfl

/-- One character less makes no difference, unless the keyword starts with it. -/
theorem isKeywordBehind_tail
    (hno : word.length = 3 → (c :: word).map Char.toLower = ['f', 'r', 'o', 'm'] →
      previous.any isWordChar = true) :
    isKeywordBehind previous (c :: word) = isKeywordBehind (some c) word := by
  rcases Nat.lt_trichotomy word.length 3 with hless | hexact | hmore
  · have hshort : (c :: word).length < 4 := by
      rw [List.length_cons]
      omega
    rw [isKeywordBehind_of_short hshort, isKeywordBehind_of_short (by omega)]
  · have hfour : (c :: word).length = 4 := by rw [List.length_cons, hexact]
    have hshort : word.length < 4 := by omega
    rw [isKeywordBehind_of_exact hfour, isKeywordBehind_of_short hshort]
    by_cases hkeyword : (c :: word).map Char.toLower = ['f', 'r', 'o', 'm']
    · rw [hno hexact hkeyword, Bool.not_true, Bool.and_false]
    · rw [decide_eq_false hkeyword, Bool.false_and]
  · exact isKeywordBehind_cons hmore

end

/-! ## Characters -/

theorem isWordChar_of_isBlank {c : Char} (hc : isBlank c = true) : isWordChar c = false := by
  have hstart := FilterParts.isLiteralStart_of_isBlank hc
  simp only [FilterParts.isLiteralStart, Bool.or_eq_false_iff] at hstart
  tauto

/-- No letter of the keyword is white space. -/
theorem isBlank_of_keyword {keyword : List Char}
    (hkeyword : keyword.map Char.toLower = ['f', 'r', 'o', 'm']) :
    ∀ c ∈ keyword, isBlank c = false := by
  intro c hc
  have hpoints : ∀ n ∈ blankTable.points, (Char.ofNat n).toLower ∉ ['f', 'r', 'o', 'm'] := by
    decide +kernel
  by_contra hblank
  have hpoint := hpoints _ (CharRanges.toNat_mem_points (Bool.not_eq_false _ ▸ hblank))
  rw [Char.ofNat_toNat, ← hkeyword] at hpoint
  exact hpoint (List.mem_map_of_mem hc)

/-! ## The pattern of a candidate -/

/-- A letter in any case. -/
def letterPattern (letter : Char) : Pattern := .one fun c => c.toLower = letter

/-- White space and a word behind it, which is in a group. -/
def wordPattern : Pattern :=
  .next (.one isBlank) <| .next (.greedy isBlank) <| .group (.run fun c => !isBlank c)

/-- The keyword in any case and the next word. In the usual way of writing patterns it is
`FROM\s+([^\s]+)`. -/
def fromPattern : Pattern :=
  .next (letterPattern 'f') <| .next (letterPattern 'r') <| .next (letterPattern 'o') <|
  .next (letterPattern 'm') wordPattern

theorem match?_wordPattern (behind : List Char) :
    wordPattern.match? behind =
      let rest := trimStart behind
      let word := rest.takeWhile fun c => !isBlank c
      if behind.head?.any isBlank && !word.isEmpty then
        some ([word], rest.dropWhile fun c => !isBlank c)
      else none := by
  have hsolid : (Pattern.group (.run fun c => !isBlank c)).Avoids isBlank :=
    ((Pattern.avoids_one fun c hc => by simp [hc]).next _).group
  cases behind with
  | nil => rfl
  | cons c rest =>
      rw [wordPattern, Pattern.match?_one_next, Pattern.match?_greedy_next hsolid,
        Pattern.match?_group_run]
      by_cases hc : isBlank c = true
      · simp only [trimStart, hc, List.dropWhile_cons_of_pos, List.head?_cons, Option.any_some,
          if_true, Bool.true_and]
        cases (rest.dropWhile isBlank).takeWhile fun c => !isBlank c <;> rfl
      · simp [hc]

/-- A candidate is what the pattern reads at the front of the text. -/
theorem match?_fromPattern (text : List Char) :
    fromPattern.match? text = (candidate? text).map fun found => ([found.1], found.2) := by
  have hnil (first : Char → Bool) (second : Pattern) :
      (Pattern.next (.one first) second).match? [] = none := rfl
  rcases text with _ | ⟨f, _ | ⟨r, _ | ⟨o, _ | ⟨m, behind⟩⟩⟩⟩
  · rfl
  · simp [fromPattern, letterPattern, Pattern.match?_one_next, hnil, candidate?, behindFrom]
  · simp [fromPattern, letterPattern, Pattern.match?_one_next, hnil, candidate?, behindFrom]
  · simp [fromPattern, letterPattern, Pattern.match?_one_next, hnil, candidate?, behindFrom]
  · rw [fromPattern]
    simp only [letterPattern, Pattern.match?_one_next, match?_wordPattern, candidate?, behindFrom]
    by_cases hf : f.toLower = 'f' <;> by_cases hr : r.toLower = 'r' <;>
      by_cases ho : o.toLower = 'o' <;> by_cases hm : m.toLower = 'm' <;>
      simp [hf, hr, ho, hm, apply_ite (Option.map _)]

section

variable {text word rest behind : List Char}

theorem exists_of_behindFrom (hbehind : behindFrom text = some behind) :
    ∃ keyword, text = keyword ++ behind ∧ keyword.map Char.toLower = ['f', 'r', 'o', 'm'] := by
  unfold behindFrom at hbehind
  split at hbehind
  · rename_i f r o m rest
    split at hbehind
    · rename_i hkeyword
      cases hbehind
      refine ⟨[f, r, o, m], rfl, ?_⟩
      simpa [and_assoc] using hkeyword
    · cases hbehind
  · cases hbehind

theorem behindFrom_append (hkeyword : word.map Char.toLower = ['f', 'r', 'o', 'm'])
    (rest : List Char) : behindFrom (word ++ rest) = some rest := by
  obtain ⟨f, word, rfl, hf, hkeyword⟩ := List.map_eq_cons_iff.mp hkeyword
  obtain ⟨r, word, rfl, hr, hkeyword⟩ := List.map_eq_cons_iff.mp hkeyword
  obtain ⟨o, word, rfl, ho, hkeyword⟩ := List.map_eq_cons_iff.mp hkeyword
  obtain ⟨m, word, rfl, hm, hkeyword⟩ := List.map_eq_cons_iff.mp hkeyword
  obtain rfl := List.map_eq_nil_iff.mp hkeyword
  simp [behindFrom, hf, hr, ho, hm]

/-! ## Candidates at the end of a word -/

/-- A candidate is found in front of white space only. -/
theorem behind_of_candidate? {next after : List Char}
    (hcandidate : candidate? text = some (next, after)) :
    ∃ c behind, behindFrom text = some (c :: behind) ∧ isBlank c = true := by
  unfold candidate? at hcandidate
  split at hcandidate
  · cases hcandidate
  · rename_i behind hbehind
    simp only at hcandidate
    split at hcandidate
    · rename_i hfound
      rw [Bool.and_eq_true] at hfound
      cases behind with
      | nil => cases hfound.1
      | cons c behind => exact ⟨c, behind, hbehind, hfound.1⟩
    · cases hcandidate

/-- So `FROM` is all that is left of the word when a candidate is found. -/
theorem keyword_of_candidate? (hsolid : ∀ c ∈ word, isBlank c = false) (hrest : StartsBlank rest)
    {next after : List Char} (hcandidate : candidate? (word ++ rest) = some (next, after)) :
    word.map Char.toLower = ['f', 'r', 'o', 'm'] := by
  obtain ⟨c, behind, hbehind, hc⟩ := behind_of_candidate? hcandidate
  obtain ⟨keyword, hsplit, hkeyword⟩ := exists_of_behindFrom hbehind
  have hsolidKeyword := isBlank_of_keyword hkeyword
  rcases List.append_eq_append_iff.mp hsplit with ⟨more, rfl, hmore⟩ | ⟨more, rfl, hmore⟩
  · -- the word would end before the keyword does
    cases more with
    | nil => rwa [List.append_nil] at hkeyword
    | cons d more =>
        have hd : isBlank d = true := hrest d (by rw [hmore]; rfl)
        have hnot := hsolidKeyword d (List.mem_append_right word List.mem_cons_self)
        rw [hd] at hnot
        cases hnot
  · -- the word would go on behind the keyword
    cases more with
    | nil => rwa [List.append_nil]
    | cons d more =>
        cases hmore
        have hnot := hsolid c (List.mem_append_right keyword List.mem_cons_self)
        rw [hc] at hnot
        cases hnot

/-- Behind `FROM` the candidate is the next word of the text, if there is one. -/
theorem candidate?_keyword (hkeyword : word.map Char.toLower = ['f', 'r', 'o', 'm'])
    (hrest : StartsBlank rest) :
    (words rest = [] ∧ candidate? (word ++ rest) = none) ∨
      ∃ next after, words rest = next :: words after ∧ StartsBlank after ∧
        candidate? (word ++ rest) = some (next, after) := by
  have hgap := List.takeWhile_append_dropWhile (p := isBlank) (l := rest)
  have hblank : ∀ c ∈ rest.takeWhile isBlank, isBlank c = true :=
    List.all_eq_true.mp List.all_takeWhile
  have hwords : words rest = words (trimStart rest) := by
    rw [← hgap, words_blank_append hblank, hgap, trimStart]
  have hstop : ∀ c ∈ (trimStart rest).head?, isBlank c = false := isPart_head?_dropWhile
  obtain ⟨next, after, htrim, hsolid, hafter⟩ := exists_solid_append (trimStart rest)
  have hsolid' : ∀ c ∈ next, (!isBlank c) = true := fun c hc => by rw [hsolid c hc]; rfl
  have hafter' : ∀ c ∈ after.head?, (!isBlank c) = false := fun c hc => by rw [hafter c hc]; rfl
  have htake : (trimStart rest).takeWhile (fun c => !isBlank c) = next := by
    rw [htrim]
    exact takeWhile_run hsolid' hafter'
  have hdrop : (trimStart rest).dropWhile (fun c => !isBlank c) = after := by
    rw [htrim]
    exact dropWhile_run hsolid' hafter'
  rw [candidate?, behindFrom_append hkeyword]
  simp only [htake, hdrop]
  cases next with
  | nil =>
      have hnone : after = [] := by
        cases after with
        | nil => rfl
        | cons c after =>
            have hnot := hstop c (by rw [htrim]; rfl)
            rw [hafter c rfl] at hnot
            cases hnot
      refine Or.inl ⟨?_, by simp⟩
      rw [hwords, htrim, hnone, List.append_nil, words_nil]
  | cons first next =>
      have hfront : rest.head?.any isBlank = true := by
        cases rest with
        | nil => cases htrim
        | cons c rest => exact hrest c rfl
      refine Or.inr ⟨first :: next, after, ?_, hafter, by simp [hfront]⟩
      rw [hwords, htrim, words_solid_append (List.cons_ne_nil first next) hsolid hafter]

end

/-! ## Scanning characters -/

section

variable {previous : Option Char} {c : Char} {rest : List Char}

theorem candidates_of_wordChar (hprevious : previous.any isWordChar = true) :
    candidates previous (c :: rest) = candidates (some c) rest := by
  rw [candidates, if_pos hprevious]

theorem candidates_of_none (hnone : candidate? (c :: rest) = none) :
    candidates previous (c :: rest) = candidates (some c) rest := by
  rw [candidates]
  split
  · rfl
  · split
    · rename_i hsome
      rw [hnone] at hsome
      cases hsome
    · rfl

theorem candidates_of_some (hprevious : previous.any isWordChar = false)
    {word after : List Char} (hsome : candidate? (c :: rest) = some (word, after)) :
    candidates previous (c :: rest) = word :: candidates word.getLast? after := by
  rw [candidates, if_neg (by simp [hprevious])]
  split
  · rename_i hother
    rw [hsome] at hother
    cases hother
    rfl
  · rename_i hnone
    rw [hsome] at hnone
    cases hnone

theorem candidates_blank (hc : isBlank c = true) (rest : List Char) :
    candidates previous (c :: rest) = candidates (some c) rest := by
  refine candidates_of_none ?_
  have hblank : StartsBlank (c :: rest) := by
    rintro d ⟨⟩
    exact hc
  cases hcandidate : candidate? (c :: rest) with
  | none => rfl
  | some found =>
      have hempty : ∀ d ∈ ([] : List Char), isBlank d = false := List.forall_mem_nil _
      cases keyword_of_candidate? hempty hblank hcandidate

/-- In a word the search goes on by one character, unless `FROM` is all that is left of it and there
is another word. -/
theorem candidates_solid {word : List Char} (hsolid : ∀ d ∈ c :: word, isBlank d = false)
    (hrest : StartsBlank rest) :
    (candidates previous (c :: (word ++ rest)) = candidates (some c) (word ++ rest) ∧
        (isKeywordBehind previous (c :: word) = isKeywordBehind (some c) word ∨
          words rest = [])) ∨
      ∃ next after, candidates previous (c :: (word ++ rest)) =
          next :: candidates next.getLast? after ∧
        after.length < (c :: (word ++ rest)).length ∧ StartsBlank after ∧
        isKeywordBehind previous (c :: word) = true ∧ words rest = next :: words after := by
  by_cases hprevious : previous.any isWordChar = true
  · exact Or.inl ⟨candidates_of_wordChar hprevious,
      Or.inl (isKeywordBehind_tail fun _ _ => hprevious)⟩
  · rw [Bool.not_eq_true] at hprevious
    by_cases hkeyword : (c :: word).map Char.toLower = ['f', 'r', 'o', 'm']
    · have hfour : (c :: word).length = 4 := by
        rw [← List.length_map (f := Char.toLower), hkeyword]
        rfl
      rcases candidate?_keyword hkeyword hrest with
        ⟨hnone, hcandidate⟩ | ⟨next, after, hnext, hafter, hcandidate⟩
      · exact Or.inl ⟨candidates_of_none hcandidate, Or.inr hnone⟩
      · refine Or.inr ⟨next, after, candidates_of_some hprevious hcandidate,
          length_candidate hcandidate, hafter, ?_, hnext⟩
        rw [isKeywordBehind_of_exact hfour, hkeyword, hprevious]
        rfl
    · refine Or.inl ⟨candidates_of_none ?_,
        Or.inl (isKeywordBehind_tail fun _ hword => absurd hword hkeyword)⟩
      cases hcandidate : candidate? (c :: (word ++ rest)) with
      | none => rfl
      | some found => exact absurd (keyword_of_candidate? hsolid hrest hcandidate) hkeyword

end

/-- By induction on the length of the text, which starts somewhere in a word: what is left of the
word decides whether the word behind it is taken. -/
theorem candidates_eq_scan (previous : Option Char) {word rest : List Char}
    (hsolid : ∀ c ∈ word, isBlank c = false) (hrest : StartsBlank rest) :
    candidates previous (word ++ rest) =
      scanBehind isKeyword (isKeywordBehind previous word) (words rest) := by
  induction hlength : (word ++ rest).length using Nat.strongRecOn
    generalizing previous word rest with
  | ind length ih =>
      subst hlength
      cases word with
      | nil =>
          rw [isKeywordBehind_of_short (by decide), List.nil_append]
          cases rest with
          | nil => rw [candidates, words_nil, scanBehind_nil]
          | cons c rest =>
              have hc := hrest c rfl
              have hbreak : (some c).any isWordChar = false := isWordChar_of_isBlank hc
              obtain ⟨next, behind, rfl, hnext, hbehind⟩ := exists_solid_append rest
              rw [candidates_blank hc, words_cons_blank hc,
                ih _ (Nat.lt_succ_self _) (some c) hnext hbehind rfl]
              cases next with
              | nil => rw [isKeywordBehind_of_short (by decide), List.nil_append]
              | cons d next =>
                  rw [words_solid_append (List.cons_ne_nil d next) hnext hbehind,
                    isKeywordBehind_of_not_wordChar hbreak, ← scan_cons, scanBehind]
      | cons c word =>
          have hmore := ih _ (Nat.lt_succ_self (word ++ rest).length) (some c)
            (fun d hd => hsolid d (List.mem_cons_of_mem c hd)) hrest rfl
          rcases candidates_solid hsolid hrest with
            ⟨hnext, hsame | hnone⟩ | ⟨next, after, hnext, hshorter, hafter, hkeyword, hwords⟩
          · exact hnext.trans (hmore.trans (by rw [hsame]))
          · exact hnext.trans (hmore.trans (by rw [hnone, scanBehind_nil, scanBehind_nil]))
          · have hend := ih _ hshorter next.getLast? (List.forall_mem_nil _) hafter rfl
            rw [List.nil_append, isKeywordBehind_of_short (by decide), scanBehind] at hend
            rw [hkeyword, hwords, scanBehind, ← hend]
            exact hnext

/-! ## The search for the pattern -/

/-- A candidate is at the end of what is read. -/
theorem exists_front_of_candidate? {text word after : List Char}
    (hcandidate : candidate? text = some (word, after)) :
    ∃ front, text = front ++ word ++ after ∧ word ≠ [] := by
  unfold candidate? at hcandidate
  split at hcandidate
  · cases hcandidate
  · rename_i behind hbehind
    obtain ⟨keyword, htext, -⟩ := exists_of_behindFrom hbehind
    have hgap := List.takeWhile_append_dropWhile (p := isBlank) (l := behind)
    have hword := List.takeWhile_append_dropWhile (p := fun c => !isBlank c)
      (l := trimStart behind)
    simp only at hcandidate
    split at hcandidate
    · rename_i hfound
      cases hcandidate
      refine ⟨keyword ++ behind.takeWhile isBlank, ?_, ?_⟩
      · rw [List.append_assoc, List.append_assoc, hword, trimStart, hgap, htext]
      · rw [Bool.and_eq_true] at hfound
        simpa using hfound.2
    · cases hcandidate

/-- By induction on the search: the candidates are the words in the matches of the pattern. -/
theorem searches_candidates (previous : Option Char) (text : List Char) :
    fromPattern.Searches isWordChar previous text
      ((candidates previous text).map fun word => [word]) := by
  fun_induction candidates previous text with
  | case1 previous => exact .stop previous
  | case2 previous c rest hpart ih => exact .pass (Or.inl hpart) ih
  | case3 previous c rest hpart word after hcandidate ih =>
      have hmatch := match?_fromPattern (c :: rest)
      rw [hcandidate, Option.map_some] at hmatch
      obtain ⟨front, htext, hsome⟩ := exists_front_of_candidate? hcandidate
      rw [htext] at hmatch ⊢
      refine .found (by simpa using hpart) (by simp [hsome]) hmatch ?_
      rwa [List.getLast?_append_of_ne_nil front hsome]
  | case4 previous c rest hpart hcandidate ih =>
      have hmatch := match?_fromPattern (c :: rest)
      rw [hcandidate, Option.map_none] at hmatch
      exact .pass (Or.inr hmatch) ih

/-! ## Names -/

/-- What closes a statement, a list or a query is dropped from the end. -/
theorem nameOf?_eq_some_iff {word : List Char} {name : String} :
    nameOf? word = some name ↔
      word.head? ≠ some '(' ∧ name ≠ "" ∧
        name.toList = word.rdropWhile fun c => c ∈ [';', ')', ','] := by
  have hclosing : isClosing = fun c => decide (c ∈ [';', ')', ',']) := by
    funext c
    simp [isClosing, Bool.or_assoc]
  have hname : (word.reverse.dropWhile isClosing).reverse =
      word.rdropWhile fun c => c ∈ [';', ')', ','] := by rw [hclosing, List.rdropWhile]
  rw [nameOf?]
  simp only [hname]
  generalize word.rdropWhile (fun c => c ∈ [';', ')', ',']) = rest
  by_cases hopen : word.head? = some '('
  · simp [hopen]
  · rw [if_neg hopen]
    constructor
    · intro hsome
      split at hsome
      · cases hsome
      · rename_i hrest
        cases hsome
        refine ⟨hopen, fun hnone => hrest ?_, String.toList_ofList⟩
        simpa using hnone
    · rintro ⟨-, hsome, rfl⟩
      rw [if_neg (by simpa using hsome), String.ofList_toList]

theorem candidates_none (text : List Char) :
    candidates none text = scan isKeyword (words text) := by
  obtain ⟨word, rest, rfl, hsolid, hrest⟩ := exists_solid_append text
  rw [candidates_eq_scan none hsolid hrest]
  cases word with
  | nil => rw [isKeywordBehind_of_short (by decide), List.nil_append, scanBehind]
  | cons c word =>
      rw [words_solid_append (List.cons_ne_nil c word) hsolid hrest, scan_cons,
        isKeywordBehind_of_not_wordChar rfl]

theorem mem_toNames_extract {expression name : String} :
    name ∈ (extract expression).toNames ↔
      ∃ word ∈ scan isKeyword (words expression.toList), nameOf? word = some name := by
  rw [extract, NameSet.mem_toNames_ofNames, candidates_none, List.mem_filterMap]

/-- A name is a part of its word, from the beginning on. -/
theorem isName_of_nameOf? {word : List Char} {name : String}
    (hsolid : ∀ c ∈ word, isBlank c = false) (hname : nameOf? word = some name) :
    name ≠ "" ∧ (∀ c ∈ name.toList, isBlank c = false) ∧ name.toList.head? ≠ some '(' ∧
      ∀ c ∈ name.toList.getLast?, c ∉ [';', ')', ','] := by
  obtain ⟨hopen, hne, hrest⟩ := nameOf?_eq_some_iff.mp hname
  have hnil : name.toList ≠ [] := by simpa using hne
  obtain ⟨back, hword⟩ := List.rdropWhile_prefix (fun c => decide (c ∈ [';', ')', ','])) word
  rw [← hrest] at hword
  refine ⟨hne, fun c hc => hsolid c ?_, fun hhead => hopen ?_, fun c hc hclosing => ?_⟩
  · rw [← hword]
    exact List.mem_append_left back hc
  · rw [← hword, List.head?_append, hhead]
    rfl
  · rw [List.getLast?_eq_getLast_of_ne_nil hnil] at hc
    cases hc
    have hlast := List.rdropWhile_last_not (fun c => decide (c ∈ [';', ')', ','])) word
      (hrest ▸ hnil)
    simp only [← hrest, hclosing, decide_true, not_true_eq_false] at hlast

/-- Dependencies are extracted by a scan over words: the words it takes are those in the matches of
the pattern. So no name is empty, has white space in it, starts a nested query or ends with a sign
that closes something; and each keyword that has a word behind it is heeded, unless it was taken
itself. -/
theorem extract_eq_scan (expression : String) :
    (∀ found, fromPattern.Searches isWordChar none expression.toList found ↔
      found = (scan isKeyword (words expression.toList)).map fun word => [word]) ∧
    (∀ name, name ∈ (extract expression).toNames ↔
      ∃ word ∈ scan isKeyword (words expression.toList), word.head? ≠ some '(' ∧ name ≠ "" ∧
        name.toList = word.rdropWhile fun c => c ∈ [';', ')', ',']) ∧
    (∀ name ∈ (extract expression).toNames,
      name ≠ "" ∧ (∀ c ∈ name.toList, isBlank c = false) ∧ name.toList.head? ≠ some '(' ∧
        ∀ c ∈ name.toList.getLast?, c ∉ [';', ')', ',']) ∧
    (scanPlaces isKeyword 0 (words expression.toList)).map (·.1) =
      scan isKeyword (words expression.toList) ∧
    ∀ (place : ℕ) (keyword next : List Char),
      (words expression.toList)[place]? = some keyword →
      (words expression.toList)[place + 1]? = some next → isKeyword keyword = true →
        (keyword, place) ∈ scanPlaces isKeyword 0 (words expression.toList) ∨
          (next, place + 1) ∈ scanPlaces isKeyword 0 (words expression.toList) := by
  have hsearches := searches_candidates none expression.toList
  rw [candidates_none] at hsearches
  refine ⟨fun found => ⟨fun hfound => hfound.unique hsearches, fun hfound => hfound ▸ hsearches⟩,
    fun name => ?_, fun name hname => ?_, ?_, fun place keyword next hkeyword hnext his => ?_⟩
  · simp only [mem_toNames_extract, nameOf?_eq_some_iff]
  · obtain ⟨word, hword, hname⟩ := mem_toNames_extract.mp hname
    obtain ⟨-, hsolid⟩ := isWord_of_mem_words word (mem_of_mem_scan word hword)
    exact isName_of_nameOf? hsolid hname
  · rw [scanPlaces, map_scan, List.zipIdx_map_fst]
  · have htaken := taken_or_next_taken 0 hkeyword hnext his
    rwa [Nat.zero_add] at htaken

/-- The keyword of a nested query is heeded. -/
theorem extract_eq_scan_nested :
    let expression := "SELECT x FROM (SELECT y\nfrom core.users), z"
    (words expression.toList)[5]? = some "from".toList ∧
    (words expression.toList)[6]? = some "core.users),".toList ∧
    isKeyword "from".toList = true ∧
    (("from".toList, 5) ∈ scanPlaces isKeyword 0 (words expression.toList) ∨
      ("core.users),".toList, 6) ∈ scanPlaces isKeyword 0 (words expression.toList)) ∧
    "core.users" ∈ (extract expression).toNames ∧ "core.users".toList.head? ≠ some '(' := by
  intro expression
  obtain ⟨-, hnames, hproper, -, hheeded⟩ := extract_eq_scan expression
  have hkeyword : (words expression.toList)[5]? = some "from".toList := by decide +kernel
  have hnext : (words expression.toList)[6]? = some "core.users),".toList := by decide +kernel
  have his : isKeyword "from".toList = true := by decide +kernel
  have hname : "core.users" ∈ (extract expression).toNames :=
    (hnames "core.users").mpr ⟨"core.users),".toList, by decide +kernel⟩
  exact ⟨hkeyword, hnext, his, hheeded 5 _ _ hkeyword hnext his, hname,
    (hproper "core.users" hname).2.2.1⟩

/-- A keyword that is taken is passed over, and so a name is missed. -/
example : (extract "SELECT x FROM (SELECT y FROM\nfrom core.users), z").toNames = ["from"] := by
  decide +kernel

end Dependencies

end MetricCatalog
