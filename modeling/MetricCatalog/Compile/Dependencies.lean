/-
# Dependencies of expressions

The nodes an expression depends on are the words behind the word `FROM`, in any
case. This is no reading of the statement: joins are missed, and a `FROM` in a
string is taken for one.
-/

import MetricCatalog.KeyMap
import MetricCatalog.Text.Blank
import MetricCatalog.Text.Letter

namespace MetricCatalog

/-- A set of names, in order. -/
abbrev NameSet := KeyMap String Unit

namespace NameSet

/-- The set of the names in a list. -/
def ofNames (names : List String) : NameSet :=
  KeyMap.ofList (names.map fun name => (name, ()))

/-- The names, in order. -/
def toNames (names : NameSet) : List String := KeyMap.keys names

end NameSet

namespace Dependencies

open Text

/-- The text behind the word `FROM` in any case, if it starts with it. -/
def behindFrom : List Char → Option (List Char)
  | f :: r :: o :: m :: rest =>
      if f.toLower = 'f' && r.toLower = 'r' && o.toLower = 'o' && m.toLower = 'm' then some rest
      else none
  | _ => none

/-- The word behind `FROM` and white space, and the text behind the word. -/
def candidate? (text : List Char) : Option (List Char × List Char) :=
  match behindFrom text with
  | none => none
  | some behind =>
      let rest := trimStart behind
      let word := rest.takeWhile fun c => !isBlank c
      if behind.head?.any isBlank && !word.isEmpty then
        some (word, rest.dropWhile fun c => !isBlank c)
      else none

theorem length_behindFrom {text rest : List Char} (hrest : behindFrom text = some rest) :
    rest.length < text.length := by
  unfold behindFrom at hrest
  split at hrest
  · split at hrest
    · cases hrest
      simp only [List.length_cons]
      omega
    · cases hrest
  · cases hrest

theorem length_dropWhile_le {α : Type} (isPart : α → Bool) (items : List α) :
    (items.dropWhile isPart).length ≤ items.length := by
  induction items with
  | nil => simp
  | cons item rest ih =>
      simp only [List.dropWhile_cons]
      split
      · exact Nat.le_succ_of_le ih
      · exact Nat.le_refl _

theorem length_candidate {text word rest : List Char}
    (hcandidate : candidate? text = some (word, rest)) : rest.length < text.length := by
  unfold candidate? at hcandidate
  split at hcandidate
  · cases hcandidate
  · rename_i behind hbehind
    have hlength := length_behindFrom hbehind
    dsimp only at hcandidate
    split at hcandidate
    · simp only [Option.some.injEq, Prod.mk.injEq] at hcandidate
      rw [← hcandidate.2]
      have hfirst := length_dropWhile_le (fun c => !isBlank c) (trimStart behind)
      have hsecond : (trimStart behind).length ≤ behind.length :=
        length_dropWhile_le isBlank behind
      omega
    · cases hcandidate

/-- The words behind each `FROM`, from left to right. A `FROM` counts where the character before
it is not part of a word, and a word taken once is not looked into again. -/
def candidates (previous : Option Char) (text : List Char) : List (List Char) :=
  match text with
  | [] => []
  | c :: rest =>
      if previous.any isWordChar then candidates (some c) rest
      else
        match _hcandidate : candidate? (c :: rest) with
        | some (word, after) => word :: candidates word.getLast? after
        | none => candidates (some c) rest
termination_by text.length
decreasing_by
  · simp
  · exact length_candidate (by assumption)
  · simp

/-- Whether the character is dropped from the end of a word. -/
def isClosing (c : Char) : Bool := c = ';' || c = ')' || c = ','

/-- The name a word gives: none for the start of a nested query, and otherwise what remains
without the signs that close a statement, a list or a query. -/
def nameOf? (word : List Char) : Option String :=
  if word.head? = some '(' then none
  else
    let name := (word.reverse.dropWhile isClosing).reverse
    if name.isEmpty then none else some (String.ofList name)

/-- The names an expression depends on. -/
def extract (expression : String) : NameSet :=
  NameSet.ofNames ((candidates none expression.toList).filterMap nameOf?)

/-- One line for each node, with the nodes it depends on. -/
def render (dependencies : KeyMap String NameSet) : String :=
  String.join (dependencies.entries.map fun (name, names) =>
    match names.toNames with
    | [] => s!"{name}\n"
    | names => name ++ " <- " ++ ", ".intercalate names ++ "\n")

end Dependencies

end MetricCatalog
