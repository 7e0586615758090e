/-
# Where the path of an embedded database is looked for

The parser looks through some characters of a URI, but what stands behind the
scheme is cut out of the text as it was given, by the length of the scheme. The
cut is right if nothing was looked through before the path begins. Otherwise the
slashes are not found where they are looked for, and a database that the parser
sees in a file is in memory.
-/

import Mathlib.Data.List.Basic
import MetricCatalog.Proofs.Text.Blank
import MetricCatalog.Source.Kind

namespace MetricCatalog

namespace ConnectionUri

open Text

/-! ## What the parser sees -/

/-- What the parser sees of a text that goes on behind it. -/
def visibleFront (text : List Char) : List Char :=
  (text.dropWhile isPadding).filter fun c => !isSkipped c

/-- What the parser sees of a text that something stands in front of. -/
def visibleBack (text : List Char) : List Char :=
  (text.reverse.dropWhile isPadding).reverse.filter fun c => !isSkipped c

theorem isSkipped_of_not_isPadding {c : Char} (hsolid : isPadding c = false) :
    isSkipped c = false := by
  rw [Bool.eq_false_iff]
  intro hskipped
  have hcases : (c = '\t' ∨ c = '\n') ∨ c = '\r' := by simpa [isSkipped] using hskipped
  rcases hcases with (rfl | rfl) | rfl <;> exact absurd hsolid (by decide)

theorem dropWhile_append_cons {isDropped : Char → Bool} {c : Char} (hkept : isDropped c = false)
    (front rest : List Char) :
    (front ++ c :: rest).dropWhile isDropped = front.dropWhile isDropped ++ c :: rest := by
  rw [List.dropWhile_append]
  split
  · rename_i hempty
    rw [List.isEmpty_iff.mp hempty, List.dropWhile_cons_of_neg (by simp [hkept]), List.nil_append]
  · rfl

/-- A solid character parts what is seen in front of it from what is seen behind it. -/
theorem visible_append_cons {c : Char} (hsolid : isPadding c = false) (front rest : List Char) :
    visible (front ++ c :: rest) = visibleFront front ++ c :: visibleBack rest := by
  have hshown := isSkipped_of_not_isPadding hsolid
  rw [visible, dropWhile_append_cons hsolid, List.reverse_append, List.reverse_cons,
    List.append_assoc, List.singleton_append, dropWhile_append_cons hsolid, List.reverse_append,
    List.reverse_cons, List.reverse_reverse, List.append_assoc, List.singleton_append,
    List.filter_append, List.filter_cons_of_pos (by simp [hshown])]
  rfl

theorem visibleFront_sublist (text : List Char) : (visibleFront text).Sublist text :=
  List.filter_sublist.trans (List.dropWhile_sublist isPadding)

/-- Nothing is looked through in a text of solid characters. -/
theorem visibleFront_eq_self {text : List Char} (hsolid : ∀ c ∈ text, isPadding c = false) :
    visibleFront text = text := by
  have hkept : text.dropWhile isPadding = text := by
    rw [List.dropWhile_eq_self_iff]
    intro hsome
    simp [hsolid]
  rw [visibleFront, hkept, List.filter_eq_self]
  intro c hc
  simp [isSkipped_of_not_isPadding (hsolid c hc)]

/-! ## The cut behind the scheme -/

variable {scheme after tail : List Char}

/-- A slash that stands as far into a text as the scheme and its colon are long stands behind them.
No slash is seen in front of the colon, so as much is seen there as the cut leaves out, and this is
all of it. -/
theorem eq_append_of_drop {raw : List Char} (hplain : '/' ∉ scheme)
    (hvisible : visible raw = scheme ++ ':' :: after)
    (hdrop : raw.drop (scheme.length + 1) = '/' :: tail) :
    raw = scheme ++ ':' :: '/' :: tail := by
  have hsplit := List.take_append_drop (scheme.length + 1) raw
  have hlength := List.length_take_le (scheme.length + 1) raw
  rw [hdrop] at hsplit
  generalize raw.take (scheme.length + 1) = front at hsplit hlength
  have hseen : visibleFront front ++ '/' :: visibleBack tail = (scheme ++ [':']) ++ after := by
    rw [← visible_append_cons (by decide), hsplit, hvisible, List.append_assoc]
    rfl
  have hstart : (scheme ++ [':']).Sublist (visibleFront front) := by
    rcases List.append_eq_append_iff.mp hseen with ⟨more, hmore, hrest⟩ | ⟨more, hmore, -⟩
    · cases more with
      | nil => rw [hmore, List.append_nil]
      | cons c more =>
          obtain ⟨rfl, -⟩ := List.cons.inj hrest
          have hslash : '/' ∈ scheme ++ [':'] := hmore ▸ List.mem_append_right _ List.mem_cons_self
          simp [hplain] at hslash
    · rw [hmore]
      exact List.sublist_append_left _ more
  have hfront : scheme ++ [':'] = front :=
    (hstart.trans (visibleFront_sublist front)).eq_of_length_le (by simpa using hlength)
  rw [← hsplit, ← hfront, List.append_assoc]
  rfl

/-- What stands behind the scheme is found if the text starts with what the parser sees up to there,
and nothing is found otherwise. -/
theorem remainder_cases {uri : ConnectionUri} (hlength : uri.scheme.length = scheme.length)
    (hplain : '/' ∉ scheme) (hvisible : visible uri.raw.toList = scheme ++ ':' :: after) :
    (∃ rest, uri.raw.toList = scheme ++ ':' :: '/' :: '/' :: rest ∧
      uri.remainder = String.ofList rest) ∨
    (∀ rest, uri.raw.toList ≠ scheme ++ ':' :: '/' :: '/' :: rest) ∧ uri.remainder = "" := by
  rw [remainder, hlength]
  split
  · rename_i rest hdrop
    exact Or.inl ⟨rest, eq_append_of_drop hplain hvisible hdrop, rfl⟩
  · rename_i hnone
    refine Or.inr ⟨fun rest hraw => hnone rest ?_, rfl⟩
    rw [hraw, List.append_cons, List.drop_left' (by simp)]

/-! ## Reading a path -/

theorem isSchemeLetter_iff {c : Char} :
    isSchemeLetter c = true ↔ 'A' ≤ c ∧ c ≤ 'Z' ∨ 'a' ≤ c ∧ c ≤ 'z' := by
  change (decide ('A' ≤ c ∧ c ≤ 'Z') || decide ('a' ≤ c) && decide (c ≤ 'z')) = true ↔ _
  simp only [Bool.or_eq_true, Bool.and_eq_true, decide_eq_true_eq]

theorem isSchemeLetter_of_toLower {c : Char} (hlower : c.toLower ∈ "sqlite".toList) :
    isSchemeLetter c = true := by
  have hletters : ∀ d ∈ "sqlite".toList, isSchemeLetter d = true := List.all_eq_true.mp (by decide)
  by_cases hupper : 'A' ≤ c ∧ c ≤ 'Z'
  · exact isSchemeLetter_iff.mpr (Or.inl hupper)
  · have hsame : c.toLower = c := dif_neg hupper
    exact hletters c (hsame ▸ hlower)

theorem not_isPadding_of_isSchemeLetter {c : Char} (hletter : isSchemeLetter c = true) :
    isPadding c = false := by
  rw [isPadding, decide_eq_false_iff_not, Nat.not_le]
  rcases isSchemeLetter_iff.mp hletter with ⟨hupper, -⟩ | ⟨hlower, -⟩
  · exact Nat.lt_of_lt_of_le (show 32 < 'A'.toNat by decide) hupper
  · exact Nat.lt_of_lt_of_le (show 32 < 'a'.toNat by decide) hlower

theorem splitScheme_append {scheme rest : List Char} (hsome : scheme ≠ [])
    (hletters : ∀ c ∈ scheme, isSchemeLetter c = true) :
    splitScheme (scheme ++ ':' :: rest) = some (scheme.map Char.toLower, rest) := by
  have hchars : ∀ c ∈ scheme, isSchemeChar c = true := fun c hc => by
    simp [isSchemeChar, Char.isAlphanum, show c.isAlpha = true from hletters c hc]
  have hcolon : ∀ c ∈ (':' :: rest).head?, isSchemeChar c = false := by simp; decide
  have hhead : (scheme ++ ':' :: rest).head?.any isSchemeLetter = true := by
    cases scheme with
    | nil => exact absurd rfl hsome
    | cons c scheme => exact hletters c List.mem_cons_self
  rw [splitScheme, hhead, dropWhile_run hchars hcolon, takeWhile_run hchars hcolon]
  rfl

theorem parse_of_visible {text : String} {scheme path : List Char} (hsome : scheme ≠ [])
    (hletters : ∀ c ∈ scheme, isSchemeLetter c = true)
    (hvisible : visible (trim text.toList) = scheme ++ ':' :: '/' :: '/' :: '/' :: path) :
    parse text = .ok ⟨trimmed text, String.ofList (scheme.map Char.toLower), none⟩ := by
  rw [parse, trimmed, String.toList_ofList, hvisible, splitScheme_append hsome hletters]
  rfl

/-! ## Where an embedded database lives -/

variable {uri : ConnectionUri} {rest : List Char}

theorem embeddedPath_of_slash (hrest : rest ≠ [])
    (hremainder : uri.remainder = String.ofList ('/' :: rest)) :
    uri.embeddedPath = .file (String.ofList rest) := by
  rw [embeddedPath, hremainder, String.toList_ofList]
  simp [hrest]

theorem embeddedPath_of_no_slash (hremainder : uri.remainder = String.ofList rest)
    (hslash : ∀ path, rest ≠ '/' :: path) : uri.embeddedPath = .memory := by
  rw [embeddedPath, hremainder, String.toList_ofList]
  split
  · exact absurd rfl (hslash _)
  · rfl

/-- A URI with the scheme of embedded databases, three slashes and a path leads to a file if the
text itself starts with the scheme and the slashes. The path is then what stands behind them, and
the parser sees it as the path of the URI. If a character that the parser looks through stands
before the path begins, the URI leads to a database in memory. -/
theorem embeddedPath_of_visible {text : String} {scheme path : List Char}
    (hscheme : scheme.map Char.toLower = "sqlite".toList) (hpath : path ≠ [])
    (hvisible : visible (trim text.toList) = scheme ++ ':' :: '/' :: '/' :: '/' :: path) :
    ∃ uri, parse text = .ok uri ∧ uri.scheme = "sqlite" ∧
      ((∃ rest, trim text.toList = scheme ++ ':' :: '/' :: '/' :: '/' :: rest ∧
          visibleBack rest = path ∧ uri.embeddedPath = .file (String.ofList rest)) ∨
        (∀ rest, trim text.toList ≠ scheme ++ ':' :: '/' :: '/' :: '/' :: rest) ∧
          uri.embeddedPath = .memory) := by
  have hletters : ∀ c ∈ scheme, isSchemeLetter c = true := fun c hc =>
    isSchemeLetter_of_toLower (hscheme ▸ List.mem_map_of_mem hc)
  have hsome : scheme ≠ [] := by
    rintro rfl
    cases hscheme
  have hplain : '/' ∉ scheme := fun hslash => absurd (hletters _ hslash) (by decide)
  have hseen : ∀ rest, trim text.toList = scheme ++ ':' :: '/' :: '/' :: '/' :: rest →
      visibleBack rest = path := by
    intro rest hraw
    have hsolid : ∀ c ∈ scheme ++ [':', '/', '/'], isPadding c = false := by
      rw [List.forall_mem_append]
      exact ⟨fun c hc => not_isPadding_of_isSchemeLetter (hletters c hc), by simp [isPadding]⟩
    have hparts := visible_append_cons (c := '/') (by decide) (scheme ++ [':', '/', '/']) rest
    rw [visibleFront_eq_self hsolid, List.append_assoc, List.append_assoc] at hparts
    have hsame := hparts.symm.trans ((congrArg visible hraw).symm.trans hvisible)
    simpa using hsame
  refine ⟨_, parse_of_visible hsome hletters hvisible, by rw [hscheme]; rfl, ?_⟩
  generalize huri : (⟨trimmed text, String.ofList (scheme.map Char.toLower), none⟩ :
    ConnectionUri) = uri
  have hraw : uri.raw.toList = trim text.toList := by rw [← huri, trimmed, String.toList_ofList]
  have hlength : uri.scheme.length = scheme.length := by rw [← huri]; simp
  rw [← hraw] at hvisible hseen ⊢
  rcases remainder_cases hlength hplain hvisible with
    ⟨rest, hstart, hremainder⟩ | ⟨hnone, hremainder⟩
  · by_cases hslash : ∃ path, rest = '/' :: path
    · obtain ⟨path, rfl⟩ := hslash
      have hpath' := hseen path hstart
      refine Or.inl ⟨path, hstart, hpath', embeddedPath_of_slash ?_ hremainder⟩
      rintro rfl
      exact hpath hpath'.symm
    · refine Or.inr ⟨fun path hpath' => hslash ⟨path, ?_⟩, ?_⟩
      · simpa using hstart.symm.trans hpath'
      · exact embeddedPath_of_no_slash hremainder fun path hrest => hslash ⟨path, hrest⟩
  · have hempty : uri.remainder = String.ofList [] := hremainder
    exact Or.inr ⟨fun rest => hnone _, embeddedPath_of_no_slash hempty fun _ => by simp⟩

/-- A tab in the path and a control character behind it make no difference. -/
theorem embeddedPath_of_visible_padded :
    "SQLite".toList.map Char.toLower = "sqlite".toList ∧ "warehouse.db".toList ≠ [] ∧
      visible (trim "SQLite:///ware\thouse.db\x01".toList) =
        "SQLite".toList ++ ':' :: '/' :: '/' :: '/' :: "warehouse.db".toList ∧
      ∃ uri, parse "SQLite:///ware\thouse.db\x01" = .ok uri ∧ uri.scheme = "sqlite" ∧
        uri.embeddedPath = .file "ware\thouse.db\x01" := by
  have hscheme : "SQLite".toList.map Char.toLower = "sqlite".toList := by decide
  have hpath : "warehouse.db".toList ≠ [] := by decide
  have hvisible : visible (trim "SQLite:///ware\thouse.db\x01".toList) =
      "SQLite".toList ++ ':' :: '/' :: '/' :: '/' :: "warehouse.db".toList := by decide
  have htrim : trim "SQLite:///ware\thouse.db\x01".toList =
      "SQLite".toList ++ ':' :: '/' :: '/' :: '/' :: "ware\thouse.db\x01".toList := by decide
  obtain ⟨uri, hparse, hsame, ⟨rest, hstart, -, hfile⟩ | ⟨hnone, -⟩⟩ :=
    embeddedPath_of_visible hscheme hpath hvisible
  · obtain rfl : rest = "ware\thouse.db\x01".toList := by simpa using hstart.symm.trans htrim
    exact ⟨hscheme, hpath, hvisible, uri, hparse, hsame, hfile⟩
  · exact absurd htrim (hnone _)

/-- A tab before the slashes sends a database that the parser sees in a file to memory. -/
theorem exists_file_in_memory :
    visible (trim "sqlite:\t///warehouse.db".toList) = "sqlite:///warehouse.db".toList ∧
      ∃ uri, parse "sqlite:\t///warehouse.db" = .ok uri ∧ uri.scheme = "sqlite" ∧
        uri.embeddedPath = .memory :=
  ⟨by decide, ⟨"sqlite:\t///warehouse.db", "sqlite", none⟩, by decide, rfl, by decide⟩

end ConnectionUri

end MetricCatalog
