/-
# Looking up keys

What is found in a map after a change is found at the changed key or was there
before. A map made from a list of entries with different keys holds exactly
these entries.
-/

import MetricCatalog.KeyMap

namespace MetricCatalog

namespace KeyMap

variable {κ α : Type} [KeyOrder κ]

/-- Of two keys one stands before the other, unless they are the same. -/
theorem before_trichotomy (first second : κ) :
    before first second = true ∨ first = second ∨ before second first = true := by
  by_cases hfirst : before first second = true
  · exact Or.inl hfirst
  · by_cases hsecond : before second first = true
    · exact Or.inr (Or.inr hsecond)
    · exact Or.inr (Or.inl (KeyOrder.eq_of_not_before
        (by simpa using hfirst) (by simpa using hsecond)))

theorem not_before_of_before {first second : κ} (hbefore : before first second = true) :
    before second first = false := by
  rw [Bool.eq_false_iff]
  intro hother
  have hself := KeyOrder.before_trans hbefore hother
  rw [KeyOrder.before_irrefl] at hself
  cases hself

theorem lookup_put_self (key : κ) (value : α) (entries : List (κ × α)) :
    lookup key (put key value entries) = some value := by
  induction entries with
  | nil => simp [put, lookup, KeyOrder.before_irrefl]
  | cons head rest ih =>
      obtain ⟨other, old⟩ := head
      rcases before_trichotomy other key with hbefore | rfl | hafter
      · simp [put, lookup, hbefore, ih]
      · simp [put, lookup, KeyOrder.before_irrefl]
      · simp [put, lookup, hafter, not_before_of_before hafter, KeyOrder.before_irrefl]

/-- The entries need not be in order for this: a search gives up no earlier in the changed list
than in the old one. -/
theorem lookup_put_of_ne {key other : κ} (hne : other ≠ key) (value : α)
    (entries : List (κ × α)) : lookup other (put key value entries) = lookup other entries := by
  induction entries with
  | nil =>
      rcases before_trichotomy key other with hbefore | rfl | hafter
      · simp [put, lookup, hbefore]
      · exact absurd rfl hne
      · simp [put, lookup, hafter, not_before_of_before hafter]
  | cons head rest ih =>
      obtain ⟨present, old⟩ := head
      rcases before_trichotomy present key with hbefore | rfl | hafter
      · simp only [put, lookup, hbefore, if_true, ih]
      · rcases before_trichotomy present other with hlater | rfl | hearlier
        · simp [put, lookup, hlater, KeyOrder.before_irrefl]
        · exact absurd rfl hne
        · simp [put, lookup, hearlier, not_before_of_before hearlier, KeyOrder.before_irrefl]
      · rcases before_trichotomy key other with hlater | rfl | hearlier
        · simp [put, lookup, hafter, not_before_of_before hafter, hlater]
        · exact absurd rfl hne
        · have hfirst := KeyOrder.before_trans hearlier hafter
          simp [put, lookup, hafter, not_before_of_before hafter, hearlier,
            not_before_of_before hearlier, hfirst, not_before_of_before hfirst]

/-- In an ordered list nothing is found at a key before its first entry. -/
theorem lookup_eq_none {key : κ} {entries : List (κ × α)}
    (hbefore : ∀ entry ∈ entries, before key entry.1 = true) : lookup key entries = none := by
  cases entries with
  | nil => rfl
  | cons head rest =>
      have hhead := hbefore head List.mem_cons_self
      rw [lookup, if_neg (by simp [not_before_of_before hhead]), if_pos hhead]

theorem lookup_remove_self {key : κ} {entries : List (κ × α)}
    (hsorted : entries.Pairwise fun first second => before first.1 second.1 = true) :
    lookup key (remove key entries) = none := by
  induction entries with
  | nil => rfl
  | cons head rest ih =>
      obtain ⟨present, old⟩ := head
      obtain ⟨hhead, hrest⟩ := List.pairwise_cons.mp hsorted
      rcases before_trichotomy present key with hbefore | rfl | hafter
      · simp only [remove, lookup, hbefore, if_true, ih hrest]
      · rw [remove, KeyOrder.before_irrefl]
        exact lookup_eq_none hhead
      · simp [remove, lookup, hafter, not_before_of_before hafter]

theorem lookup_remove_of_ne {key other : κ} (hne : other ≠ key) {entries : List (κ × α)}
    (hsorted : entries.Pairwise fun first second => before first.1 second.1 = true) :
    lookup other (remove key entries) = lookup other entries := by
  induction entries with
  | nil => rfl
  | cons head rest ih =>
      obtain ⟨present, old⟩ := head
      obtain ⟨hhead, hrest⟩ := List.pairwise_cons.mp hsorted
      rcases before_trichotomy present key with hbefore | rfl | hafter
      · simp only [remove, lookup, hbefore, if_true, ih hrest]
      · rw [remove, KeyOrder.before_irrefl]
        rcases before_trichotomy present other with hlater | rfl | hearlier
        · simp [lookup, hlater]
        · exact absurd rfl hne
        · have hnone := lookup_eq_none fun entry hentry =>
            KeyOrder.before_trans hearlier (hhead entry hentry)
          simp [lookup, hearlier, not_before_of_before hearlier, hnone]
      · simp [remove, hafter, not_before_of_before hafter]

@[simp] theorem find?_empty (key : κ) : (empty : KeyMap κ α).find? key = none := rfl

@[simp] theorem find?_insert_self (map : KeyMap κ α) (key : κ) (value : α) :
    (map.insert key value).find? key = some value :=
  lookup_put_self key value map.entries

theorem find?_insert_of_ne (map : KeyMap κ α) {key other : κ} (hne : other ≠ key) (value : α) :
    (map.insert key value).find? other = map.find? other :=
  lookup_put_of_ne hne value map.entries

theorem find?_erase_self (map : KeyMap κ α) (key : κ) : (map.erase key).find? key = none :=
  lookup_remove_self map.sorted

theorem find?_erase_of_ne (map : KeyMap κ α) {key other : κ} (hne : other ≠ key) :
    (map.erase key).find? other = map.find? other :=
  lookup_remove_of_ne hne map.sorted

theorem find?_insert [DecidableEq κ] (map : KeyMap κ α) (key other : κ) (value : α) :
    (map.insert key value).find? other = if other = key then some value else map.find? other := by
  split
  · rename_i hsame
    rw [hsame, find?_insert_self]
  · rename_i hne
    exact find?_insert_of_ne map hne value

theorem find?_erase [DecidableEq κ] (map : KeyMap κ α) (key other : κ) :
    (map.erase key).find? other = if other = key then none else map.find? other := by
  split
  · rename_i hsame
    rw [hsame, find?_erase_self]
  · rename_i hne
    exact find?_erase_of_ne map hne

/-- Entries with other keys do not change what is found. -/
theorem find?_foldl_insert_of_notMem (entries : List (κ × α)) (map : KeyMap κ α) {key : κ}
    (hkey : key ∉ entries.map (·.1)) :
    (entries.foldl (fun map entry => map.insert entry.1 entry.2) map).find? key =
      map.find? key := by
  induction entries generalizing map with
  | nil => rfl
  | cons entry rest ih =>
      simp only [List.map_cons, List.mem_cons, not_or] at hkey
      rw [List.foldl_cons, ih _ hkey.2, find?_insert_of_ne map hkey.1]

/-- Without a repeated key every entry of a list is found in its map. -/
theorem find?_ofList {entries : List (κ × α)} (hnodup : (entries.map (·.1)).Nodup)
    {entry : κ × α} (hentry : entry ∈ entries) :
    (ofList entries).find? entry.1 = some entry.2 := by
  unfold ofList
  generalize (empty : KeyMap κ α) = map
  induction entries generalizing map with
  | nil => cases hentry
  | cons head rest ih =>
      obtain ⟨hhead, hrest⟩ := List.nodup_cons.mp hnodup
      rw [List.foldl_cons]
      rcases List.mem_cons.mp hentry with rfl | hlater
      · rw [find?_foldl_insert_of_notMem rest _ hhead, find?_insert_self]
      · exact ih hrest hlater _

/-! ## Maps that find the same -/

theorem lookup_cons_self (key : κ) (value : α) (rest : List (κ × α)) :
    lookup key ((key, value) :: rest) = some value := by
  simp [lookup, KeyOrder.before_irrefl]

theorem lookup_cons_of_before {first key : κ} (hbefore : before first key = true) (value : α)
    (rest : List (κ × α)) : lookup key ((first, value) :: rest) = lookup key rest := by
  simp [lookup, hbefore]

/-- By induction on both lists: what is found at the first key of one has to be found in the
other. -/
theorem eq_of_lookup_eq {first second : List (κ × α)}
    (hfirst : first.Pairwise fun entry later => before entry.1 later.1 = true)
    (hsecond : second.Pairwise fun entry later => before entry.1 later.1 = true)
    (hlookup : ∀ key, lookup key first = lookup key second) : first = second := by
  induction first generalizing second with
  | nil =>
      cases second with
      | nil => rfl
      | cons head rest =>
          have hhead := hlookup head.1
          rw [lookup_cons_self] at hhead
          cases hhead
  | cons head rest ih =>
      obtain ⟨hlater, hrest⟩ := List.pairwise_cons.mp hfirst
      cases second with
      | nil =>
          have hhead := hlookup head.1
          rw [lookup_cons_self] at hhead
          cases hhead
      | cons other more =>
          obtain ⟨hothers, hmore⟩ := List.pairwise_cons.mp hsecond
          have hhead := hlookup head.1
          have hother := hlookup other.1
          rw [lookup_cons_self] at hhead hother
          have hkey : head.1 = other.1 := by
            rcases before_trichotomy head.1 other.1 with hbefore | hsame | hbefore
            · rw [lookup_eq_none (List.forall_mem_cons.mpr ⟨hbefore, fun entry hentry =>
                KeyOrder.before_trans hbefore (hothers entry hentry)⟩)] at hhead
              cases hhead
            · exact hsame
            · rw [lookup_eq_none (List.forall_mem_cons.mpr ⟨hbefore, fun entry hentry =>
                KeyOrder.before_trans hbefore (hlater entry hentry)⟩)] at hother
              cases hother
          obtain ⟨key, value⟩ := head
          obtain ⟨otherKey, otherValue⟩ := other
          obtain rfl : key = otherKey := hkey
          rw [lookup_cons_self] at hhead
          obtain rfl := Option.some.inj hhead
          congr 1
          refine ih hrest hmore fun wanted => ?_
          rcases before_trichotomy key wanted with hbefore | rfl | hbefore
          · have hwanted := hlookup wanted
            rwa [lookup_cons_of_before hbefore, lookup_cons_of_before hbefore] at hwanted
          · rw [lookup_eq_none hlater, lookup_eq_none hothers]
          · rw [lookup_eq_none fun entry hentry =>
                KeyOrder.before_trans hbefore (hlater entry hentry),
              lookup_eq_none fun entry hentry =>
                KeyOrder.before_trans hbefore (hothers entry hentry)]

/-- Two maps in which the same is found at every key are one map. -/
theorem ext_find? {first second : KeyMap κ α}
    (hfind : ∀ key, first.find? key = second.find? key) : first = second :=
  ext_entries (eq_of_lookup_eq first.sorted second.sorted hfind)

/-! ## A map from its own entries -/

/-- A key behind all others is put at the end. -/
theorem put_of_before {key : κ} {entries : List (κ × α)}
    (hbefore : ∀ entry ∈ entries, before entry.1 key = true) (value : α) :
    put key value entries = entries ++ [(key, value)] := by
  induction entries with
  | nil => rfl
  | cons head rest ih =>
      obtain ⟨hhead, hrest⟩ := List.forall_mem_cons.mp hbefore
      rw [put, if_pos hhead, ih hrest, List.cons_append]

theorem entries_foldl_insert {entries : List (κ × α)} {map : KeyMap κ α}
    (hsorted : (map.entries ++ entries).Pairwise fun first second =>
      before first.1 second.1 = true) :
    (entries.foldl (fun map entry => map.insert entry.1 entry.2) map).entries =
      map.entries ++ entries := by
  induction entries generalizing map with
  | nil => exact (List.append_nil _).symm
  | cons entry rest ih =>
      have hinsert : (map.insert entry.1 entry.2).entries = map.entries ++ [entry] :=
        put_of_before (fun other hother => (List.pairwise_append.mp hsorted).2.2 other hother entry
          List.mem_cons_self) entry.2
      rw [List.foldl_cons, ih (by simpa [hinsert] using hsorted), hinsert, List.append_assoc,
        List.singleton_append]

/-- The entries of a map make the map again. -/
theorem ofList_entries (map : KeyMap κ α) : ofList map.entries = map :=
  ext_entries (entries_foldl_insert map.sorted)

/-! ## Changes at a key -/

/-- The map with a value at a key, or with none. -/
def change (map : KeyMap κ α) (key : κ) : Option α → KeyMap κ α
  | some value => map.insert key value
  | none => map.erase key

@[simp] theorem find?_change_self (map : KeyMap κ α) (key : κ) (content : Option α) :
    (map.change key content).find? key = content := by
  cases content with
  | none => exact find?_erase_self map key
  | some value => exact find?_insert_self map key value

theorem find?_change_of_ne (map : KeyMap κ α) {key other : κ} (hne : other ≠ key)
    (content : Option α) : (map.change key content).find? other = map.find? other := by
  cases content with
  | none => exact find?_erase_of_ne map hne
  | some value => exact find?_insert_of_ne map hne value

/-- It does not matter which of two keys is changed first. -/
theorem change_comm (map : KeyMap κ α) {first second : κ} (hne : first ≠ second)
    (content other : Option α) :
    (map.change first content).change second other =
      (map.change second other).change first content := by
  apply ext_find?
  intro key
  by_cases hfirst : key = first
  · subst hfirst
    rw [find?_change_of_ne _ hne, find?_change_self, find?_change_self]
  · rw [find?_change_of_ne (map.change second other) hfirst]
    by_cases hsecond : key = second
    · subst hsecond
      rw [find?_change_self, find?_change_self]
    · rw [find?_change_of_ne _ hsecond, find?_change_of_ne _ hfirst, find?_change_of_ne _ hsecond]

/-! ## Changed values -/

variable {β : Type} (f : α → β)

/-- The map with a function applied to its values. -/
def mapValues (map : KeyMap κ α) : KeyMap κ β :=
  ⟨map.entries.map fun entry => (entry.1, f entry.2), List.pairwise_map.mpr map.sorted⟩

theorem values_mapValues (map : KeyMap κ α) : (map.mapValues f).values = map.values.map f := by
  simp [values, mapValues]

@[simp] theorem find?_mapValues (map : KeyMap κ α) (key : κ) :
    (map.mapValues f).find? key = (map.find? key).map f := by
  simp only [find?, mapValues]
  induction map.entries with
  | nil => rfl
  | cons head rest ih =>
      simp only [List.map_cons, lookup, ih]
      split
      · rfl
      · split <;> rfl

theorem mapValues_insert (map : KeyMap κ α) (key : κ) (value : α) :
    (map.insert key value).mapValues f = (map.mapValues f).insert key (f value) := by
  apply ext_find?
  intro wanted
  by_cases hkey : wanted = key
  · simp [hkey]
  · simp [find?_insert_of_ne _ hkey]

theorem mapValues_ofList (entries : List (κ × α)) :
    (ofList entries).mapValues f = ofList (entries.map fun entry => (entry.1, f entry.2)) := by
  have hfold : ∀ map : KeyMap κ α,
      (entries.foldl (fun map entry => map.insert entry.1 entry.2) map).mapValues f =
        (entries.map fun entry => (entry.1, f entry.2)).foldl
          (fun map entry => map.insert entry.1 entry.2) (map.mapValues f) := by
    induction entries with
    | nil => exact fun map => rfl
    | cons entry rest ih =>
        intro map
        rw [List.foldl_cons, ih, mapValues_insert]
        rfl
  exact hfold empty

end KeyMap

end MetricCatalog
