/-
# Maps with ordered keys

A finite map kept as the list of its entries, in strictly increasing order of
the keys. Two maps with the same entries are therefore the same value, and a
walk through a map needs no sorting.
-/

namespace MetricCatalog

/-- A strict linear order by which the entries of a map are kept. -/
class KeyOrder (κ : Type) where
  /-- Whether the first key stands before the second. -/
  before : κ → κ → Bool
  /-- No key stands before itself. -/
  before_irrefl : ∀ key, before key key = false
  /-- The order is transitive. -/
  before_trans : ∀ {first second third},
    before first second = true → before second third = true → before first third = true
  /-- Of two different keys one stands before the other. -/
  eq_of_not_before : ∀ {first second},
    before first second = false → before second first = false → first = second

export KeyOrder (before)

/-- Texts are ordered by their code points. -/
instance : KeyOrder String where
  before first second := decide (first < second)
  before_irrefl key := by simp
  before_trans hfirst hsecond := by
    simp only [decide_eq_true_eq] at *
    exact String.lt_trans hfirst hsecond
  eq_of_not_before hfirst hsecond := by
    simp only [decide_eq_false_iff_not, String.not_lt] at *
    exact String.le_antisymm hsecond hfirst

/-- Natural numbers are ordered by size. -/
instance : KeyOrder Nat where
  before first second := decide (first < second)
  before_irrefl key := by simp
  before_trans hfirst hsecond := by
    simp only [decide_eq_true_eq] at *
    omega
  eq_of_not_before hfirst hsecond := by
    simp only [decide_eq_false_iff_not] at *
    omega

/-- Lists are ordered by their first difference. -/
def listBefore {κ : Type} [KeyOrder κ] : List κ → List κ → Bool
  | [], [] => false
  | [], _ :: _ => true
  | _ :: _, [] => false
  | first :: left, second :: right =>
      if before first second then true
      else if before second first then false
      else listBefore left right

instance {κ : Type} [KeyOrder κ] : KeyOrder (List κ) where
  before := listBefore
  before_irrefl keys := by
    induction keys with
    | nil => rfl
    | cons key rest ih => simp [listBefore, KeyOrder.before_irrefl, ih]
  before_trans {first second third} hfirst hsecond := by
    induction first generalizing second third with
    | nil =>
        cases third with
        | nil => cases second <;> simp [listBefore] at hsecond
        | cons => rfl
    | cons x left ih =>
        cases second with
        | nil => simp [listBefore] at hfirst
        | cons y middle =>
            cases third with
            | nil => simp [listBefore] at hsecond
            | cons z right =>
                simp only [listBefore] at hfirst hsecond ⊢
                by_cases hxy : before x y = true
                · by_cases hyz : before y z = true
                  · simp [KeyOrder.before_trans hxy hyz]
                  · by_cases hzy : before z y = true
                    · simp [hyz, hzy] at hsecond
                    · have hyz' := KeyOrder.eq_of_not_before
                        (by simpa using hyz) (by simpa using hzy)
                      subst hyz'
                      simp [hxy]
                · by_cases hyx : before y x = true
                  · simp [hxy, hyx] at hfirst
                  · have hxy' := KeyOrder.eq_of_not_before
                      (by simpa using hxy) (by simpa using hyx)
                    subst hxy'
                    by_cases hxz : before x z = true
                    · simp [hxz]
                    · by_cases hzx : before z x = true
                      · simp [hxz, hzx] at hsecond
                      · simp only [hxy, hxz, hzx] at hfirst hsecond ⊢
                        exact ih hfirst hsecond
  eq_of_not_before {first second} hfirst hsecond := by
    induction first generalizing second with
    | nil =>
        cases second with
        | nil => rfl
        | cons => simp [listBefore] at hfirst
    | cons x left ih =>
        cases second with
        | nil => simp [listBefore] at hsecond
        | cons y right =>
            simp only [listBefore] at hfirst hsecond
            by_cases hxy : before x y = true
            · simp [hxy] at hfirst
            · by_cases hyx : before y x = true
              · simp [hyx] at hsecond
              · have heq := KeyOrder.eq_of_not_before
                  (by simpa using hxy) (by simpa using hyx)
                subst heq
                simp only [hxy] at hfirst hsecond
                rw [ih hfirst hsecond]

/-- A map from keys to values. -/
structure KeyMap (κ α : Type) [KeyOrder κ] where
  /-- The entries, in the order of the keys. -/
  entries : List (κ × α)
  /-- Each entry stands before all that follow it. -/
  sorted : entries.Pairwise fun first second => before first.1 second.1 = true

namespace KeyMap

variable {κ α β : Type} [KeyOrder κ]

instance [Repr κ] [Repr α] : Repr (KeyMap κ α) := ⟨fun map n => reprPrec map.entries n⟩

/-- The map without entries. -/
def empty : KeyMap κ α := ⟨[], .nil⟩

instance : Inhabited (KeyMap κ α) := ⟨empty⟩

instance [DecidableEq κ] [DecidableEq α] : DecidableEq (KeyMap κ α) := fun first second =>
  match decEq first.entries second.entries with
  | isTrue hentries => isTrue (by cases first; cases second; cases hentries; rfl)
  | isFalse hentries => isFalse fun heq => hentries (congrArg entries heq)

/-- The value at a key in a list of entries. -/
def lookup (key : κ) : List (κ × α) → Option α
  | [] => none
  | (other, value) :: rest =>
      if before other key then lookup key rest
      else if before key other then none
      else some value

/-- Puts a value at a key of a list of entries. -/
def put (key : κ) (value : α) : List (κ × α) → List (κ × α)
  | [] => [(key, value)]
  | (other, old) :: rest =>
      if before other key then (other, old) :: put key value rest
      else if before key other then (key, value) :: (other, old) :: rest
      else (key, value) :: rest

/-- Removes the entry at a key from a list of entries. -/
def remove (key : κ) : List (κ × α) → List (κ × α)
  | [] => []
  | (other, old) :: rest =>
      if before other key then (other, old) :: remove key rest
      else if before key other then (other, old) :: rest
      else rest

theorem mem_put {key : κ} {value : α} {entry : κ × α} {entries : List (κ × α)}
    (hentry : entry ∈ put key value entries) : entry = (key, value) ∨ entry ∈ entries := by
  induction entries with
  | nil => exact Or.inl (by simpa [put] using hentry)
  | cons head rest ih =>
      simp only [put] at hentry
      split at hentry
      · rcases List.mem_cons.mp hentry with rfl | hrest
        · exact Or.inr (by simp)
        · exact (ih hrest).imp_right (List.mem_cons_of_mem _)
      · split at hentry
        · exact (List.mem_cons.mp hentry)
        · exact (List.mem_cons.mp hentry).imp_right (List.mem_cons_of_mem _)

theorem mem_of_mem_remove {key : κ} {entry : κ × α} {entries : List (κ × α)}
    (hentry : entry ∈ remove key entries) : entry ∈ entries := by
  induction entries with
  | nil => exact hentry
  | cons head rest ih =>
      simp only [remove] at hentry
      split at hentry
      · rcases List.mem_cons.mp hentry with rfl | hrest
        · simp
        · exact List.mem_cons_of_mem _ (ih hrest)
      · split at hentry
        · exact hentry
        · exact List.mem_cons_of_mem _ hentry

theorem sorted_put (key : κ) (value : α) {entries : List (κ × α)}
    (hsorted : entries.Pairwise fun first second => before first.1 second.1 = true) :
    (put key value entries).Pairwise fun first second => before first.1 second.1 = true := by
  induction entries with
  | nil => simp [put]
  | cons head rest ih =>
      obtain ⟨hhead, hrest⟩ := List.pairwise_cons.mp hsorted
      simp only [put]
      split
      · rename_i hbefore
        refine List.pairwise_cons.mpr ⟨fun entry hentry => ?_, ih hrest⟩
        rcases mem_put hentry with rfl | hold
        · exact hbefore
        · exact hhead entry hold
      · rename_i hnot
        split
        · rename_i hbefore
          refine List.pairwise_cons.mpr ⟨fun entry hentry => ?_, hsorted⟩
          rcases List.mem_cons.mp hentry with rfl | hold
          · exact hbefore
          · exact KeyOrder.before_trans hbefore (hhead entry hold)
        · rename_i hother
          have hkey : key = head.1 :=
            KeyOrder.eq_of_not_before (by simpa using hother) (by simpa using hnot)
          refine List.pairwise_cons.mpr ⟨fun entry hentry => ?_, hrest⟩
          rw [hkey]
          exact hhead entry hentry

theorem sorted_remove (key : κ) {entries : List (κ × α)}
    (hsorted : entries.Pairwise fun first second => before first.1 second.1 = true) :
    (remove key entries).Pairwise fun first second => before first.1 second.1 = true := by
  induction entries with
  | nil => simp [remove]
  | cons head rest ih =>
      obtain ⟨hhead, hrest⟩ := List.pairwise_cons.mp hsorted
      simp only [remove]
      split
      · exact List.pairwise_cons.mpr
          ⟨fun entry hentry => hhead entry (mem_of_mem_remove hentry), ih hrest⟩
      · split
        · exact hsorted
        · exact hrest

/-- The value at a key. -/
def find? (map : KeyMap κ α) (key : κ) : Option α := lookup key map.entries

/-- Whether there is a value at a key. -/
def contains (map : KeyMap κ α) (key : κ) : Bool := (map.find? key).isSome

/-- The map with a value put at a key, in place of the value that was there. -/
def insert (map : KeyMap κ α) (key : κ) (value : α) : KeyMap κ α :=
  ⟨put key value map.entries, sorted_put key value map.sorted⟩

/-- The map without the entry at a key. -/
def erase (map : KeyMap κ α) (key : κ) : KeyMap κ α :=
  ⟨remove key map.entries, sorted_remove key map.sorted⟩

/-- The keys, in order. -/
def keys (map : KeyMap κ α) : List κ := map.entries.map (·.1)

/-- The values, in the order of their keys. -/
def values (map : KeyMap κ α) : List α := map.entries.map (·.2)

/-- The map of a list of entries; of two entries with one key the later one counts. -/
def ofList (entries : List (κ × α)) : KeyMap κ α :=
  entries.foldl (fun map entry => map.insert entry.1 entry.2) empty

@[ext] theorem ext_entries {first second : KeyMap κ α} (hentries : first.entries = second.entries) :
    first = second := by
  cases first
  cases second
  cases hentries
  rfl

end KeyMap

end MetricCatalog
