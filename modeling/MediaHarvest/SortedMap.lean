/-!
# Maps in ascending order

A finite map is the list of its entries in strictly ascending order of the keys, so two maps with
the same entries are equal.  Header fields are kept in one, and so is each partition of a store.

The reading lemmas are `get?_insert` and `get?_erase`: a write or a removal changes the looked-up
value at its own key and nowhere else.
-/

namespace MediaHarvest

universe u v

/-- Keys in strictly ascending order. -/
def Ascending {κ : Type u} {ν : Type v} [LT κ] (entries : List (κ × ν)) : Prop :=
  entries.Pairwise fun left right => left.1 < right.1

/-- A finite map, given by its entries in ascending order of the keys. -/
structure SortedMap (κ : Type u) (ν : Type v) [LT κ] where
  entries : List (κ × ν)
  ascending : Ascending entries
deriving DecidableEq

/-- A strict order in which any two keys are comparable. -/
class KeyOrder (κ : Type u) [LT κ] where
  /-- The order can be decided. -/
  decide : DecidableLT κ
  irrefl : ∀ key : κ, ¬ key < key
  /-- The order is transitive. -/
  trans : ∀ {a b c : κ}, a < b → b < c → a < c
  /-- Keys that are not ordered either way are equal. -/
  tri : ∀ {a b : κ}, ¬ a < b → ¬ b < a → a = b

instance : KeyOrder String where
  decide := inferInstance
  irrefl := String.lt_irrefl
  trans := String.lt_trans
  tri := fun h k => String.le_antisymm (String.not_lt.1 k) (String.not_lt.1 h)

instance : KeyOrder (List UInt8) where
  decide := inferInstance
  irrefl := fun key => List.lt_irrefl key
  trans := List.lt_trans
  tri := fun h k => Std.Trichotomous.trichotomous _ _ h k

namespace SortedMap

theorem lookup_cons {κ : Type u} {ν : Type v} [DecidableEq κ] (key : κ) (value : ν)
    (rest : List (κ × ν)) (wanted : κ) :
    List.lookup wanted ((key, value) :: rest) =
      if wanted = key then some value else List.lookup wanted rest := by
  by_cases same : wanted = key
  · subst same; simp
  · have miss : (wanted == key) = false := by simpa using same
    simp [List.lookup_cons, miss, same]

variable {κ : Type u} {ν : Type v} [LT κ]

@[ext]
theorem ext {left right : SortedMap κ ν} (h : left.entries = right.entries) : left = right := by
  cases left; cases right; cases h; rfl

/-- The map without entries. -/
def empty : SortedMap κ ν := ⟨[], List.Pairwise.nil⟩

instance : EmptyCollection (SortedMap κ ν) := ⟨empty⟩

instance : Inhabited (SortedMap κ ν) := ⟨empty⟩

/-- The number of entries. -/
def size (map : SortedMap κ ν) : Nat := map.entries.length

/-- The keys, in ascending order. -/
def keys (map : SortedMap κ ν) : List κ := map.entries.map Prod.fst

/-- The values, in ascending order of their keys. -/
def values (map : SortedMap κ ν) : List ν := map.entries.map Prod.snd

/-- The entries that a test accepts. -/
def filter (keep : κ → ν → Bool) (map : SortedMap κ ν) : SortedMap κ ν :=
  ⟨map.entries.filter fun entry => keep entry.1 entry.2, map.ascending.filter _⟩

variable [KeyOrder κ]

local instance : DecidableLT κ := KeyOrder.decide

/-- Puts an entry in its place, replacing the one with the same key. -/
def insertEntry (key : κ) (value : ν) : List (κ × ν) → List (κ × ν)
  | [] => [(key, value)]
  | (k, v) :: rest =>
      if key < k then (key, value) :: (k, v) :: rest
      else if k < key then (k, v) :: insertEntry key value rest
      else (key, value) :: rest

theorem mem_insertEntry {key : κ} {value : ν} {entries : List (κ × ν)} {entry : κ × ν}
    (h : entry ∈ insertEntry key value entries) : entry = (key, value) ∨ entry ∈ entries := by
  induction entries with
  | nil => simpa [insertEntry] using h
  | cons head rest ih =>
      obtain ⟨k, v⟩ := head
      simp only [insertEntry] at h
      split at h
      · simpa using h
      · split at h
        · rcases List.mem_cons.1 h with rfl | h
          · exact Or.inr (List.mem_cons_self ..)
          · exact (ih h).imp_right (List.mem_cons_of_mem _)
        · rcases List.mem_cons.1 h with rfl | h
          · exact Or.inl rfl
          · exact Or.inr (List.mem_cons_of_mem _ h)

theorem ascending_insertEntry (key : κ) (value : ν) {entries : List (κ × ν)}
    (h : Ascending entries) : Ascending (insertEntry key value entries) := by
  induction entries with
  | nil => exact List.pairwise_singleton _ _
  | cons head rest ih =>
      obtain ⟨k, v⟩ := head
      obtain ⟨above, tail⟩ := List.pairwise_cons.1 h
      simp only [insertEntry]
      split
      · next lt =>
        refine List.pairwise_cons.2 ⟨?_, h⟩
        intro entry mem
        rcases List.mem_cons.1 mem with rfl | mem
        · exact lt
        · exact KeyOrder.trans lt (above entry mem)
      · next notLt =>
        split
        · next gt =>
          refine List.pairwise_cons.2 ⟨?_, ih tail⟩
          intro entry mem
          rcases mem_insertEntry mem with rfl | mem
          · exact gt
          · exact above entry mem
        · next notGt =>
          obtain rfl := KeyOrder.tri notLt notGt
          exact List.pairwise_cons.2 ⟨above, tail⟩

/-- The map with `value` under `key`. -/
def insert (key : κ) (value : ν) (map : SortedMap κ ν) : SortedMap κ ν :=
  ⟨insertEntry key value map.entries, ascending_insertEntry key value map.ascending⟩

/-- The map of a list of entries; the last of several with one key wins. -/
def ofList (entries : List (κ × ν)) : SortedMap κ ν :=
  entries.foldl (fun map entry => map.insert entry.1 entry.2) ∅

section Lookup

variable [DecidableEq κ]

omit [DecidableEq κ] in
theorem ne_of_below {lower upper : κ} (below : lower < upper) : upper ≠ lower :=
  fun same => KeyOrder.irrefl lower (same ▸ below)

theorem lookup_insertEntry (key : κ) (value : ν) {entries : List (κ × ν)} (wanted : κ) :
    (insertEntry key value entries).lookup wanted =
      if wanted = key then some value else entries.lookup wanted := by
  induction entries with
  | nil => simp [insertEntry, lookup_cons]
  | cons head rest ih =>
      obtain ⟨k, v⟩ := head
      simp only [insertEntry]
      split
      · simp [lookup_cons]
      · next notLt =>
        split
        · next below =>
          have differ := ne_of_below below
          by_cases same : wanted = k
          · subst same; simp [Ne.symm differ]
          · simp [lookup_cons, same, ih]
        · next notBelow =>
          obtain rfl := KeyOrder.tri notLt notBelow
          by_cases same : wanted = key <;> simp [lookup_cons, same]

end Lookup

end SortedMap

namespace SortedMap

variable {κ : Type u} {ν : Type v} [LT κ] [DecidableEq κ]

/-- The value under a key. -/
def get? (map : SortedMap κ ν) (key : κ) : Option ν := map.entries.lookup key

/-- Whether a key has a value. -/
def contains (map : SortedMap κ ν) (key : κ) : Bool := (map.get? key).isSome

/-- The map without a key. -/
def erase (key : κ) (map : SortedMap κ ν) : SortedMap κ ν :=
  map.filter fun k _ => k ≠ key

@[simp]
theorem get?_empty (key : κ) : (∅ : SortedMap κ ν).get? key = none := rfl

/-- A write changes the value at its own key only. -/
@[simp]
theorem get?_insert [KeyOrder κ] (map : SortedMap κ ν) (key : κ) (value : ν) (wanted : κ) :
    (map.insert key value).get? wanted = if wanted = key then some value else map.get? wanted :=
  lookup_insertEntry key value wanted

omit [LT κ] in
theorem lookup_filter_ne (key wanted : κ) (entries : List (κ × ν)) :
    (entries.filter fun entry => decide (entry.1 ≠ key)).lookup wanted =
      if wanted = key then none else entries.lookup wanted := by
  induction entries with
  | nil => simp
  | cons head rest ih =>
      obtain ⟨k, v⟩ := head
      by_cases same : k = key
      · subst same
        rw [List.filter_cons_of_neg (by simp), ih, lookup_cons]
        split <;> rfl
      · rw [List.filter_cons_of_pos (by simpa using same), lookup_cons, ih, lookup_cons]
        by_cases hit : wanted = k
        · subst hit; simp [same]
        · simp [hit]

/-- A removal takes away the value at its own key only. -/
@[simp]
theorem get?_erase (map : SortedMap κ ν) (key wanted : κ) :
    (map.erase key).get? wanted = if wanted = key then none else map.get? wanted :=
  lookup_filter_ne key wanted map.entries

end SortedMap

end MediaHarvest
