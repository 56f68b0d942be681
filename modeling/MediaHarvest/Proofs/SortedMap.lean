import MediaHarvest.SortedMap

/-!
# Entries of maps in ascending order

What is looked up is what is among the entries, and putting the entries of a map into the empty
map one after another makes the same map.
-/

namespace MediaHarvest.SortedMap

universe u v

variable {κ : Type u} {ν : Type v} [LT κ] [KeyOrder κ]

local instance : DecidableLT κ := KeyOrder.decide

/-- An entry above all others is put behind them. -/
theorem insertEntry_of_below {key : κ} {value : ν} {entries : List (κ × ν)}
    (below : ∀ entry ∈ entries, entry.1 < key) :
    insertEntry key value entries = entries ++ [(key, value)] := by
  induction entries with
  | nil => rfl
  | cons head rest ih =>
      obtain ⟨k, v⟩ := head
      have lower : k < key := below (k, v) List.mem_cons_self
      have notAbove : ¬ key < k := fun above =>
        KeyOrder.irrefl k (KeyOrder.trans lower above)
      rw [insertEntry, if_neg notAbove, if_pos lower,
        ih fun entry mem => below entry (List.mem_cons_of_mem _ mem), List.cons_append]

/-- Entries that ascend are put behind one another. -/
theorem entries_foldl_insert (entries : List (κ × ν)) (map : SortedMap κ ν)
    (ascending : Ascending (map.entries ++ entries)) :
    (entries.foldl (fun map entry => map.insert entry.1 entry.2) map).entries =
      map.entries ++ entries := by
  induction entries generalizing map with
  | nil => simp
  | cons head rest ih =>
      have below : ∀ entry ∈ map.entries, entry.1 < head.1 := fun entry mem =>
        (List.pairwise_append.1 ascending).2.2 entry mem head List.mem_cons_self
      have inserted : (map.insert head.1 head.2).entries = map.entries ++ [head] :=
        insertEntry_of_below below
      rw [List.foldl_cons, ih _ (by rw [inserted, List.append_assoc]; exact ascending), inserted,
        List.append_assoc]
      rfl

theorem mem_foldl_insert {entries : List (κ × ν)} {map : SortedMap κ ν} {entry : κ × ν}
    (mem : entry ∈ (entries.foldl (fun map entry => map.insert entry.1 entry.2) map).entries) :
    entry ∈ entries ∨ entry ∈ map.entries := by
  induction entries generalizing map with
  | nil => exact .inr mem
  | cons head rest ih =>
      rcases ih mem with later | now
      · exact .inl (List.mem_cons_of_mem _ later)
      · rcases mem_insertEntry now with rfl | before
        · exact .inl List.mem_cons_self
        · exact .inr before

/-- The entries of the map of a list are among those of the list. -/
theorem mem_of_mem_ofList {entries : List (κ × ν)} {entry : κ × ν}
    (mem : entry ∈ (ofList entries).entries) : entry ∈ entries := by
  rcases mem_foldl_insert mem with inside | impossible
  · exact inside
  · cases impossible

@[simp]
theorem ofList_entries (map : SortedMap κ ν) : ofList map.entries = map := by
  apply ext
  rw [ofList, entries_foldl_insert map.entries ∅ (by exact map.ascending)]
  rfl

/-- The keys of a map differ from one another. -/
theorem nodup_keys (map : SortedMap κ ν) : map.keys.Nodup := by
  rw [keys, List.Nodup, List.pairwise_map]
  exact map.ascending.imp fun below => (ne_of_below below).symm

section Lookup

variable [DecidableEq κ]

omit [LT κ] [KeyOrder κ] in
theorem mem_of_lookup_eq_some {entries : List (κ × ν)} {key : κ} {value : ν}
    (found : entries.lookup key = some value) : (key, value) ∈ entries := by
  induction entries with
  | nil => simp at found
  | cons head rest ih =>
      obtain ⟨k, v⟩ := head
      rw [lookup_cons] at found
      split at found
      · next same =>
        cases found
        exact same ▸ List.mem_cons_self
      · exact List.mem_cons_of_mem _ (ih found)

omit [LT κ] [KeyOrder κ] in
theorem lookup_eq_some_of_mem {entries : List (κ × ν)} {key : κ} {value : ν}
    (distinct : (entries.map Prod.fst).Nodup) (mem : (key, value) ∈ entries) :
    entries.lookup key = some value := by
  induction entries with
  | nil => simp at mem
  | cons head rest ih =>
      obtain ⟨k, v⟩ := head
      obtain ⟨fresh, tail⟩ := List.nodup_cons.1 distinct
      rw [lookup_cons]
      rcases List.mem_cons.1 mem with same | later
      · cases same
        simp
      · have differ : key ≠ k := by
          rintro rfl
          exact fresh (List.mem_map.2 ⟨_, later, rfl⟩)
        rw [if_neg differ]
        exact ih tail later

/-- An entry under a new key is a further one. -/
theorem size_insert_of_new {map : SortedMap κ ν} {key : κ} (new : map.contains key = false)
    (value : ν) : (map.insert key value).size = map.size + 1 := by
  have absent : ∀ entry ∈ map.entries, entry.1 ≠ key := by
    rintro ⟨_, found⟩ mem rfl
    have distinct : (map.entries.map Prod.fst).Nodup := map.nodup_keys
    rw [contains, get?, lookup_eq_some_of_mem distinct mem] at new
    cases new
  show (insertEntry key value map.entries).length = map.entries.length + 1
  revert absent
  generalize map.entries = entries
  intro absent
  induction entries with
  | nil => rfl
  | cons head rest ih =>
      rcases head with ⟨k, v⟩
      have differ : k ≠ key := absent (k, v) List.mem_cons_self
      rw [insertEntry]
      by_cases above : key < k
      · rw [if_pos above]
        rfl
      · have below : k < key :=
          Decidable.byContradiction fun notBelow => differ (KeyOrder.tri notBelow above)
        rw [if_neg above, if_pos below, List.length_cons,
          ih fun entry mem => absent entry (List.mem_cons_of_mem _ mem)]
        rfl

/-- What is looked up is what is among the entries. -/
theorem get?_eq_some_iff {map : SortedMap κ ν} {key : κ} {value : ν} :
    map.get? key = some value ↔ (key, value) ∈ map.entries :=
  ⟨mem_of_lookup_eq_some, lookup_eq_some_of_mem map.nodup_keys⟩

/-- The values are those that can be looked up. -/
theorem mem_values_iff {map : SortedMap κ ν} {value : ν} :
    value ∈ map.values ↔ ∃ key, map.get? key = some value := by
  simp [values, get?_eq_some_iff]

/-- The keys are those under which something can be looked up. -/
theorem mem_keys_iff {map : SortedMap κ ν} {key : κ} :
    key ∈ map.keys ↔ map.contains key = true := by
  simp [keys, contains, Option.isSome_iff_exists, get?_eq_some_iff]

/-! ## Equal look-ups -/

/-- Maps with the same keys have the same size. -/
theorem size_eq_of_contains {first second : SortedMap κ ν}
    (same : ∀ key, first.contains key = second.contains key) : first.size = second.size := by
  have keys : first.keys.Perm second.keys :=
    (List.perm_ext_iff_of_nodup first.nodup_keys second.nodup_keys).2 fun key => by
      rw [mem_keys_iff, mem_keys_iff, same]
  have size (map : SortedMap κ ν) : map.keys.length = map.size := List.length_map _
  rw [← size, ← size, keys.length_eq]

/-- Maps in which the same can be looked up are equal. -/
theorem ext_get? {first second : SortedMap κ ν} (same : ∀ key, first.get? key = second.get? key) :
    first = second := by
  have distinct (map : SortedMap κ ν) : map.entries.Nodup :=
    List.Pairwise.of_map Prod.fst (fun _ _ differ same => differ (congrArg _ same)) map.nodup_keys
  have perm : first.entries.Perm second.entries :=
    (List.perm_ext_iff_of_nodup (distinct first) (distinct second)).2 fun ⟨key, value⟩ => by
      rw [← get?_eq_some_iff, ← get?_eq_some_iff, same]
  have opposed (left right : κ × ν) (below : left.1 < right.1) (above : right.1 < left.1) :
      left = right := absurd (KeyOrder.trans below above) (KeyOrder.irrefl _)
  exact ext (perm.eq_of_pairwise (fun left right _ _ => opposed left right)
    first.ascending second.ascending)

/-- Taking away a key that has no value changes nothing. -/
theorem erase_of_new {map : SortedMap κ ν} {key : κ} (new : map.contains key = false) :
    map.erase key = map := by
  apply ext_get?
  intro wanted
  rw [get?_erase]
  split
  · next same =>
    rw [contains, Option.isSome_eq_false_iff, Option.isNone_iff_eq_none] at new
    rw [same, new]
  · rfl

/-- What a test refuses is not looked up any more, and nothing else is lost. -/
theorem get?_filter (map : SortedMap κ ν) (keep : κ → ν → Bool) (key : κ) :
    (map.filter keep).get? key = (map.get? key).filter (keep key) := by
  apply Option.ext
  intro value
  rw [Option.filter_eq_some_iff, get?_eq_some_iff, get?_eq_some_iff]
  exact List.mem_filter

omit [KeyOrder κ] in
/-- Taking keys away one after another takes away what is under them, and nothing else. -/
theorem get?_foldl_erase (keys : List κ) (map : SortedMap κ ν) (wanted : κ) :
    (keys.foldl (fun kept key => kept.erase key) map).get? wanted =
      if wanted ∈ keys then none else map.get? wanted := by
  induction keys generalizing map with
  | nil => simp
  | cons key keys ih =>
      rw [List.foldl_cons, ih, get?_erase]
      by_cases later : wanted ∈ keys
      · rw [if_pos later, if_pos (List.mem_cons_of_mem _ later)]
      · simp [later]

/-- What was written under a key does not matter once the key is taken away. -/
theorem erase_insert (map : SortedMap κ ν) (key : κ) (value : ν) :
    (map.insert key value).erase key = map.erase key := by
  apply ext_get?
  intro wanted
  rw [get?_erase, get?_erase, get?_insert]
  split <;> rfl

/-- Of several writes under one key the last one counts. -/
theorem insert_insert (map : SortedMap κ ν) (key : κ) (former value : ν) :
    (map.insert key former).insert key value = map.insert key value := by
  apply ext_get?
  intro wanted
  rw [get?_insert, get?_insert, get?_insert]
  split <;> rfl

/-- What was taken away under a key does not matter once something is written there. -/
theorem insert_erase (map : SortedMap κ ν) (key : κ) (value : ν) :
    (map.erase key).insert key value = map.insert key value := by
  apply ext_get?
  intro wanted
  rw [get?_insert, get?_insert, get?_erase]
  split <;> rfl

section Apart

variable {first second : κ}

/-- Writes under different keys can change places. -/
theorem insert_comm (apart : first ≠ second) (map : SortedMap κ ν) (left right : ν) :
    (map.insert first left).insert second right = (map.insert second right).insert first left := by
  apply ext_get?
  intro wanted
  simp only [get?_insert]
  by_cases same : wanted = first
  · rw [if_pos same, if_pos same, if_neg (same ▸ apart)]
  · rw [if_neg same, if_neg same]

/-- A removal and a write under another key can change places. -/
theorem insert_erase_comm (apart : first ≠ second) (map : SortedMap κ ν) (value : ν) :
    (map.erase first).insert second value = (map.insert second value).erase first := by
  apply ext_get?
  intro wanted
  simp only [get?_insert, get?_erase]
  by_cases same : wanted = first
  · rw [if_pos same, if_pos same, if_neg (same ▸ apart)]
  · rw [if_neg same, if_neg same]

/-- Removals can change places. -/
theorem erase_comm (map : SortedMap κ ν) (first second : κ) :
    (map.erase first).erase second = (map.erase second).erase first := by
  apply ext_get?
  intro wanted
  simp only [get?_erase]
  split
  · split <;> rfl
  · rfl

end Apart

/-- The values are the one under a key and those under the other keys. -/
theorem values_perm {map : SortedMap κ ν} {key : κ} {value : ν}
    (found : map.get? key = some value) : map.values.Perm (value :: (map.erase key).values) := by
  have member := get?_eq_some_iff.1 found
  have distinct : (map.entries.map Prod.fst).Nodup := map.nodup_keys
  show (map.entries.map Prod.snd).Perm
    (value :: (map.entries.filter fun entry => decide (entry.1 ≠ key)).map Prod.snd)
  revert member distinct
  generalize map.entries = entries
  intro member distinct
  induction entries with
  | nil => cases member
  | cons head rest ih =>
      rcases head with ⟨k, v⟩
      obtain ⟨fresh, tail⟩ := List.nodup_cons.1 distinct
      rcases List.mem_cons.1 member with same | later
      · cases same
        have apart : ∀ entry ∈ rest, entry.1 ≠ key := by
          rintro ⟨_, found⟩ mem rfl
          exact fresh (List.mem_map.2 ⟨_, mem, rfl⟩)
        rw [List.filter_cons_of_neg (by simp),
          List.filter_eq_self.2 fun entry mem => decide_eq_true (apart entry mem)]
        exact .refl _
      · have differ : k ≠ key := by
          rintro rfl
          exact fresh (List.mem_map.2 ⟨_, later, rfl⟩)
        rw [List.filter_cons_of_pos (by simpa using differ)]
        exact ((ih later tail).cons v).trans (.swap ..)

end Lookup

end MediaHarvest.SortedMap
