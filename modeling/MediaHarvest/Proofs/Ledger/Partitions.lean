import MediaHarvest.Proofs.Ledger.Jobs
import MediaHarvest.Proofs.SortedMap
import Mathlib.Data.List.Nodup
import Mathlib.Logic.Function.Basic

/-!
# Partitions as maps

A partition `Keeps` a map if its entries are the values of the map, each as its codec writes it and
under the key of its index.  Writing a value changes the map at one index, looking up reads the map,
and the entries under a front are read in the order of their keys, each once.
-/

namespace MediaHarvest.Partition

open Json

variable {ι α : Type} {codec : Codec α} {keyOf : ι → Bytes} {partition : Partition}
  {map : ι → Option α}

/-- The entries are the values of the map, each written under the key of its index. -/
def Keeps (codec : Codec α) (keyOf : ι → Bytes) (partition : Partition) (map : ι → Option α) :
    Prop :=
  ∀ key bytes, partition.get? key = some bytes ↔
    ∃ index value, map index = some value ∧ keyOf index = key ∧ codec.writeText value = bytes

theorem keeps_empty (codec : Codec α) (keyOf : ι → Bytes) :
    Keeps codec keyOf ∅ fun _ => none := by
  intro key bytes
  rw [SortedMap.get?_empty]
  constructor
  · rintro ⟨⟩
  · rintro ⟨index, value, absent, _⟩
    cases absent

/-- A value that is written under its key becomes the one of its index. -/
theorem Keeps.insert [DecidableEq ι] (keeps : Keeps codec keyOf partition map)
    (inj : Function.Injective keyOf) (index : ι) (value : α) :
    Keeps codec keyOf (partition.insert (keyOf index) (codec.writeText value))
      (Function.update map index (some value)) := by
  intro key bytes
  rw [SortedMap.get?_insert]
  by_cases own : key = keyOf index
  · subst own
    rw [if_pos rfl]
    constructor
    · rintro ⟨⟩
      exact ⟨index, value, Function.update_self .., rfl, rfl⟩
    · rintro ⟨other, stored, found, same, rfl⟩
      obtain rfl := inj same
      rw [Function.update_self] at found
      cases found
      rfl
  · rw [if_neg own, keeps key bytes]
    have elsewhere {other : ι} (same : keyOf other = key) : other ≠ index := by
      rintro rfl
      exact own same.symm
    constructor
    · rintro ⟨other, stored, found, same, written⟩
      exact ⟨other, stored, by rw [Function.update_of_ne (elsewhere same), found], same, written⟩
    · rintro ⟨other, stored, found, same, written⟩
      rw [Function.update_of_ne (elsewhere same)] at found
      exact ⟨other, stored, found, same, written⟩

/-- What is looked up under the key of an index is the value of the index, as it is written. -/
theorem Keeps.get? (keeps : Keeps codec keyOf partition map) (inj : Function.Injective keyOf)
    (index : ι) : partition.get? (keyOf index) = (map index).map codec.writeText := by
  cases stored : map index with
  | some value => exact (keeps ..).2 ⟨index, value, stored, rfl, rfl⟩
  | none =>
      cases found : partition.get? (keyOf index) with
      | none => rfl
      | some bytes =>
          obtain ⟨other, value, some, same, _⟩ := (keeps ..).1 found
          obtain rfl := inj same
          rw [stored] at some
          cases some

/-- What is read under the key of an index is the value of the index. -/
theorem Keeps.fetch (keeps : Keeps codec keyOf partition map) (inj : Function.Injective keyOf)
    (back : ∀ index value, map index = some value → codec.ReadsBack 127 value) (index : ι) :
    Ledger.fetch codec partition (keyOf index) = .ok (map index) := by
  rw [Ledger.fetch, keeps.get? inj]
  cases stored : map index with
  | none => rfl
  | some value =>
      dsimp only [Option.map_some]
      rw [Ledger.readValue, (back index value stored).readText]
      rfl

/-- There are as many entries as indices with a value. -/
theorem Keeps.size_eq (keeps : Keeps codec keyOf partition map) (inj : Function.Injective keyOf)
    (indices : List ι) (distinct : indices.Nodup)
    (all : ∀ index, index ∈ indices ↔ (map index).isSome = true) :
    SortedMap.size partition = indices.length := by
  have keys : (SortedMap.keys partition).Perm (indices.map keyOf) := by
    refine (List.perm_ext_iff_of_nodup (SortedMap.nodup_keys _) (distinct.map inj)).2 fun key => ?_
    rw [SortedMap.mem_keys_iff, SortedMap.contains, Option.isSome_iff_exists, List.mem_map]
    constructor
    · rintro ⟨bytes, found⟩
      obtain ⟨index, value, stored, same, _⟩ := (keeps ..).1 found
      exact ⟨index, (all index).2 (by rw [stored]; rfl), same⟩
    · rintro ⟨index, mem, rfl⟩
      obtain ⟨value, stored⟩ := Option.isSome_iff_exists.1 ((all index).1 mem)
      exact ⟨_, (keeps ..).2 ⟨index, value, stored, rfl, rfl⟩⟩
  have length := keys.length_eq
  rwa [SortedMap.keys, List.length_map, List.length_map] at length

/-! ## Fronts -/

theorem readAll_map_writeText {values : List α}
    (back : ∀ value ∈ values, codec.ReadsBack 127 value) :
    Ledger.readAll codec (values.map codec.writeText) = .ok values := by
  induction values with
  | nil => rfl
  | cons value rest ih =>
      rw [List.map_cons, Ledger.readAll, Ledger.readValue, (back value List.mem_cons_self).readText,
        ih fun other mem => back other (List.mem_cons_of_mem _ mem)]
      rfl

/-- Entries that are all kept are those of some indices and values. -/
theorem exists_of_kept (entries : List (Bytes × Bytes))
    (kept : ∀ entry ∈ entries, ∃ index value, map index = some value ∧ keyOf index = entry.1 ∧
      codec.writeText value = entry.2) :
    ∃ found : List (ι × α),
      entries = found.map (fun pair => (keyOf pair.1, codec.writeText pair.2)) ∧
        ∀ pair ∈ found, map pair.1 = some pair.2 := by
  induction entries with
  | nil => exact ⟨[], rfl, List.forall_mem_nil _⟩
  | cons entry rest ih =>
      obtain ⟨index, value, stored, key, written⟩ := kept entry List.mem_cons_self
      obtain ⟨found, same, all⟩ := ih fun other mem => kept other (List.mem_cons_of_mem _ mem)
      refine ⟨(index, value) :: found, ?_, ?_⟩
      · rw [List.map_cons, ← same, key, written]
      · intro pair mem
        rcases List.mem_cons.1 mem with rfl | mem
        · exact stored
        · exact all pair mem

/-- What is read under a front, in the order of the keys: the values of the indices whose keys
start with it, each once. -/
structure Scanned (codec : Codec α) (keyOf : ι → Bytes) (map : ι → Option α) (front : Bytes)
    (answer : Except LedgerError (List α)) (found : List (ι × α)) : Prop where
  answer : answer = .ok (found.map Prod.snd)
  ascending : (found.map fun pair => keyOf pair.1).Pairwise (· < ·)
  mem_iff : ∀ index value, (index, value) ∈ found ↔
    map index = some value ∧ front <+: keyOf index

theorem Keeps.scan (keeps : Keeps codec keyOf partition map) (inj : Function.Injective keyOf)
    (back : ∀ index value, map index = some value → codec.ReadsBack 127 value) (front : Bytes) :
    ∃ found, Scanned codec keyOf map front
      (Ledger.readAll codec (Partition.under partition front)) found := by
  have stored {entry : Bytes × Bytes} (mem : entry ∈ partition.entries) :
      ∃ index value, map index = some value ∧ keyOf index = entry.1 ∧
        codec.writeText value = entry.2 :=
    (keeps entry.1 entry.2).1 (SortedMap.get?_eq_some_iff.2 mem)
  obtain ⟨found, same, all⟩ := exists_of_kept
    (partition.entries.filter fun entry => front.isPrefixOf entry.1)
    fun entry mem => stored (List.mem_filter.1 mem).1
  refine ⟨found, ⟨?_, ?_, ?_⟩⟩
  · have values : Partition.under partition front =
        (found.map Prod.snd).map codec.writeText := by
      rw [Partition.under, same, List.map_map, List.map_map]
      rfl
    rw [values, readAll_map_writeText]
    intro value mem
    obtain ⟨pair, inside, rfl⟩ := List.mem_map.1 mem
    exact back pair.1 pair.2 (all pair inside)
  · have keys : found.map (fun pair => keyOf pair.1) =
        (partition.entries.filter fun entry => front.isPrefixOf entry.1).map Prod.fst := by
      rw [same, List.map_map]
      rfl
    rw [keys, List.pairwise_map]
    exact partition.ascending.filter _
  · intro index value
    constructor
    · intro mem
      have inside : (keyOf index, codec.writeText value) ∈
          partition.entries.filter fun entry => front.isPrefixOf entry.1 := by
        rw [same]
        exact List.mem_map.2 ⟨_, mem, rfl⟩
      exact ⟨all _ mem, List.isPrefixOf_iff_prefix.1 (List.mem_filter.1 inside).2⟩
    · rintro ⟨kept, starts⟩
      have inside : (keyOf index, codec.writeText value) ∈
          partition.entries.filter fun entry => front.isPrefixOf entry.1 := by
        refine List.mem_filter.2 ⟨?_, List.isPrefixOf_iff_prefix.2 starts⟩
        exact SortedMap.get?_eq_some_iff.1 ((keeps ..).2 ⟨index, value, kept, rfl, rfl⟩)
      rw [same] at inside
      obtain ⟨⟨other, known⟩, mem, equal⟩ := List.mem_map.1 inside
      obtain rfl : other = index := inj (congrArg Prod.fst equal)
      have again := all _ mem
      rw [kept] at again
      cases again
      exact mem

end MediaHarvest.Partition
