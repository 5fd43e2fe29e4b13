import CatalogSearch.Data.OrderedMap
import CatalogSearch.Proofs.Data.Sorting

/-!
# Reading ordered maps

What many writes leave under a key (`find?_insertAll`), and the entries of a map by `find?`
(`mem_entries`). A function that changes no value of a map leaves the map as it is
(`mapValues_eq_self_iff`).
-/

namespace CatalogSearch.OrderedMap

variable {κ α : Type} [DecidableEq κ] {k : κ} {a : α} {l l' : List (κ × α)}

theorem lookup_append :
    lookup k (l ++ l') = (lookup k l).or (lookup k l') := by
  induction l with
  | nil => rfl
  | cons e rest ih =>
    simp only [List.cons_append, lookup, ih]
    split <;> rfl

theorem mem_of_lookup (h : lookup k l = some a) : (k, a) ∈ l := by
  induction l with
  | nil => cases h
  | cons e rest ih =>
    rw [lookup] at h
    split at h
    · next hk => cases h; exact hk ▸ List.mem_cons_self
    · exact List.mem_cons_of_mem _ (ih h)

theorem lookup_of_mem (hl : (l.map Prod.fst).Nodup) (h : (k, a) ∈ l) : lookup k l = some a := by
  induction l with
  | nil => cases h
  | cons e rest ih =>
    obtain ⟨he, hrest⟩ := List.nodup_cons.1 hl
    rcases List.mem_cons.1 h with rfl | h
    · exact if_pos rfl
    · have hk : e.1 ≠ k := fun hk => he (List.mem_map.2 ⟨_, h, hk.symm⟩)
      rw [lookup, if_neg hk, ih hrest h]

/-- Of entries that are made of their keys, the one of a key is found if the key is there. -/
theorem lookup_filterMap (f : κ → Option α) (ks : List κ) :
    lookup k (ks.filterMap fun k' => (f k').map fun a => (k', a)) =
      if k ∈ ks then f k else none := by
  induction ks with
  | nil => rfl
  | cons k' rest ih =>
    by_cases hk : k' = k
    · subst hk
      rw [if_pos List.mem_cons_self, List.filterMap_cons]
      cases hf : f k' with
      | none => rw [Option.map_none, ih, hf, ite_self]
      | some a => exact if_pos rfl
    · have hmem : k ∈ k' :: rest ↔ k ∈ rest := by simp [Ne.symm hk]
      simp only [hmem, ← ih, List.filterMap_cons]
      cases f k' with
      | none => rfl
      | some a => exact if_neg hk

/-- Of the values of a list's entries with the key only the last one is left by writing them all. -/
theorem find?_insertAll (m : OrderedMap κ α) :
    (m.insertAll l).find? k = (lookup k l.reverse).or (m.find? k) := by
  induction l generalizing m with
  | nil => rfl
  | cons e rest ih =>
    have hm : m.insertAll (e :: rest) = (m.insert e.1 e.2).insertAll rest := rfl
    rw [hm, ih, find?_insert, List.reverse_cons, lookup_append, Option.or_assoc, lookup]
    split <;> rfl

theorem find?_ofList : (ofList l).find? k = lookup k l.reverse := by
  rw [ofList, find?_insertAll, find?_empty, Option.or_none]

/-- A map is that of its entries. -/
theorem ofList_entries (m : OrderedMap κ α) : ofList m.entries = m := by
  have hentries := entries_ofList m.nodup_keys
  rcases hm : ofList m.entries with ⟨es, _⟩
  rw [hm] at hentries
  cases m
  cases hentries
  rfl

theorem mem_entries {m : OrderedMap κ α} : (k, a) ∈ m.entries ↔ m.find? k = some a :=
  ⟨lookup_of_mem m.nodup_keys, mem_of_lookup⟩

theorem contains_iff {m : OrderedMap κ α} : m.contains k = true ↔ k ∈ m.keys := by
  rw [contains, Option.isSome_iff_exists, keys, List.mem_map]
  constructor
  · rintro ⟨a, ha⟩
    exact ⟨(k, a), mem_entries.2 ha, rfl⟩
  · rintro ⟨⟨_, a⟩, ha, rfl⟩
    exact ⟨a, mem_entries.1 ha⟩

theorem find?_eq_none {m : OrderedMap κ α} : m.find? k = none ↔ k ∉ m.keys := by
  rw [← contains_iff, contains, Bool.not_eq_true, Option.isSome_eq_false_iff, Option.isNone_iff_eq_none]

theorem lookup_map_snd {β : Type} (f : α → β) (l : List (κ × α)) :
    lookup k (l.map fun e => (e.1, f e.2)) = (lookup k l).map f := by
  induction l with
  | nil => rfl
  | cons e rest ih =>
    rw [List.map_cons, lookup, lookup, ih]
    split <;> rfl

theorem find?_mapValues {β : Type} (f : α → β) (m : OrderedMap κ α) :
    (m.mapValues f).find? k = (m.find? k).map f := lookup_map_snd f m.entries

theorem map_eq_self_iff {β : Type} {f : β → β} {l : List β} : l.map f = l ↔ ∀ b ∈ l, f b = b := by
  have hmap : l.map f = l.map id ↔ ∀ b ∈ l, f b = id b := List.map_inj_left
  rwa [List.map_id] at hmap

omit [DecidableEq κ] in
theorem mapValues_eq_self_iff {f : α → α} {m : OrderedMap κ α} :
    m.mapValues f = m ↔ ∀ e ∈ m.entries, f e.2 = e.2 := by
  have hentries : m.mapValues f = m ↔ m.entries.map (fun e => (e.1, f e.2)) = m.entries := by
    rw [mapValues, OrderedMap.mk.injEq]
  rw [hentries, map_eq_self_iff]
  exact forall₂_congr fun e _ => ⟨fun h => congrArg Prod.snd h, fun h => Prod.ext rfl h⟩

/-- A key that is written is added to the keys unless it is one. -/
theorem keys_insert_eq_distinct (m : OrderedMap κ α) (k : κ) (a : α) :
    (m.insert k a).keys = distinct (m.keys ++ [k]) := by
  have hnodup : m.keys.Nodup := m.nodup_keys
  have hk : distinct [k] = [k] := rfl
  rw [keys_insert, distinct_append, distinct_of_nodup hnodup, hk]
  split
  · next hmem => rw [List.filter_cons_of_neg (by simpa using hmem), List.filter_nil, List.append_nil]
  · next hmem => rw [List.filter_cons_of_pos (by simpa using hmem), List.filter_nil]

theorem mem_of_mem_ofList {e : κ × α} (h : e ∈ (ofList l).entries) : e ∈ l := by
  have hfind := mem_entries.1 h
  rw [find?_ofList] at hfind
  exact List.mem_reverse.1 (mem_of_lookup hfind)

/-- Writing the entries of a map gives its values where it has some. -/
theorem find?_insertAll_entries (m m' : OrderedMap κ α) :
    (m.insertAll m'.entries).find? k = (m'.find? k).or (m.find? k) := by
  have hrev : lookup k m'.entries.reverse = m'.find? k := by
    have hnodup : (m'.entries.reverse.map Prod.fst).Nodup := by
      rw [List.map_reverse]
      exact (List.reverse_perm _).nodup_iff.2 m'.nodup_keys
    refine Option.ext fun a => ⟨fun h => ?_, fun h => ?_⟩
    · exact mem_entries.1 (List.mem_reverse.1 (mem_of_lookup h))
    · exact lookup_of_mem hnodup (List.mem_reverse.2 (mem_entries.2 h))
  rw [find?_insertAll, hrev]

end CatalogSearch.OrderedMap
