/-!
# Ordered maps

Finite maps that keep their keys in the order in which they were first written. Writing a key again
replaces its value and leaves it where it stands.

The view of a map is `find?`; `find?_insert` and `keys_insert` say what a write does to it, and
`entries_ofList` that a list whose keys differ is read back as it is.
-/

namespace CatalogSearch

/-- Entries with pairwise different keys, in the order in which the keys were first written. -/
structure OrderedMap (κ α : Type) where
  entries : List (κ × α)
  nodup_keys : (entries.map Prod.fst).Nodup
deriving DecidableEq

namespace OrderedMap

variable {κ α β : Type}

/-- The map without entries. -/
def empty : OrderedMap κ α := ⟨[], List.nodup_nil⟩

instance : EmptyCollection (OrderedMap κ α) := ⟨empty⟩

instance : Inhabited (OrderedMap κ α) := ⟨empty⟩

/-- The keys in the order of their first write. -/
def keys (m : OrderedMap κ α) : List κ := m.entries.map Prod.fst

/-- The values in the order of their keys. -/
def values (m : OrderedMap κ α) : List α := m.entries.map Prod.snd

/-- The map with every value replaced, keys and order kept. -/
def mapValues (f : α → β) (m : OrderedMap κ α) : OrderedMap κ β :=
  ⟨m.entries.map (fun e => (e.1, f e.2)), by
    have h : (m.entries.map (fun e => (e.1, f e.2))).map Prod.fst = m.entries.map Prod.fst := by
      simp [Function.comp_def]
    rw [h]; exact m.nodup_keys⟩

@[simp] theorem keys_mapValues (f : α → β) (m : OrderedMap κ α) :
    (m.mapValues f).keys = m.keys := by
  simp [keys, mapValues, Function.comp_def]

variable [DecidableEq κ]

/-- The entries of a list with `k` set to `a`: in place where `k` occurs, at the end otherwise. -/
def setEntry (k : κ) (a : α) : List (κ × α) → List (κ × α)
  | [] => [(k, a)]
  | e :: rest => if e.1 = k then (k, a) :: rest else e :: setEntry k a rest

theorem map_fst_setEntry (k : κ) (a : α) (l : List (κ × α)) :
    (setEntry k a l).map Prod.fst =
      if k ∈ l.map Prod.fst then l.map Prod.fst else l.map Prod.fst ++ [k] := by
  induction l with
  | nil => simp [setEntry]
  | cons e rest ih =>
    by_cases h : e.1 = k
    · subst h; simp [setEntry]
    · have h' : k ≠ e.1 := fun h' => h h'.symm
      simp only [setEntry, h, if_false, List.map_cons, ih, List.mem_cons, h', false_or]
      split <;> simp

theorem nodup_setEntry (k : κ) (a : α) {l : List (κ × α)} (h : (l.map Prod.fst).Nodup) :
    ((setEntry k a l).map Prod.fst).Nodup := by
  rw [map_fst_setEntry]
  split
  · exact h
  · next hk =>
    refine List.nodup_append.2 ⟨h, by simp, fun x hx y hy hxy => hk ?_⟩
    rw [← List.mem_singleton.1 hy, ← hxy]
    exact hx

/-- The value that a list of entries gives to `k`. -/
def lookup (k : κ) : List (κ × α) → Option α
  | [] => none
  | e :: rest => if e.1 = k then some e.2 else lookup k rest

theorem lookup_setEntry (k k' : κ) (a : α) (l : List (κ × α)) :
    lookup k' (setEntry k a l) = if k = k' then some a else lookup k' l := by
  induction l with
  | nil => simp [setEntry, lookup]
  | cons e rest ih =>
    by_cases h : e.1 = k
    · subst h; by_cases h' : e.1 = k' <;> simp [setEntry, lookup, h']
    · by_cases h' : e.1 = k'
      · subst h'
        have h'' : k ≠ e.1 := fun h'' => h h''.symm
        simp [setEntry, lookup, h, h'']
      · simp [setEntry, lookup, h, h', ih]

/-- The value under a key. -/
def find? (m : OrderedMap κ α) (k : κ) : Option α := lookup k m.entries

/-- Whether the key has a value. -/
def contains (m : OrderedMap κ α) (k : κ) : Bool := (m.find? k).isSome

/-- The map with `k` set to `a`. -/
def insert (m : OrderedMap κ α) (k : κ) (a : α) : OrderedMap κ α :=
  ⟨setEntry k a m.entries, nodup_setEntry k a m.nodup_keys⟩

/-- The map with the listed entries written one after the other. -/
def insertAll (m : OrderedMap κ α) (l : List (κ × α)) : OrderedMap κ α :=
  l.foldl (fun m e => m.insert e.1 e.2) m

/-- The map of a list of entries; of several entries with one key the last one counts. -/
def ofList (l : List (κ × α)) : OrderedMap κ α := insertAll empty l

/-- The map without the key. -/
def erase (m : OrderedMap κ α) (k : κ) : OrderedMap κ α :=
  ⟨m.entries.filter (fun e => e.1 ≠ k),
    m.nodup_keys.sublist (List.filter_sublist.map Prod.fst)⟩

@[simp] theorem find?_empty (k : κ) : (empty : OrderedMap κ α).find? k = none := rfl

theorem find?_insert (m : OrderedMap κ α) (k k' : κ) (a : α) :
    (m.insert k a).find? k' = if k = k' then some a else m.find? k' :=
  lookup_setEntry k k' a m.entries

theorem keys_insert (m : OrderedMap κ α) (k : κ) (a : α) :
    (m.insert k a).keys = if k ∈ m.keys then m.keys else m.keys ++ [k] :=
  map_fst_setEntry k a m.entries

theorem setEntry_of_not_mem (k : κ) (a : α) {l : List (κ × α)} (h : k ∉ l.map Prod.fst) :
    setEntry k a l = l ++ [(k, a)] := by
  induction l with
  | nil => rfl
  | cons e rest ih =>
    simp only [List.map_cons, List.mem_cons, not_or] at h
    have h' : e.1 ≠ k := fun h' => h.1 h'.symm
    simp [setEntry, h', ih h.2]

theorem entries_insertAll (m : OrderedMap κ α) (l : List (κ × α))
    (h : ((m.entries ++ l).map Prod.fst).Nodup) : (m.insertAll l).entries = m.entries ++ l := by
  induction l generalizing m with
  | nil => simp [insertAll]
  | cons e rest ih =>
    have hk : e.1 ∉ m.entries.map Prod.fst := by
      intro hk
      rw [List.map_append, List.nodup_append] at h
      exact h.2.2 _ hk e.1 (by simp) rfl
    have hm : (m.insert e.1 e.2).entries = m.entries ++ [e] := setEntry_of_not_mem e.1 e.2 hk
    have := ih (m.insert e.1 e.2) (by rw [hm]; simpa using h)
    simpa [insertAll, hm] using this

/-- A list whose keys differ is the entry list of its map. -/
theorem entries_ofList {l : List (κ × α)} (h : (l.map Prod.fst).Nodup) :
    (ofList l).entries = l := by
  simpa [ofList, empty] using
    entries_insertAll (empty : OrderedMap κ α) l (by simpa [empty] using h)

end OrderedMap

end CatalogSearch
