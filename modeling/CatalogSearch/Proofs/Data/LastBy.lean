/-!
# Last elements

The last element of each key of a list, as a table keeps what was written to it under each key.
`overwrite` is one more write of many elements, and `mem_lastBy` says which elements stay.
-/

namespace CatalogSearch

variable {α κ : Type} [DecidableEq κ] {key : α → κ}

/-- The last element of each key, in the order in which they stand. -/
def lastBy (key : α → κ) : List α → List α
  | [] => []
  | x :: rest => if key x ∈ rest.map key then lastBy key rest else x :: lastBy key rest

/-- A list with the elements of another one in place of those of their keys. -/
def overwrite (key : α → κ) (l m : List α) : List α :=
  l.filter (fun x => key x ∉ m.map key) ++ lastBy key m

theorem lastBy_append (l m : List α) :
    lastBy key (l ++ m) = overwrite key (lastBy key l) m := by
  rw [overwrite]
  induction l with
  | nil => rfl
  | cons x rest ih =>
    simp only [List.cons_append, lastBy, List.map_append, List.mem_append]
    by_cases hr : key x ∈ rest.map key
    · rw [if_pos (.inl hr), if_pos hr, ih]
    · by_cases hm : key x ∈ m.map key
      · rw [if_pos (.inr hm), if_neg hr, ih, List.filter_cons_of_neg (by simpa using hm)]
      · rw [if_neg (by simp only [hr, hm, or_self, not_false_eq_true]), if_neg hr, ih,
          List.filter_cons_of_pos (by simpa using hm), List.cons_append]

/-- An element stays if no later one has its key. -/
theorem mem_lastBy {x : α} {l : List α} :
    x ∈ lastBy key l ↔ ∃ l₁ l₂, l = l₁ ++ x :: l₂ ∧ key x ∉ l₂.map key := by
  constructor
  · intro h
    induction l with
    | nil => cases h
    | cons y rest ih =>
      rw [lastBy] at h
      split at h
      · obtain ⟨l₁, l₂, rfl, hx⟩ := ih h
        exact ⟨y :: l₁, l₂, rfl, hx⟩
      · next hy =>
        rcases List.mem_cons.1 h with rfl | h
        · exact ⟨[], rest, rfl, hy⟩
        · obtain ⟨l₁, l₂, rfl, hx⟩ := ih h
          exact ⟨y :: l₁, l₂, rfl, hx⟩
  · rintro ⟨l₁, l₂, rfl, hx⟩
    rw [lastBy_append, overwrite, lastBy, if_neg hx]
    exact List.mem_append_right _ List.mem_cons_self

theorem lastBy_sublist (l : List α) : (lastBy key l).Sublist l := by
  induction l with
  | nil => exact .slnil
  | cons x rest ih =>
    rw [lastBy]
    split
    · exact ih.cons x
    · exact ih.cons_cons x

/-- No two elements that stay have one key. -/
theorem nodup_map_lastBy (l : List α) : ((lastBy key l).map key).Nodup := by
  induction l with
  | nil => exact List.nodup_nil
  | cons x rest ih =>
    rw [lastBy]
    split
    · exact ih
    · next hx =>
      exact List.nodup_cons.2 ⟨fun h => hx (((lastBy_sublist rest).map key).subset h), ih⟩

/-- Of a list whose keys differ all elements stay. -/
theorem lastBy_of_nodup {l : List α} (h : (l.map key).Nodup) : lastBy key l = l := by
  induction l with
  | nil => rfl
  | cons x rest ih =>
    obtain ⟨hx, hrest⟩ := List.nodup_cons.1 h
    rw [lastBy, if_neg hx, ih hrest]

end CatalogSearch
