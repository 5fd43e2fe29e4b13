import CatalogSearch.Data.Batches

/-!
# Batches hold every element

Batches of a positive size hold every element once and in order, and all but the last of them are
full (`batched_of_batches`). There are none of them, whatever the list, if the size is negative.
-/

namespace CatalogSearch

variable {α : Type}

/-- Nothing is lost by slicing. -/
theorem flatten_slices {size : Nat} (hs : 0 < size) (l : List α) :
    (slices size l).flatten = l := by
  fun_induction slices size l with
  | case1 l h ih => rw [List.flatten_cons, ih, List.take_append_drop]
  | case2 l h =>
    have hl : l = [] := List.eq_nil_of_length_eq_zero (by omega)
    exact hl.symm

theorem slices_zero (l : List α) : slices 0 l = [] := by
  rw [slices, if_neg (by omega)]

/-- The chunks are consecutive parts of the list, none empty, none above the size, and all but the
last of just that size. -/
structure Sliced (size : Int) (l : List α) (chunks : List (List α)) : Prop where
  flatten : chunks.flatten = l
  ne_nil : ∀ c ∈ chunks, c ≠ []
  le : ∀ c ∈ chunks, (c.length : Int) ≤ size
  full : ∀ c ∈ chunks.dropLast, (c.length : Int) = size

theorem sliced_nil (size : Int) : Sliced size ([] : List α) [] :=
  ⟨rfl, nofun, nofun, nofun⟩

/-- A slice is put before those of the rest. It is full if there is a rest. -/
theorem Sliced.cons {size : Nat} {l : List α} {chunks : List (List α)} (hs : 0 < size)
    (hl : 0 < l.length) (h : Sliced size (l.drop size) chunks) :
    Sliced size l (l.take size :: chunks) where
  flatten := by rw [List.flatten_cons, h.flatten, List.take_append_drop]
  ne_nil := by
    refine List.forall_mem_cons.2 ⟨List.ne_nil_of_length_pos ?_, h.ne_nil⟩
    rw [List.length_take]
    omega
  le := by
    refine List.forall_mem_cons.2 ⟨?_, h.le⟩
    rw [List.length_take]
    omega
  full := by
    cases chunks with
    | nil => exact nofun
    | cons c rest =>
      refine List.forall_mem_cons.2 ⟨?_, h.full⟩
      have hc := List.length_pos_iff.2 (h.ne_nil c List.mem_cons_self)
      have hrest := congrArg List.length h.flatten
      rw [List.flatten_cons, List.length_append, List.length_drop] at hrest
      rw [List.length_take]
      omega

theorem sliced_slices {size : Nat} (hs : 0 < size) (l : List α) :
    Sliced size l (slices size l) := by
  fun_induction slices size l with
  | case1 l h ih => exact ih.cons hs h.2
  | case2 l h =>
    obtain rfl : l = [] := List.eq_nil_of_length_eq_zero (by omega)
    exact sliced_nil _

theorem batches_eq_ok {size : Int} (hs : 1 ≤ size) (l : List α) :
    batches size l = .ok (slices size.toNat l) := if_neg (by omega)

/-- What the batches of a list are: slices of it, or none at all where the size is negative. -/
inductive Batched (size : Int) (l : List α) (chunks : List (List α)) : Prop
  | sliced (pos : 0 < size) (slices : Sliced size l chunks)
  | dropped (neg : size < 0) (none : chunks = [])

theorem batches_eq_error_iff {size : Int} {l : List α} {e : BatchSizeError} :
    batches size l = .error e ↔ size = 0 := by
  cases e
  rw [batches]
  split <;> simp_all

theorem batched_of_batches {size : Int} {l : List α} {chunks : List (List α)}
    (h : batches size l = .ok chunks) : Batched size l chunks := by
  have hzero : size ≠ 0 := fun hzero => by
    cases h.symm.trans (batches_eq_error_iff.2 hzero : batches size l = .error .zero)
  rw [batches, if_neg hzero] at h
  obtain rfl := Except.ok.inj h
  rcases Int.lt_or_gt_of_ne hzero with hneg | hpos
  · exact .dropped hneg (by rw [Int.toNat_of_nonpos (by omega), slices_zero])
  · obtain ⟨n, rfl⟩ := Int.eq_ofNat_of_zero_le (Int.le_of_lt hpos)
    exact .sliced hpos (sliced_slices (by omega) l)

theorem Batched.flatten_eq_iff {size : Int} {l : List α} {chunks : List (List α)}
    (h : Batched size l chunks) : chunks.flatten = l ↔ 0 < size ∨ l = [] := by
  cases h with
  | sliced hpos h => exact iff_of_true h.flatten (.inl hpos)
  | dropped hneg h =>
    subst h
    exact eq_comm.trans (or_iff_right (by omega)).symm

/-- Slices of all of the list are made, or none with an error, just if the size is not negative or
the list is empty. -/
theorem refused_or_sliced_iff {size : Int} {l : List α} :
    ((∃ e, batches size l = .error e) ∨ ∃ chunks, batches size l = .ok chunks ∧
      Sliced size l chunks) ↔ 0 ≤ size ∨ l = [] := by
  cases h : batches size l with
  | error e =>
    have hzero := batches_eq_error_iff.1 h
    exact iff_of_true (.inl ⟨e, rfl⟩) (.inl (by omega))
  | ok chunks =>
    cases batched_of_batches h with
    | sliced hpos hsliced =>
      exact iff_of_true (.inr ⟨chunks, rfl, hsliced⟩) (.inl (by omega))
    | dropped hneg hnone =>
      subst hnone
      constructor
      · rintro (⟨e, he⟩ | ⟨chunks, hchunks, hsliced⟩)
        · cases he
        · cases hchunks
          exact .inr hsliced.flatten.symm
      · rintro (hsize | rfl)
        · omega
        · exact .inr ⟨[], rfl, sliced_nil size⟩

theorem Batched.ne_nil {size : Int} {l : List α} {chunks : List (List α)}
    (h : Batched size l chunks) : ∀ c ∈ chunks, c ≠ [] := by
  cases h with
  | sliced _ h => exact h.ne_nil
  | dropped _ h =>
    subst h
    exact nofun

end CatalogSearch
