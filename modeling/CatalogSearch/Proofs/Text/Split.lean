import CatalogSearch.Proofs.Text.Blank
import CatalogSearch.Text.Split

/-!
# Pieces of a text

The parts of a text between the occurrences of a separator are the only pieces that the separator
joins to the text and is in none of: `pieces_iff`. What stands before and after the first separator
is told by a text without it in front of one, and so is what stands before and after the last one by
a text without it behind it.
-/

namespace CatalogSearch.Text

variable {p : Char → Bool} {a c : Char} {s t : List Char} {pieces : List (List Char)}

/-- The text is these pieces, at least one, with the separator between them and in none of them. -/
structure Pieces (c : Char) (s : List Char) (pieces : List (List Char)) : Prop where
  ne_nil : pieces ≠ []
  join : [c].intercalate pieces = s
  apart : ∀ piece ∈ pieces, c ∉ piece

theorem splitOn_eq (c : Char) (s : List Char) : splitOn c s = s.splitOn c := by
  induction s with
  | nil => rw [splitOn, List.splitOn_nil]
  | cons d rest ih =>
    rw [splitOn, ih, List.splitOn_cons_eq_if_modifyHead]
    simp only [beq_iff_eq]
    split
    · rfl
    · split
      · next part parts h => rw [h, List.modifyHead_cons]
      · next h => exact absurd h (List.splitOn_ne_nil c rest)

theorem splitOn_ne_nil (c : Char) (s : List Char) : splitOn c s ≠ [] := by
  rw [splitOn_eq]
  exact List.splitOn_ne_nil c s

theorem not_mem_of_mem_splitOn {piece : List Char} (h : piece ∈ splitOn c s) : c ∉ piece := by
  induction s generalizing piece with
  | nil =>
    rw [List.mem_singleton.1 h]
    exact List.not_mem_nil
  | cons d rest ih =>
    rw [splitOn] at h
    split at h
    · rcases List.mem_cons.1 h with rfl | h
      · exact List.not_mem_nil
      · exact ih h
    · next hd =>
      split at h
      · next part parts hparts =>
        rcases List.mem_cons.1 h with rfl | h
        · have hpart : c ∉ part := ih (hparts ▸ List.mem_cons_self)
          exact List.not_mem_cons_of_ne_of_not_mem (Ne.symm hd) hpart
        · exact ih (hparts ▸ List.mem_cons_of_mem part h)
      · next hparts => exact absurd hparts (splitOn_ne_nil c rest)

theorem pieces_splitOn (c : Char) (s : List Char) : Pieces c s (splitOn c s) where
  ne_nil := splitOn_ne_nil c s
  join := by rw [splitOn_eq, List.intercalate_splitOn]
  apart := fun _ => not_mem_of_mem_splitOn

theorem pieces_iff : Pieces c s pieces ↔ pieces = splitOn c s := by
  constructor
  · rintro ⟨hne, rfl, hapart⟩
    rw [splitOn_eq, List.splitOn_intercalate c hapart hne]
  · rintro rfl
    exact pieces_splitOn c s

/-! ### Separators that do not occur -/

theorem not_mem_of_forall (hs : ∀ d ∈ s, p d = true) (hc : p c = false) : c ∉ s :=
  fun hmem => Bool.false_ne_true (hc ▸ hs c hmem)

theorem not_mem_of_forall_or (hs : ∀ d ∈ s, d = a ∨ p d = true) (hc : p c = false) (hne : c ≠ a) :
    c ∉ s := fun hmem =>
  (hs c hmem).elim hne fun h => Bool.false_ne_true (hc ▸ h)

/-! ### The first occurrence -/

theorem before_append (hs : c ∉ s) : before c (s ++ c :: t) = s :=
  takeWhile_append_of_first (fun _ hd => decide_eq_true (ne_of_mem_of_not_mem hd hs)) (by simp)

theorem before_of_not_mem (hs : c ∉ s) : before c s = s :=
  List.takeWhile_eq_self_iff.2 fun _ hd => decide_eq_true (ne_of_mem_of_not_mem hd hs)

theorem after?_append (hs : c ∉ s) : after? c (s ++ c :: t) = some t := by
  rw [after?, dropWhile_append_of_first
    (fun _ hd => decide_eq_true (ne_of_mem_of_not_mem hd hs)) (by simp), List.tail?_cons]

theorem after?_of_not_mem (hs : c ∉ s) : after? c s = none := by
  rw [after?, List.dropWhile_eq_nil_iff.2
    fun _ hd => decide_eq_true (ne_of_mem_of_not_mem hd hs), List.tail?_nil]

/-! ### The last occurrence -/

theorem reverse_append_cons (c : Char) (s t : List Char) :
    (s ++ c :: t).reverse = t.reverse ++ c :: s.reverse := by
  rw [List.reverse_append, List.reverse_cons, List.append_assoc, List.singleton_append]

theorem afterLast_eq (c : Char) (s : List Char) :
    afterLast c s = (before c s.reverse).reverse := rfl

theorem beforeLast?_eq (c : Char) (s : List Char) :
    beforeLast? c s = (after? c s.reverse).map List.reverse := rfl

theorem afterLast_append (ht : c ∉ t) : afterLast c (s ++ c :: t) = t := by
  rw [afterLast_eq, reverse_append_cons, before_append (mt List.mem_reverse.1 ht),
    List.reverse_reverse]

theorem afterLast_of_not_mem (hs : c ∉ s) : afterLast c s = s := by
  rw [afterLast_eq, before_of_not_mem (mt List.mem_reverse.1 hs), List.reverse_reverse]

theorem beforeLast?_append (ht : c ∉ t) : beforeLast? c (s ++ c :: t) = some s := by
  rw [beforeLast?_eq, reverse_append_cons, after?_append (mt List.mem_reverse.1 ht),
    Option.map_some, List.reverse_reverse]

theorem beforeLast?_of_not_mem (hs : c ∉ s) : beforeLast? c s = none := by
  rw [beforeLast?_eq, after?_of_not_mem (mt List.mem_reverse.1 hs), Option.map_none]

end CatalogSearch.Text
