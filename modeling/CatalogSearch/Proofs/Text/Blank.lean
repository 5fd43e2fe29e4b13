import CatalogSearch.Text.Blank
import Mathlib.Data.List.DropRight

/-!
# Stripping

What is left of a text has no blank at either end (`trimmed_stripBy`), such a text is left as it is
(`stripBy_of_trimmed`), and blanks may stand around a text or not (`stripBy_padded`). So what is
left is the only text without blanks at its ends that the text is with blanks around: `strips_iff`.
-/

namespace CatalogSearch.Text

variable {p q : Char → Bool} {a b s w : List Char}

/-- No character that satisfies `p` stands at either end. -/
structure Trimmed (p : Char → Bool) (s : List Char) : Prop where
  first : ∀ c ∈ s.head?, p c = false
  last : ∀ c ∈ s.getLast?, p c = false

/-- A text and what is left of it: it has characters that satisfy `p` around it, and none of them at
its own ends. -/
inductive Strips (p : Char → Bool) : List Char → List Char → Prop
  | intro {a w b : List Char} : (∀ c ∈ a, p c = true) → Trimmed p w → (∀ c ∈ b, p c = true) →
    Strips p (a ++ w ++ b) w

theorem trimmed_nil : Trimmed p [] := ⟨nofun, nofun⟩

theorem trimmed_of_forall (h : ∀ c ∈ s, p c = false) : Trimmed p s where
  first := fun c hc => h c (List.mem_of_head? hc)
  last := fun c hc => h c (List.mem_of_getLast? hc)

theorem Trimmed.mono (h : Trimmed p s) (hq : ∀ c, p c = false → q c = false) : Trimmed q s where
  first := fun c hc => hq c (h.first c hc)
  last := fun c hc => hq c (h.last c hc)

theorem dropWhile_of_first (h : ∀ c ∈ s.head?, p c = false) : s.dropWhile p = s := by
  cases s with
  | nil => rfl
  | cons c rest => exact List.dropWhile_cons_of_neg (by rw [h c rfl]; exact Bool.false_ne_true)

theorem takeWhile_append_of_first (hs : ∀ c ∈ s, p c = true) (hw : ∀ c ∈ w.head?, p c = false) :
    (s ++ w).takeWhile p = s := by
  rw [List.takeWhile_append_of_pos hs]
  cases w with
  | nil => exact List.append_nil s
  | cons c rest =>
    rw [List.takeWhile_cons_of_neg (by rw [hw c rfl]; exact Bool.false_ne_true), List.append_nil]

theorem dropWhile_append_of_first (hs : ∀ c ∈ s, p c = true) (hw : ∀ c ∈ w.head?, p c = false) :
    (s ++ w).dropWhile p = w := by
  rw [List.dropWhile_append_of_pos hs, dropWhile_of_first hw]

theorem dropRight_of_last (h : ∀ c ∈ s.getLast?, p c = false) : dropRight p s = s := by
  rw [dropRight, dropWhile_of_first (by rwa [List.head?_reverse]), List.reverse_reverse]

theorem stripBy_of_trimmed (h : Trimmed p s) : stripBy p s = s := by
  rw [stripBy, dropWhile_of_first h.first, dropRight_of_last h.last]

theorem dropRight_append (hb : ∀ c ∈ b, p c = true) : dropRight p (s ++ b) = dropRight p s := by
  rw [dropRight, List.reverse_append, List.dropWhile_append_of_pos (by simpa using hb), dropRight]

theorem stripBy_padded (ha : ∀ c ∈ a, p c = true) (hb : ∀ c ∈ b, p c = true) :
    stripBy p (a ++ s ++ b) = stripBy p s := by
  have hall : b.dropWhile p = [] := List.dropWhile_eq_nil_iff.2 hb
  rw [stripBy, stripBy, List.append_assoc, List.dropWhile_append_of_pos ha, List.dropWhile_append]
  split
  · next h => rw [hall, List.isEmpty_iff.1 h]
  · exact dropRight_append hb

theorem first_dropWhile (p : Char → Bool) (s : List Char) :
    ∀ c ∈ (s.dropWhile p).head?, p c = false := by
  intro c hc
  have h := List.head?_dropWhile_not p s
  rw [hc] at h
  exact h

/-- What is stripped at the end is put there again. -/
theorem exists_dropRight_append (p : Char → Bool) (s : List Char) :
    ∃ b, (∀ c ∈ b, p c = true) ∧ dropRight p s ++ b = s :=
  ⟨s.rtakeWhile p, fun _ => List.mem_rtakeWhile_imp, List.rdropWhile_append_rtakeWhile⟩

theorem trimmed_stripBy (p : Char → Bool) (s : List Char) : Trimmed p (stripBy p s) where
  first := by
    intro c hc
    obtain ⟨b, -, hb⟩ := exists_dropRight_append p (s.dropWhile p)
    apply first_dropWhile p s c
    rw [← hb]
    exact List.mem_head?_append_of_mem_head? hc
  last := by
    rw [stripBy, dropRight, List.getLast?_reverse]
    exact first_dropWhile p _

theorem strips_stripBy (p : Char → Bool) (s : List Char) : Strips p s (stripBy p s) := by
  obtain ⟨b, hb, hs⟩ := exists_dropRight_append p (s.dropWhile p)
  have ha : ∀ c ∈ s.takeWhile p, p c = true := fun _ => List.mem_takeWhile_imp
  have h := Strips.intro ha (trimmed_stripBy p s) hb
  rwa [stripBy, List.append_assoc, hs, List.takeWhile_append_dropWhile] at h

theorem strips_iff : Strips p s w ↔ w = stripBy p s := by
  constructor
  · rintro ⟨ha, hw, hb⟩
    rw [stripBy_padded ha hb, stripBy_of_trimmed hw]
  · rintro rfl
    exact strips_stripBy p s

theorem stripBy_eq_nil_iff : stripBy p s = [] ↔ ∀ c ∈ s, p c = true := by
  rw [eq_comm, ← strips_iff]
  constructor
  · rintro ⟨ha, -, hb⟩
    rw [List.append_nil]
    exact List.forall_mem_append.2 ⟨ha, hb⟩
  · intro h
    have hs := Strips.intro h (trimmed_nil (p := p)) (b := []) nofun
    rwa [List.append_nil, List.append_nil] at hs

end CatalogSearch.Text
