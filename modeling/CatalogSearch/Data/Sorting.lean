/-!
# Sorting

Sorting by insertion, and lists without repetitions. `sortBy` is stable: elements that the order
does not tell apart keep their places, so a sort by several keys is one `sortBy` with the
lexicographic order `lexLe`. `distinctBy` leaves the first element of each key, and `distinct` the
first of each value.
-/

namespace CatalogSearch

variable {α : Type}

/-- `x` put in front of the first element that it does not come after. -/
def insertBy (le : α → α → Bool) (x : α) : List α → List α
  | [] => [x]
  | y :: rest => if le x y then x :: y :: rest else y :: insertBy le x rest

/-- The list in the order `le`, elements that it does not tell apart as they stood. -/
def sortBy (le : α → α → Bool) (l : List α) : List α := l.foldr (insertBy le) []

@[simp] theorem mem_insertBy (le : α → α → Bool) (x y : α) (l : List α) :
    y ∈ insertBy le x l ↔ y = x ∨ y ∈ l := by
  induction l with
  | nil => simp [insertBy]
  | cons z rest ih =>
    simp only [insertBy]
    split
    · simp
    · simp only [List.mem_cons, ih]; grind

@[simp] theorem mem_sortBy (le : α → α → Bool) (y : α) (l : List α) : y ∈ sortBy le l ↔ y ∈ l := by
  induction l with
  | nil => simp [sortBy]
  | cons x rest ih => simpa [sortBy] using or_congr_right ih

theorem insertBy_perm (le : α → α → Bool) (x : α) (l : List α) :
    (insertBy le x l).Perm (x :: l) := by
  induction l with
  | nil => exact .refl _
  | cons y rest ih =>
    simp only [insertBy]
    split
    · exact .refl _
    · exact (ih.cons y).trans (.swap x y rest)

theorem sortBy_perm (le : α → α → Bool) (l : List α) : (sortBy le l).Perm l := by
  induction l with
  | nil => exact .refl _
  | cons x rest ih => exact (insertBy_perm le x _).trans (ih.cons x)

section Distinct

variable {κ : Type} [DecidableEq κ]

/-- The first element of each key, in the order in which they stand. -/
def distinctBy (key : α → κ) : List α → List α
  | [] => []
  | x :: rest => x :: (distinctBy key rest).filter (fun y => key y ≠ key x)

/-- The elements in the order of their first occurrence. -/
def distinct (l : List κ) : List κ := distinctBy id l

theorem distinctBy_sublist (key : α → κ) (l : List α) : (distinctBy key l).Sublist l := by
  induction l with
  | nil => exact .slnil
  | cons x rest ih => exact (List.filter_sublist.trans ih).cons_cons x

theorem nodup_map_distinctBy (key : α → κ) (l : List α) : ((distinctBy key l).map key).Nodup := by
  induction l with
  | nil => exact List.nodup_nil
  | cons x rest ih =>
    simp only [distinctBy, List.map_cons, List.nodup_cons, List.mem_map, List.mem_filter]
    exact ⟨by simp, ih.sublist (List.filter_sublist.map key)⟩

@[simp] theorem mem_distinct (y : κ) (l : List κ) : y ∈ distinct l ↔ y ∈ l := by
  induction l with
  | nil => simp [distinct, distinctBy]
  | cons x rest ih =>
    simp only [distinct] at ih
    simp only [distinct, distinctBy, List.mem_cons, List.mem_filter, ih]
    by_cases h : y = x <;> simp [h]

theorem nodup_distinct (l : List κ) : (distinct l).Nodup := by
  simpa [distinct] using nodup_map_distinctBy id l

end Distinct

/-- The order of texts by code point. -/
def textLe (a b : String) : Bool := !decide (b < a)

/-- The order of integers. -/
def intLe (a b : Int) : Bool := a ≤ b

/-- An order turned around. -/
def descending (le : α → α → Bool) (a b : α) : Bool := le b a

/-- The order by what a function gives. -/
def byKey {κ : Type} (key : α → κ) (le : κ → κ → Bool) (a b : α) : Bool := le (key a) (key b)

/-- The order by `le`, and by `next` where `le` does not tell two elements apart. -/
def lexLe (le next : α → α → Bool) (a b : α) : Bool := le a b && (!le b a || next a b)

/-- The order of absent or present values: an absent value comes first. -/
def absentFirst (le : α → α → Bool) : Option α → Option α → Bool
  | none, _ => true
  | some _, none => false
  | some a, some b => le a b

end CatalogSearch
