/-!
# Digits in a base

Natural numbers as digits in a base, most significant digit first.

`value_digits` reads the digits of a number back, and `digits_lt` says that each of them is below
the base.
-/

namespace CatalogSearch.Positional

/-- The digits of `n`, at least one, without leading zeros. -/
def digits (base n : Nat) : List Nat :=
  if 2 ≤ base ∧ base ≤ n then digits base (n / base) ++ [n % base] else [n]
termination_by n
decreasing_by exact Nat.div_lt_self (by omega) (by omega)

/-- The number that a list of digits denotes; the empty list denotes zero. -/
def value (base : Nat) (ds : List Nat) : Nat := ds.foldl (fun n d => n * base + d) 0

theorem digits_of_lt {base n : Nat} (h : n < base) : digits base n = [n] := by
  rw [digits, if_neg (by omega)]

theorem digits_of_le {base n : Nat} (hb : 2 ≤ base) (h : base ≤ n) :
    digits base n = digits base (n / base) ++ [n % base] := by
  rw [digits, if_pos ⟨hb, h⟩]

@[simp] theorem value_nil (base : Nat) : value base [] = 0 := rfl

@[simp] theorem value_concat (base : Nat) (ds : List Nat) (d : Nat) :
    value base (ds ++ [d]) = value base ds * base + d := by
  simp [value]

theorem value_digits {base : Nat} (hb : 2 ≤ base) (n : Nat) : value base (digits base n) = n := by
  induction n using Nat.strongRecOn with
  | ind n ih =>
    by_cases h : base ≤ n
    · rw [digits_of_le hb h, value_concat, ih _ (Nat.div_lt_self (by omega) (by omega))]
      exact Nat.div_add_mod' n base
    · rw [digits_of_lt (by omega)]; simp [value]

theorem digits_lt {base : Nat} (hb : 2 ≤ base) (n : Nat) : ∀ d ∈ digits base n, d < base := by
  induction n using Nat.strongRecOn with
  | ind n ih =>
    by_cases h : base ≤ n
    · rw [digits_of_le hb h]
      intro d hd
      rcases List.mem_append.1 hd with hd | hd
      · exact ih _ (Nat.div_lt_self (by omega) (by omega)) d hd
      · rw [List.mem_singleton.1 hd]; exact Nat.mod_lt _ (by omega)
    · rw [digits_of_lt (by omega)]; simp; omega

theorem digits_ne_nil (base n : Nat) : digits base n ≠ [] := by
  rw [digits]; split <;> simp

end CatalogSearch.Positional
