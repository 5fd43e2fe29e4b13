import CatalogSearch.Number.Positional
import Mathlib.Algebra.Group.Nat.Defs
import Mathlib.Data.List.Basic
import Mathlib.Data.List.Induction

/-!
# Digits and numbers

Digits in any base. A list of digits without zeros in front is that of its number (`digits_value`),
and how many digits a number has says between which powers of the base it lies
(`length_digits_le_iff`). So numbers are ordered as their digits are, by their count first and then
from the most significant one on (`lt_iff_digits`).
-/

namespace CatalogSearch.Positional

variable {base n : Nat} {ds es : List Nat}

theorem value_cons (base d : Nat) (ds : List Nat) :
    value base (d :: ds) = d * base ^ ds.length + value base ds := by
  induction ds using List.reverseRecOn with
  | nil => simp [value]
  | append_singleton ds e ih =>
    rw [← List.cons_append, value_concat, ih, value_concat, List.length_append,
      List.length_singleton, Nat.pow_succ, Nat.add_mul, Nat.mul_assoc, Nat.add_assoc]

theorem value_lt (h : ∀ d ∈ ds, d < base) : value base ds < base ^ ds.length := by
  induction ds using List.reverseRecOn with
  | nil => exact Nat.one_pos
  | append_singleton ds d ih =>
    have hds := ih fun d' hd' => h d' (List.mem_append_left _ hd')
    have hd := h d (List.mem_append_right ds List.mem_cons_self)
    rw [value_concat, List.length_append, List.length_singleton, Nat.pow_succ]
    calc value base ds * base + d < value base ds * base + base := by omega
      _ = (value base ds + 1) * base := by rw [Nat.succ_mul]
      _ ≤ base ^ ds.length * base := Nat.mul_le_mul_right base hds

/-! ### Zeros in front -/

theorem value_dropWhile_zero (base : Nat) (ds : List Nat) :
    value base (ds.dropWhile (· = 0)) = value base ds := by
  induction ds with
  | nil => rfl
  | cons d rest ih =>
    by_cases hd : d = 0
    · rw [List.dropWhile_cons_of_pos (by simpa using hd), ih, value_cons, hd, Nat.zero_mul,
        Nat.zero_add]
    · rw [List.dropWhile_cons_of_neg (by simpa using hd)]

/-- The digits of a number do not start with a zero unless it is zero. -/
theorem eq_zero_of_head?_digits (hb : 2 ≤ base) (h : (digits base n).head? = some 0) : n = 0 := by
  induction n using Nat.strongRecOn with
  | ind n ih =>
    by_cases hn : base ≤ n
    · have hdiv : n / base < n := Nat.div_lt_self (by omega) (by omega)
      rw [digits_of_le hb hn, List.head?_append_of_ne_nil _ (digits_ne_nil base _)] at h
      have hzero : n / base = 0 := ih _ hdiv h
      rw [Nat.div_eq_zero_iff] at hzero
      omega
    · rw [digits_of_lt (by omega)] at h
      exact Option.some.inj h

/-- Digits without zeros in front are those of their number. -/
theorem digits_value (hb : 2 ≤ base) (hds : ∀ d ∈ ds, d < base) (hne : ds ≠ [])
    (hhead : ds.head? ≠ some 0) : digits base (value base ds) = ds := by
  induction ds using List.reverseRecOn with
  | nil => exact absurd rfl hne
  | append_singleton ds d ih =>
    obtain ⟨hds, hd⟩ := List.forall_mem_append.1 hds
    replace hd : d < base := hd d List.mem_cons_self
    by_cases hnil : ds = []
    · subst hnil
      rw [value_concat, value_nil, Nat.zero_mul, Nat.zero_add, digits_of_lt hd, List.nil_append]
    · rw [List.head?_append_of_ne_nil _ hnil] at hhead
      have hrest := ih hds hnil hhead
      have hpos : 0 < value base ds := by
        apply Nat.pos_of_ne_zero
        intro hzero
        rw [hzero, digits_of_lt (by omega)] at hrest
        exact hhead (hrest ▸ rfl)
      have hle : base ≤ value base ds * base + d :=
        Nat.le_add_right_of_le (Nat.le_mul_of_pos_left base hpos)
      have hdiv : (value base ds * base + d) / base = value base ds := by
        rw [Nat.mul_comm, Nat.mul_add_div (by omega), Nat.div_eq_of_lt hd, Nat.add_zero]
      have hmod : (value base ds * base + d) % base = d := by
        rw [Nat.mul_comm, Nat.mul_add_mod, Nat.mod_eq_of_lt hd]
      rw [value_concat, digits_of_le hb hle, hdiv, hmod, hrest]

/-! ### Order -/

theorem length_digits_le_iff (hb : 2 ≤ base) {k : Nat} (hk : 0 < k) :
    (digits base n).length ≤ k ↔ n < base ^ k := by
  constructor
  · intro hlen
    calc n = value base (digits base n) := (value_digits hb n).symm
      _ < base ^ (digits base n).length := value_lt (digits_lt hb n)
      _ ≤ base ^ k := Nat.pow_le_pow_right (by omega) hlen
  · intro hn
    induction k generalizing n with
    | zero => exact absurd hk (Nat.lt_irrefl 0)
    | succ k ih =>
      by_cases hle : base ≤ n
      · have hk : 0 < k := by
          apply Nat.pos_of_ne_zero
          rintro rfl
          rw [Nat.zero_add, Nat.pow_one] at hn
          omega
        have hdiv : n / base < base ^ k := Nat.div_lt_of_lt_mul (by rwa [Nat.mul_comm])
        rw [digits_of_le hb hle, List.length_append, List.length_singleton]
        exact Nat.succ_le_succ (ih hk hdiv)
      · rw [digits_of_lt (by omega), List.length_singleton]
        omega

/-- Of as many digits each, the numbers are in the order of the digits. -/
theorem value_lt_value_iff (hds : ∀ d ∈ ds, d < base) (hes : ∀ e ∈ es, e < base)
    (hlen : ds.length = es.length) : value base ds < value base es ↔ ds < es := by
  induction ds generalizing es with
  | nil =>
    obtain rfl := List.eq_nil_of_length_eq_zero hlen.symm
    exact iff_of_false (Nat.lt_irrefl _) (List.lt_irrefl _)
  | cons d ds ih =>
    cases es with
    | nil => cases hlen
    | cons e es =>
      obtain ⟨-, hds⟩ := List.forall_mem_cons.1 hds
      obtain ⟨-, hes⟩ := List.forall_mem_cons.1 hes
      replace hlen : ds.length = es.length := Nat.succ.inj hlen
      have hd := value_lt hds
      have he := value_lt hes
      rw [List.cons_lt_cons_iff, ← ih hds hes hlen, value_cons, value_cons, hlen]
      rw [hlen] at hd
      -- what follows the first digits is less than one unit of these
      have hstep {a b x y : Nat} (hx : x < base ^ es.length) (hab : a < b) :
          a * base ^ es.length + x < b * base ^ es.length + y := by
        calc a * base ^ es.length + x < (a + 1) * base ^ es.length := by rw [Nat.succ_mul]; omega
          _ ≤ b * base ^ es.length := Nat.mul_le_mul_right _ hab
          _ ≤ b * base ^ es.length + y := Nat.le_add_right _ y
      rcases Nat.lt_trichotomy d e with hlt | rfl | hgt
      · exact iff_of_true (hstep hd hlt) (.inl hlt)
      · omega
      · have := hstep (y := value base ds) he hgt
        omega

/-- Numbers are in the order of how many digits they have, and of their digits where these are
equally many. -/
theorem lt_iff_digits (hb : 2 ≤ base) (m n : Nat) :
    m < n ↔ (digits base m).length < (digits base n).length ∨
      (digits base m).length = (digits base n).length ∧ digits base m < digits base n := by
  have hpos (k : Nat) : 0 < (digits base k).length := List.length_pos_iff.2 (digits_ne_nil base k)
  have hlt (k : Nat) : k < base ^ (digits base k).length :=
    (length_digits_le_iff hb (hpos k)).1 (Nat.le_refl _)
  have hshorter {j k : Nat} (h : (digits base j).length < (digits base k).length) : j < k := by
    have hle : base ^ (digits base j).length ≤ k :=
      Nat.le_of_not_lt fun hk => Nat.not_le_of_lt h ((length_digits_le_iff hb (hpos j)).2 hk)
    exact Nat.lt_of_lt_of_le (hlt j) hle
  rcases Nat.lt_trichotomy (digits base m).length (digits base n).length with hlen | hlen | hlen
  · exact iff_of_true (hshorter hlen) (.inl hlen)
  · have hvalues := value_lt_value_iff (digits_lt hb m) (digits_lt hb n) hlen
    rw [value_digits hb, value_digits hb] at hvalues
    rw [hvalues]
    simp only [hlen, Nat.lt_irrefl, false_or, true_and]
  · have := hshorter hlen
    refine iff_of_false (by omega) ?_
    rintro (h | ⟨h, -⟩) <;> omega

end CatalogSearch.Positional
