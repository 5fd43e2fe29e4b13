import CatalogSearch.Number.Binary64
import CatalogSearch.Proofs.Number.Decimal
import Mathlib.Algebra.Order.Field.Power
import Mathlib.Data.Int.Log
import Mathlib.Data.Rat.Floor
import Mathlib.Tactic.Linarith

/-!
# Rounding to binary numbers

Rounding to binary numbers depends on nothing but the quotient that is rounded (`ofDecimal_congr`),
and a finite number is rounded to itself (`ofRatio_self`). The exponents that `ofDecimal` tells
without computing their powers lie so far outside the scale that computing them would give the same.
-/

namespace CatalogSearch

namespace Binary64

variable {num den num' den' n d : Nat} {negative : Bool}

/-! ### Powers on either side of a quotient -/

theorem pow_div_pow (base : Nat) (hbase : 0 < base) (e : Int) :
    (base : ℚ) ^ e.toNat / (base : ℚ) ^ (-e).toNat = (base : ℚ) ^ e := by
  have hne : (base : ℚ) ≠ 0 := by exact_mod_cast hbase.ne'
  rcases le_total 0 e with he | he
  · have hneg : (-e).toNat = 0 := Int.toNat_of_nonpos (by omega)
    rw [hneg, pow_zero, div_one, ← zpow_natCast, Int.toNat_of_nonneg he]
  · have hneg : ((-e).toNat : Int) = -e := Int.toNat_of_nonneg (by omega)
    rw [Int.toNat_of_nonpos he, pow_zero, ← zpow_natCast, hneg, zpow_neg, one_div, inv_inv]

/-- A quotient scaled down by a power of two. -/
theorem scaled_div (num den : Nat) (q : Int) :
    ((num * Nat.pow 2 (-q).toNat : Nat) : ℚ) / ((den * Nat.pow 2 q.toNat : Nat) : ℚ) =
      (num : ℚ) / den / 2 ^ q := by
  have hpow := pow_div_pow 2 (by decide) q
  simp only [Nat.pow_eq, Nat.cast_mul, Nat.cast_pow, Nat.cast_ofNat] at hpow ⊢
  rw [← hpow, div_div_div_eq]

/-! ### Rounding to an integer -/

theorem halfEven_mul {k : Nat} (hk : 0 < k) (n d : Nat) :
    halfEven (k * n) (k * d) = halfEven n d := by
  have hlt : 2 * (k * (n % d)) < k * d ↔ 2 * (n % d) < d := by
    rw [Nat.mul_left_comm]
    exact Nat.mul_lt_mul_left hk
  have heq : 2 * (k * (n % d)) = k * d ↔ 2 * (n % d) = d := by
    rw [Nat.mul_left_comm]
    exact Nat.mul_right_inj hk.ne'
  simp only [halfEven, Nat.mul_div_mul_left _ _ hk, Nat.mul_mod_mul_left, hlt, heq]

theorem halfEven_congr {n' d' : Nat} (hd : 0 < d) (hd' : 0 < d')
    (h : (n : ℚ) / d = (n' : ℚ) / d') : halfEven n d = halfEven n' d' := by
  rw [div_eq_div_iff (by exact_mod_cast hd.ne') (by exact_mod_cast hd'.ne')] at h
  have hcross : n * d' = n' * d := by exact_mod_cast h
  rw [← halfEven_mul hd' n d, ← halfEven_mul hd n' d', Nat.mul_comm d' n, hcross,
    Nat.mul_comm n' d, Nat.mul_comm d' d]

theorem halfEven_of_eq {m : Nat} (hd : 0 < d) (h : (n : ℚ) / d = m) : halfEven n d = m := by
  have hone : (n : ℚ) / d = (m : ℚ) / (1 : Nat) := by rw [h, Nat.cast_one, div_one]
  rw [halfEven_congr hd Nat.one_pos hone]
  simp [halfEven, Nat.mod_one]

theorem le_halfEven {m : Nat} (hd : 0 < d) (h : (m : ℚ) ≤ (n : ℚ) / d) : m ≤ halfEven n d := by
  have hm : m ≤ n / d := by
    rw [Nat.le_div_iff_mul_le hd]
    rw [le_div_iff₀ (by exact_mod_cast hd)] at h
    exact_mod_cast h
  rw [halfEven]
  split <;> omega

theorem halfEven_eq_zero (hd : 0 < d) (h : (n : ℚ) / d < 1 / 2) : halfEven n d = 0 := by
  have hn : 2 * n < d := by
    rw [div_lt_iff₀ (by exact_mod_cast hd)] at h
    have h2 : (2 * n : ℚ) < d := by linarith
    exact_mod_cast h2
  rw [halfEven, Nat.div_eq_of_lt (by omega), Nat.mod_eq_of_lt (by omega)]
  exact if_pos (.inl hn)

/-! ### Rounding to a position -/

theorem pos_scaled (hden : 0 < den) (q : Int) : 0 < den * Nat.pow 2 q.toNat :=
  Nat.mul_pos hden (Nat.pow_pos (by decide))

theorem log_eq_of_bounds {r : ℚ} {e : Int} (hlow : (2 : ℚ) ^ e ≤ r) (hhigh : r < 2 ^ (e + 1)) :
    Int.log 2 r = e := by
  have hr : 0 < r := lt_of_lt_of_le (by positivity) hlow
  have hle := (Int.zpow_le_iff_le_log (b := 2) (by decide) hr).1 (by exact_mod_cast hlow)
  have hlt := (Int.lt_zpow_iff_log_lt (b := 2) (by decide) hr).1 (by exact_mod_cast hhigh)
  omega

theorem floorLog2_eq_log (hnum : 0 < num) (hden : 0 < den) :
    floorLog2 num den = Int.log 2 ((num : ℚ) / den) := by
  have hnumLow : (2 : ℚ) ^ (num.log2 : Int) ≤ num := by
    exact_mod_cast Nat.log2_self_le hnum.ne'
  have hnumHigh : (num : ℚ) < 2 ^ ((num.log2 : Int) + 1) := by
    exact_mod_cast Nat.lt_log2_self (n := num)
  have hdenLow : (2 : ℚ) ^ (den.log2 : Int) ≤ den := by
    exact_mod_cast Nat.log2_self_le hden.ne'
  have hdenHigh : (den : ℚ) < 2 ^ ((den.log2 : Int) + 1) := by
    exact_mod_cast Nat.lt_log2_self (n := den)
  have hden' : (0 : ℚ) < den := by exact_mod_cast hden
  have hlow : (2 : ℚ) ^ ((num.log2 : Int) - den.log2 - 1) ≤ num / den := by
    rw [le_div_iff₀ hden']
    calc (2 : ℚ) ^ ((num.log2 : Int) - den.log2 - 1) * den
        ≤ 2 ^ ((num.log2 : Int) - den.log2 - 1) * 2 ^ ((den.log2 : Int) + 1) := by gcongr
      _ = 2 ^ (num.log2 : Int) := by
        rw [← zpow_add₀ two_ne_zero]
        congr 1
        omega
      _ ≤ num := hnumLow
  have hhigh : (num : ℚ) / den < 2 ^ ((num.log2 : Int) - den.log2 + 1) := by
    rw [div_lt_iff₀ hden']
    calc (num : ℚ) < 2 ^ ((num.log2 : Int) + 1) := hnumHigh
      _ = 2 ^ ((num.log2 : Int) - den.log2 + 1) * 2 ^ (den.log2 : Int) := by
        rw [← zpow_add₀ two_ne_zero]
        congr 1
        omega
      _ ≤ 2 ^ ((num.log2 : Int) - den.log2 + 1) * den := by gcongr
  have hbelow (e : Int) : num * Nat.pow 2 (-e).toNat < den * Nat.pow 2 e.toNat ↔
      (num : ℚ) / den < 2 ^ e := by
    have hscaled : (0 : ℚ) < ((den * Nat.pow 2 e.toNat : Nat) : ℚ) := by
      exact_mod_cast pos_scaled hden e
    rw [← Nat.cast_lt (α := ℚ), ← div_lt_one hscaled, scaled_div, div_lt_one (by positivity)]
  rw [floorLog2]
  split
  · next h => exact (log_eq_of_bounds hlow (by simpa using (hbelow _).1 h)).symm
  · next h => exact (log_eq_of_bounds (not_lt.1 fun hlt => h ((hbelow _).2 hlt)) hhigh).symm

theorem nearest_zero (den : Nat) : nearest 0 den = 0 := if_pos rfl

theorem nearest_of_ne_zero (hnum : num ≠ 0) (den : Nat) :
    nearest num den = (roundingExponent num den + 1074).toNat * binade +
      halfEven (num * Nat.pow 2 (-roundingExponent num den).toNat)
        (den * Nat.pow 2 (roundingExponent num den).toNat) :=
  if_neg hnum

/-- Only the quotient counts. -/
theorem nearest_congr (hden : 0 < den) (hden' : 0 < den')
    (h : (num : ℚ) / den = (num' : ℚ) / den') : nearest num den = nearest num' den' := by
  have hzero : num = 0 ↔ num' = 0 := by
    have hd : (den : ℚ) ≠ 0 := by exact_mod_cast hden.ne'
    have hd' : (den' : ℚ) ≠ 0 := by exact_mod_cast hden'.ne'
    have hiff : (num : ℚ) / den = 0 ↔ (num' : ℚ) / den' = 0 := by rw [h]
    simpa [hd, hd'] using hiff
  by_cases hnum : num = 0
  · rw [hnum, hzero.1 hnum, nearest_zero, nearest_zero]
  · have hq : roundingExponent num den = roundingExponent num' den' := by
      rw [roundingExponent, roundingExponent, floorLog2_eq_log (Nat.pos_of_ne_zero hnum) hden,
        floorLog2_eq_log (Nat.pos_of_ne_zero fun h => hnum (hzero.2 h)) hden', h]
    rw [nearest_of_ne_zero hnum, nearest_of_ne_zero fun h => hnum (hzero.2 h), hq,
      halfEven_congr (pos_scaled hden _) (pos_scaled hden' _) (by rw [scaled_div, scaled_div, h])]

/-- What is far above the scale is rounded to a position beyond it. -/
theorem top_le_nearest (hden : 0 < den) (h : (2 : ℚ) ^ (1024 : Int) ≤ num / den) :
    top ≤ nearest num den := by
  have hpos : (0 : ℚ) < num / den := lt_of_lt_of_le (by positivity) h
  have hnum : 0 < num := by
    rcases Nat.eq_zero_or_pos num with rfl | hnum
    · simp at hpos
    · exact hnum
  have hlog : 1024 ≤ floorLog2 num den := by
    rw [floorLog2_eq_log hnum hden]
    exact (Int.zpow_le_iff_le_log (b := 2) (by decide) hpos).1 (by exact_mod_cast h)
  have hlow : (2 : ℚ) ^ floorLog2 num den ≤ num / den := by
    rw [floorLog2_eq_log hnum hden]
    exact_mod_cast Int.zpow_log_le_self (b := 2) (by decide) hpos
  have hq : roundingExponent num den = floorLog2 num den - 52 := by
    rw [roundingExponent]
    omega
  have hmantissa : binade ≤ halfEven (num * Nat.pow 2 (-roundingExponent num den).toNat)
      (den * Nat.pow 2 (roundingExponent num den).toNat) := by
    refine le_halfEven (pos_scaled hden _) ?_
    rw [scaled_div, hq, le_div_iff₀ (by positivity)]
    calc ((binade : Nat) : ℚ) * 2 ^ (floorLog2 num den - 52)
        = 2 ^ (52 : Int) * 2 ^ (floorLog2 num den - 52) := by norm_num [binade]
      _ = 2 ^ floorLog2 num den := by
        rw [← zpow_add₀ two_ne_zero]
        congr 1
        omega
      _ ≤ num / den := hlow
  have hshift : 2046 * binade ≤ (roundingExponent num den + 1074).toNat * binade :=
    Nat.mul_le_mul_right _ (by omega)
  rw [nearest_of_ne_zero hnum.ne', top]
  omega

/-- What is far below the least positive number is rounded to zero. -/
theorem nearest_eq_zero (hden : 0 < den) (h : (num : ℚ) / den < 2 ^ (-1075 : Int)) :
    nearest num den = 0 := by
  rcases Nat.eq_zero_or_pos num with rfl | hnum
  · exact nearest_zero den
  have hpos : (0 : ℚ) < num / den := by positivity
  have hlog : floorLog2 num den < -1075 := by
    rw [floorLog2_eq_log hnum hden]
    exact (Int.lt_zpow_iff_log_lt (b := 2) (by decide) hpos).1 (by exact_mod_cast h)
  have hq : roundingExponent num den = -1074 := by
    rw [roundingExponent]
    omega
  have hhalf : (num : ℚ) / den / 2 ^ (-1074 : Int) < 1 / 2 := by
    rw [div_lt_iff₀ (by positivity)]
    calc (num : ℚ) / den < 2 ^ (-1075 : Int) := h
      _ = 2 ^ (-1 : Int) * 2 ^ (-1074 : Int) := by rw [← zpow_add₀ two_ne_zero]; rfl
      _ = 1 / 2 * 2 ^ (-1074 : Int) := by rw [zpow_neg_one, one_div]
  rw [nearest_of_ne_zero hnum.ne', halfEven_eq_zero (pos_scaled hden _)
    (by rw [scaled_div, hq]; exact hhalf), hq]
  simp

/-! ### Decimals -/

/-- The quotient that a decimal is. -/
theorem decimal_div (d : Nat) (e : Int) :
    ((d * Nat.pow 10 e.toNat : Nat) : ℚ) / ((Nat.pow 10 (-e).toNat : Nat) : ℚ) = d * 10 ^ e := by
  have hpow := pow_div_pow 10 (by decide) e
  simp only [Nat.pow_eq, Nat.cast_mul, Nat.cast_pow, Nat.cast_ofNat] at hpow ⊢
  rw [← hpow, mul_div_assoc]

theorem two_zpow_le_ten_zpow : (2 : ℚ) ^ (1200 : Int) ≤ 10 ^ (400 : Int) := by
  rw [show (1200 : Int) = 3 * 400 from rfl, zpow_mul]
  exact zpow_le_zpow_left₀ (by decide) (by positivity) (by norm_num)

theorem ofPosition_of_top_le {p : Nat} (h : top ≤ p) (negative : Bool) :
    ofPosition negative p = ofPosition negative top := by
  simp only [ofPosition, Nat.min_eq_right h, Nat.min_self]

/-- Decimals are rounded as the quotients that they are, also those whose exponents lie outside the
scale. -/
theorem ofDecimal_eq_ofRatio (negative : Bool) (d : Nat) (e : Int) :
    ofDecimal negative d e =
      ofRatio negative (d * Nat.pow 10 e.toNat) (Nat.pow 10 (-e).toNat) := by
  have hden : 0 < Nat.pow 10 (-e).toNat := Nat.pow_pos (by decide)
  rw [ofDecimal, ofRatio]
  split
  · next hd => rw [hd, Nat.zero_mul, nearest_zero]
  next hd =>
  have hpos : (1 : ℚ) ≤ d := by exact_mod_cast Nat.pos_of_ne_zero hd
  split
  · next he =>
    refine (ofPosition_of_top_le (top_le_nearest hden ?_) negative).symm
    rw [decimal_div]
    calc (2 : ℚ) ^ (1024 : Int) ≤ 2 ^ (1200 : Int) := zpow_le_zpow_right₀ (by norm_num) (by decide)
      _ ≤ 10 ^ (400 : Int) := two_zpow_le_ten_zpow
      _ ≤ 10 ^ e := zpow_le_zpow_right₀ (by norm_num) he.le
      _ ≤ d * 10 ^ e := le_mul_of_one_le_left (by positivity) hpos
  split
  · next he =>
    rw [nearest_eq_zero hden]
    rw [decimal_div]
    have hdigits : (d : ℚ) < 10 ^ ((Positional.digits 10 d).length : Int) := by
      have hlt : ∀ d' ∈ Positional.digits 10 d, d' < 10 := Positional.digits_lt (by decide) d
      have h := Positional.value_lt hlt
      rw [Positional.value_digits (by decide)] at h
      exact_mod_cast h
    calc (d : ℚ) * 10 ^ e
        < 10 ^ ((Positional.digits 10 d).length : Int) * 10 ^ e := by gcongr
      _ = 10 ^ (e + (Positional.digits 10 d).length) := by
        rw [← zpow_add₀ (by norm_num), add_comm]
      _ ≤ 10 ^ (-400 : Int) := zpow_le_zpow_right₀ (by norm_num) he.le
      _ ≤ 2 ^ (-1200 : Int) := by
        rw [zpow_neg, zpow_neg]
        exact inv_anti₀ (by positivity) two_zpow_le_ten_zpow
      _ ≤ 2 ^ (-1075 : Int) := zpow_le_zpow_right₀ (by norm_num) (by decide)
  · rfl

theorem pow_ten_pos (n : Nat) : 0 < Nat.pow 10 n := Nat.pow_pos (by decide)

/-- A decimal that is equal to a quotient is rounded as the quotient. -/
theorem ofDecimal_of_eq {e : Int} (hden : 0 < den) (h : (d : ℚ) * 10 ^ e = (num : ℚ) / den)
    (negative : Bool) : ofDecimal negative d e = ofRatio negative num den := by
  rw [ofDecimal_eq_ofRatio, ofRatio, ofRatio,
    nearest_congr (pow_ten_pos _) hden ((decimal_div d e).trans h)]

/-- Decimals that are equal are rounded to the same number. -/
theorem ofDecimal_congr {d' : Nat} {e e' : Int} (h : (d : ℚ) * 10 ^ e = (d' : ℚ) * 10 ^ e')
    (negative : Bool) : ofDecimal negative d e = ofDecimal negative d' e' := by
  rw [ofDecimal_eq_ofRatio negative d' e',
    ofDecimal_of_eq (pow_ten_pos _) (h.trans (decimal_div d' e').symm)]

/-! ### What is on the scale -/

theorem mantissa_lt (p : Nat) : mantissa p < 2 * binade := by
  have hmod := Nat.mod_lt p (show 0 < binade from Nat.pow_pos (by decide))
  rw [mantissa]
  split <;> omega

theorem mantissa_bounds {p : Nat} (hp : 0 < p) : 0 < mantissa p ∧ mantissa p < 2 * binade := by
  have hbinade : 0 < binade := Nat.pow_pos (by decide)
  refine ⟨?_, mantissa_lt p⟩
  rw [mantissa]
  split <;> omega

theorem magnitude_eq (p : Nat) :
    ((mantissa p * Nat.pow 2 (exponent p).toNat : Nat) : ℚ) /
      ((Nat.pow 2 (-exponent p).toNat : Nat) : ℚ) = mantissa p * 2 ^ exponent p := by
  have hpow := pow_div_pow 2 (by decide) (exponent p)
  simp only [Nat.pow_eq, Nat.cast_mul, Nat.cast_pow, Nat.cast_ofNat] at hpow ⊢
  rw [← hpow, mul_div_assoc]

theorem floorLog2_magnitude {p : Nat} (hp : 0 < p) (hn : 0 < num) (hden : 0 < den)
    (h : (num : ℚ) / den = mantissa p * 2 ^ exponent p) :
    floorLog2 num den = (mantissa p).log2 + exponent p := by
  have hm := (mantissa_bounds hp).1
  have hlow : (2 : ℚ) ^ ((mantissa p).log2 : Int) ≤ mantissa p := by
    exact_mod_cast Nat.log2_self_le hm.ne'
  have hhigh : (mantissa p : ℚ) < 2 ^ (((mantissa p).log2 : Int) + 1) := by
    exact_mod_cast Nat.lt_log2_self (n := mantissa p)
  rw [floorLog2_eq_log hn hden, h]
  refine log_eq_of_bounds ?_ ?_
  · rw [zpow_add₀ two_ne_zero]
    gcongr
  · rw [add_right_comm, zpow_add₀ two_ne_zero]
    gcongr

/-- The exponent of a position is the one at which its magnitude is rounded. -/
theorem roundingExponent_magnitude {p : Nat} (hp : 0 < p) (hn : 0 < num) (hden : 0 < den)
    (h : (num : ℚ) / den = mantissa p * 2 ^ exponent p) :
    roundingExponent num den = exponent p := by
  have hbounds := mantissa_bounds hp
  rw [roundingExponent, floorLog2_magnitude hp hn hden h]
  have hhigh : (mantissa p).log2 < 53 := (Nat.log2_lt hbounds.1.ne').2 (by
    calc mantissa p < 2 * binade := hbounds.2
      _ = 2 ^ 53 := rfl)
  by_cases hsub : p < binade
  · have hexponent : exponent p = -1074 := if_pos hsub
    have hlog : (mantissa p).log2 < 52 := (Nat.log2_lt hbounds.1.ne').2 (by
      rw [mantissa, if_pos hsub]
      exact hsub)
    omega
  · have hexponent : exponent p = ((p / binade : Nat) : Int) - 1075 := if_neg hsub
    have hdiv : 1 ≤ p / binade :=
      (Nat.one_le_div_iff (Nat.pow_pos (by decide))).2 (Nat.not_lt.1 hsub)
    have hlog : 52 ≤ (mantissa p).log2 := by
      rw [Nat.le_log2 hbounds.1.ne', mantissa, if_neg hsub]
      exact Nat.le_add_right _ _
    omega

/-- A magnitude is nearest to itself. -/
theorem nearest_magnitude (p : Nat) :
    nearest (mantissa p * Nat.pow 2 (exponent p).toNat) (Nat.pow 2 (-exponent p).toNat) = p := by
  have hbinade : 0 < binade := Nat.pow_pos (by decide)
  rcases Nat.eq_zero_or_pos p with rfl | hp
  · have hzero : mantissa 0 = 0 := if_pos hbinade
    rw [hzero, Nat.zero_mul, nearest_zero]
  have hden : 0 < Nat.pow 2 (-exponent p).toNat := Nat.pow_pos (by decide)
  have hnum : 0 < mantissa p * Nat.pow 2 (exponent p).toNat :=
    Nat.mul_pos (mantissa_bounds hp).1 (Nat.pow_pos (by decide))
  have hq := roundingExponent_magnitude hp hnum hden (magnitude_eq p)
  have hmantissa : halfEven
      (mantissa p * Nat.pow 2 (exponent p).toNat * Nat.pow 2 (-exponent p).toNat)
      (Nat.pow 2 (-exponent p).toNat * Nat.pow 2 (exponent p).toNat) = mantissa p := by
    refine halfEven_of_eq (pos_scaled hden _) ?_
    rw [scaled_div, magnitude_eq, mul_div_assoc, div_self (by positivity), mul_one]
  rw [nearest_of_ne_zero hnum.ne', hq, hmantissa]
  by_cases hsub : p < binade
  · rw [exponent, if_pos hsub, mantissa, if_pos hsub]
    simp
  · have hdiv : 1 ≤ p / binade := (Nat.one_le_div_iff hbinade).2 (Nat.not_lt.1 hsub)
    have hshift : (((p / binade : Nat) : Int) - 1075 + 1074).toNat = p / binade - 1 := by omega
    rw [exponent, if_neg hsub, mantissa, if_neg hsub, hshift, ← Nat.add_assoc, ← Nat.succ_mul,
      Nat.succ_eq_add_one, Nat.sub_add_cancel hdiv]
    exact Nat.div_add_mod' p binade

variable {x : Binary64}

theorem den_pos (x : Binary64) : 0 < x.den := Nat.pow_pos (by decide)

/-- A finite number is rounded to itself. -/
theorem ofRatio_self (hx : x.isFinite = true) : ofRatio x.negative x.num x.den = x := by
  obtain ⟨negative, p, hp⟩ := x
  have hfinite : p < top := of_decide_eq_true hx
  have hnearest : nearest (num ⟨negative, p, hp⟩) (den ⟨negative, p, hp⟩) = p :=
    nearest_magnitude p
  simp only [ofRatio, ofPosition, hnearest, Nat.min_eq_left hfinite.le]

end Binary64

end CatalogSearch
