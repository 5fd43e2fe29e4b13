import CatalogSearch.Proofs.Number.Binary64

/-!
# What rounding gives

What rounding to a binary number gives: of all numbers whose mantissa has 53 bits the nearest to the
quotient, and of two that are as near the one whose mantissa is even (`roundsTo_ofRatio`). The order
of the quotients and the integers between them are kept by it (`cutOff_mono`, `floor_le_cutOff`).
-/

namespace CatalogSearch

namespace Binary64

variable {num den n d : Nat} {r v w : ℚ} {x y : Binary64}

/-! ### The numbers of the scale -/

/-- The number that stands at a position of the scale. -/
def magnitude (p : Nat) : ℚ := mantissa p * 2 ^ exponent p

/-- The number with its sign. -/
def value (x : Binary64) : ℚ := if x.negative then -magnitude x.position else magnitude x.position

/-- The numbers with a mantissa of 53 bits, as finely spaced as the subnormal ones at the least. -/
def OnScale (v : ℚ) : Prop := ∃ m e : ℤ, |m| < 2 ^ 53 ∧ -1074 ≤ e ∧ v = m * 2 ^ e

theorem cast_binade : (binade : ℚ) = 2 ^ 52 := by norm_num [binade]

theorem OnScale.neg (h : OnScale v) : OnScale (-v) := by
  obtain ⟨m, e, hm, he, rfl⟩ := h
  exact ⟨-m, e, by rwa [abs_neg], he, by push_cast; ring⟩

theorem onScale_intCast {k : ℤ} (hk : |k| < 2 ^ 53) : OnScale k :=
  ⟨k, 0, hk, by decide, by simp⟩

theorem onScale_two_zpow {e : ℤ} (he : -1074 ≤ e) : OnScale (2 ^ e) :=
  ⟨1, e, by decide, he, by simp⟩

theorem exponent_ge (p : Nat) : -1074 ≤ exponent p := by
  rw [exponent]
  split
  · exact le_refl _
  · next h =>
    have hdiv : 1 ≤ p / binade := (Nat.one_le_div_iff (Nat.pow_pos (by decide))).2 (Nat.not_lt.1 h)
    omega

theorem onScale_magnitude (p : Nat) : OnScale (magnitude p) := by
  refine ⟨mantissa p, exponent p, ?_, exponent_ge p, by rw [magnitude, Int.cast_natCast]⟩
  rw [Nat.abs_cast]
  exact_mod_cast mantissa_lt p

theorem magnitude_nonneg (p : Nat) : 0 ≤ magnitude p := by
  rw [magnitude]
  positivity

/-- The mantissa and the position are even together. -/
theorem mantissa_mod_two (p : Nat) : mantissa p % 2 = p % 2 := by
  have hbinade : binade = 2 * (binade / 2) := by decide +kernel
  rw [mantissa]
  split
  · rfl
  · rw [Nat.add_mod, hbinade, Nat.mul_mod_right, Nat.zero_add, Nat.mod_mul_right_mod, Nat.mod_mod]

/-- The position that rounding puts together from a power of two and a mantissa, which may be one
too large for it. -/
theorem magnitude_shift {k m : Nat} (hm : k = 0 ∨ binade ≤ m) (hle : m ≤ 2 * binade) :
    magnitude (k * binade + m) = m * 2 ^ ((k : ℤ) - 1074) := by
  have hbinade : 0 < binade := Nat.pow_pos (by decide)
  rcases Nat.lt_or_ge m binade with hsub | hnormal
  · obtain rfl : k = 0 := hm.resolve_right (by omega)
    rw [Nat.zero_mul, Nat.zero_add, magnitude, mantissa, if_pos hsub, exponent, if_pos hsub]
    rfl
  obtain ⟨j, rfl⟩ := Nat.exists_eq_add_of_le hnormal
  have hdiv : (k * binade + (binade + j)) / binade = k + 1 + j / binade := by
    rw [← Nat.add_assoc, ← Nat.succ_mul, Nat.mul_comm, Nat.mul_add_div hbinade]
  have hmod : (k * binade + (binade + j)) % binade = j % binade := by
    rw [← Nat.add_assoc, ← Nat.succ_mul, Nat.mul_comm, Nat.mul_add_mod]
  have hnot : ¬k * binade + (binade + j) < binade := by omega
  rw [magnitude, mantissa, if_neg hnot, exponent, if_neg hnot, hdiv, hmod]
  rcases Nat.lt_or_ge j binade with hj | hj
  · rw [Nat.mod_eq_of_lt hj, Nat.div_eq_of_lt hj]
    congr 2
    omega
  · obtain rfl : j = binade := by omega
    rw [Nat.mod_self, Nat.div_self hbinade, Nat.add_zero,
      show ((k + 1 + 1 : Nat) : ℤ) - 1075 = 1 + ((k : ℤ) - 1074) by omega,
      zpow_add₀ two_ne_zero]
    push_cast
    ring

theorem two_zpow_le_magnitude {p : Nat} (hp : top ≤ p) : (2 : ℚ) ^ (1024 : ℤ) ≤ magnitude p := by
  have hbinade : 0 < binade := Nat.pow_pos (by decide)
  have hdiv : 2047 ≤ p / binade := (Nat.le_div_iff_mul_le hbinade).2 hp
  have hnot : ¬p < binade := by
    rw [top] at hp
    omega
  rw [magnitude, mantissa, if_neg hnot, exponent, if_neg hnot]
  calc (2 : ℚ) ^ (1024 : ℤ) = binade * 2 ^ (972 : ℤ) := by
        rw [cast_binade, ← zpow_natCast, ← zpow_add₀ two_ne_zero]
        rfl
    _ ≤ ((binade + p % binade : Nat) : ℚ) * 2 ^ (((p / binade : Nat) : ℤ) - 1075) := by
        gcongr
        · exact Nat.le_add_right _ _
        · norm_num
        · omega

/-! ### Rounding to an integer -/

/-- The rounded quotient is at most half the divisor off, and even where it is just that. -/
theorem halfEven_bounds (hd : 0 < d) (n : Nat) :
    2 * (d * halfEven n d) ≤ 2 * n + d ∧ 2 * n ≤ 2 * (d * halfEven n d) + d ∧
      (2 * (d * halfEven n d) = 2 * n + d ∨ 2 * n = 2 * (d * halfEven n d) + d →
        halfEven n d % 2 = 0) := by
  have hsplit := Nat.div_add_mod n d
  have hmod := Nat.mod_lt n hd
  rw [halfEven]
  split
  · refine ⟨?_, ?_, ?_⟩ <;> omega
  · rw [Nat.mul_add]
    refine ⟨?_, ?_, ?_⟩ <;> omega

theorem halfEven_near (hd : 0 < d) (n : Nat) : |(n : ℚ) / d - halfEven n d| ≤ 1 / 2 := by
  have hd' : (0 : ℚ) < d := by exact_mod_cast hd
  obtain ⟨habove, hbelow, -⟩ := halfEven_bounds hd n
  have habove' : (2 : ℚ) * (d * halfEven n d) ≤ 2 * n + d := by exact_mod_cast habove
  have hbelow' : (2 : ℚ) * n ≤ 2 * (d * halfEven n d) + d := by exact_mod_cast hbelow
  rw [abs_sub_le_iff, sub_le_iff_le_add, sub_le_comm, div_le_iff₀ hd', le_div_iff₀ hd']
  constructor <;> linarith

theorem halfEven_even (hd : 0 < d) (h : |(n : ℚ) / d - halfEven n d| = 1 / 2) :
    halfEven n d % 2 = 0 := by
  have hd' : (d : ℚ) ≠ 0 := by exact_mod_cast hd.ne'
  refine (halfEven_bounds hd n).2.2 ?_
  rcases eq_or_eq_neg_of_abs_eq h with h | h
  · right
    rw [sub_eq_iff_eq_add, div_eq_iff hd'] at h
    have hcast : (2 : ℚ) * n = 2 * (d * halfEven n d) + d := by linarith
    exact_mod_cast hcast
  · left
    rw [sub_eq_iff_eq_add, div_eq_iff hd'] at h
    have hcast : (2 : ℚ) * (d * halfEven n d) = 2 * n + d := by linarith
    exact_mod_cast hcast

/-! ### Rounding to a number of the scale -/

/-- `v`, whose mantissa is `m`, is the number of the scale nearest to `r`, and `m` is even where
another one is as near. -/
structure RoundsTo (r v : ℚ) (m : Nat) : Prop where
  onScale : OnScale v
  le : ∀ w, OnScale w → |r - v| ≤ |r - w|
  even : ∀ w, OnScale w → w ≠ v → |r - w| = |r - v| → m % 2 = 0

/-- A multiple of the spacing that is at most half of it off is nearer than the others. -/
theorem half_le_of_ne {u : ℚ} (hu : 0 < u) {k j : ℤ} (hnear : |r - k * u| ≤ u / 2) (hj : j ≠ k) :
    u / 2 ≤ |r - j * u| := by
  have hone : (1 : ℚ) ≤ |(k : ℚ) - j| := by
    exact_mod_cast Int.one_le_abs (sub_ne_zero.2 hj.symm)
  have happart : u ≤ |k * u - j * u| := by
    rw [← sub_mul, abs_mul, abs_of_pos hu]
    exact le_mul_of_one_le_left hu.le hone
  have htriangle := abs_sub_le (k * u) r (j * u)
  rw [abs_sub_comm (k * u) r] at htriangle
  linarith

theorem roundingExponent_bounds (hnum : 0 < num) (hden : 0 < den) :
    -1074 ≤ roundingExponent num den ∧
      (num : ℚ) / den / 2 ^ roundingExponent num den < 2 * binade ∧
      (roundingExponent num den = -1074 ∨
        binade ≤ (num : ℚ) / den / 2 ^ roundingExponent num den) := by
  have hr : (0 : ℚ) < num / den := by positivity
  have hlow : (2 : ℚ) ^ Int.log 2 ((num : ℚ) / den) ≤ num / den := by
    exact_mod_cast Int.zpow_log_le_self (b := 2) (by decide) hr
  have hhigh : (num : ℚ) / den < 2 ^ (Int.log 2 ((num : ℚ) / den) + 1) := by
    exact_mod_cast Int.lt_zpow_succ_log_self (b := 2) (by decide) ((num : ℚ) / den)
  rw [roundingExponent, floorLog2_eq_log hnum hden, cast_binade, ← pow_succ']
  refine ⟨le_max_left _ _, ?_, ?_⟩
  · rw [div_lt_iff₀ (by positivity), ← zpow_natCast, ← zpow_add₀ two_ne_zero]
    exact hhigh.trans_le (zpow_le_zpow_right₀ (by norm_num) (by omega))
  · rcases max_choice (-1074 : ℤ) (Int.log 2 ((num : ℚ) / den) - 52) with h | h
    · exact .inl h
    · right
      rw [h, le_div_iff₀ (by positivity), ← zpow_natCast, ← zpow_add₀ two_ne_zero]
      exact (zpow_le_zpow_right₀ (by norm_num) (by omega)).trans hlow

/-- The position that a quotient is rounded to stands for the multiple of a power of two that is
at most half of it off. The power is the least one, or the quotient has 53 bits above it. -/
theorem nearest_spec (hnum : 0 < num) (hden : 0 < den) :
    ∃ (k : ℕ) (q : ℤ), -1074 ≤ q ∧ (q = -1074 ∨ binade * 2 ^ q ≤ (num : ℚ) / den) ∧
      magnitude (nearest num den) = k * 2 ^ q ∧
      |(num : ℚ) / den - k * 2 ^ q| ≤ 2 ^ q / 2 ∧
      (|(num : ℚ) / den - k * 2 ^ q| = 2 ^ q / 2 → mantissa (nearest num den) % 2 = 0) := by
  obtain ⟨hq, hhigh, hlow⟩ := roundingExponent_bounds hnum hden
  have hposition := nearest_of_ne_zero hnum.ne' den
  have hscaled := scaled_div num den (roundingExponent num den)
  generalize roundingExponent num den = q at *
  have hd := pos_scaled hden q
  have hnear := halfEven_near hd (num * Nat.pow 2 (-q).toNat)
  have heven := halfEven_even hd (n := num * Nat.pow 2 (-q).toNat)
  have hbinade : q = -1074 ∨
      binade ≤ halfEven (num * Nat.pow 2 (-q).toNat) (den * Nat.pow 2 q.toNat) := by
    refine hlow.imp_right fun h => le_halfEven hd ?_
    rwa [hscaled]
  generalize halfEven (num * Nat.pow 2 (-q).toNat) (den * Nat.pow 2 q.toNat) = k at *
  rw [hscaled] at hnear heven
  have hu : (0 : ℚ) < 2 ^ q := by positivity
  have hoff : |(num : ℚ) / den - k * 2 ^ q| = |(num : ℚ) / den / 2 ^ q - k| * 2 ^ q := by
    rw [← abs_of_pos hu, ← abs_mul, abs_of_pos hu, sub_mul, div_mul_cancel₀ _ hu.ne']
  have hk : k ≤ 2 * binade := by
    have h := (abs_sub_le_iff.1 hnear).2
    have hlt : (k : ℚ) < (2 * binade : Nat) + 1 := by
      push_cast
      linarith
    exact Nat.le_of_lt_succ (by exact_mod_cast hlt)
  refine ⟨k, q, hq, hlow.imp_right (le_div_iff₀ hu).1, ?_, ?_, fun htie => ?_⟩
  · rw [hposition, magnitude_shift (hbinade.imp_left (by omega)) hk, Int.toNat_of_nonneg (by omega),
      add_sub_cancel_right]
  · rw [hoff]
    linarith [mul_le_mul_of_nonneg_right hnear hu.le]
  · have htwo : 2 ∣ binade := by decide +kernel
    have hk2 : k % 2 = 0 := heven (mul_right_cancel₀ hu.ne' (by rw [← hoff, htie]; ring))
    rw [mantissa_mod_two, hposition]
    exact Nat.mod_eq_zero_of_dvd ((htwo.mul_left _).add (Nat.dvd_of_mod_eq_zero hk2))

theorem mul_two_zpow_lt {m e q : ℤ} (hm : |m| < 2 ^ 53) (he : e < q) :
    (m : ℚ) * 2 ^ e < binade * 2 ^ q := by
  rw [cast_binade]
  have hm' : (m : ℚ) < 2 ^ 53 := by exact_mod_cast (le_abs_self m).trans_lt hm
  calc (m : ℚ) * 2 ^ e < 2 ^ 53 * 2 ^ e := by gcongr
    _ = 2 ^ 52 * 2 ^ (e + 1) := by
      rw [zpow_add_one₀ two_ne_zero]
      ring
    _ ≤ 2 ^ 52 * 2 ^ q := by
      gcongr
      · norm_num
      · exact he

theorem exists_mul_two_zpow {m e q : ℤ} (h : q ≤ e) : ∃ j : ℤ, (m : ℚ) * 2 ^ e = j * 2 ^ q := by
  obtain ⟨i, rfl⟩ := Int.le.dest h
  exact ⟨m * 2 ^ i, by push_cast; rw [zpow_add₀ two_ne_zero, zpow_natCast]; ring⟩

theorem roundsTo_zero : RoundsTo 0 0 0 :=
  ⟨⟨0, 0, by decide, by decide, by simp⟩, fun w _ => by simp, fun _ _ _ _ => rfl⟩

/-- Rounding finds the nearest number of the scale. -/
theorem roundsTo_nearest (hden : 0 < den) (num : Nat) :
    RoundsTo ((num : ℚ) / den) (magnitude (nearest num den)) (mantissa (nearest num den)) := by
  rcases Nat.eq_zero_or_pos num with rfl | hnum
  · have hzero : mantissa 0 = 0 := by decide +kernel
    rw [nearest_zero, magnitude, hzero, Nat.cast_zero, zero_div, zero_mul]
    exact roundsTo_zero
  obtain ⟨k, q, hq, hlow, hv, hnear, htie⟩ := nearest_spec hnum hden
  have hu : (0 : ℚ) < 2 ^ q := by positivity
  have hother {j : ℤ} (hj : j ≠ k) : 2 ^ q / 2 ≤ |(num : ℚ) / den - j * 2 ^ q| :=
    half_le_of_ne hu (by exact_mod_cast hnear) hj
  have hmultiple (j : ℤ) : |(num : ℚ) / den - k * 2 ^ q| ≤ |(num : ℚ) / den - j * 2 ^ q| := by
    by_cases hj : j = k
    · rw [hj, Int.cast_natCast]
    · exact hnear.trans (hother hj)
  -- what has a lesser power of two lies below all that has 53 bits above the power here
  have hfar : ∀ w, OnScale w → (∃ j : ℤ, w = j * 2 ^ q) ∨
      |(num : ℚ) / den - k * 2 ^ q| < |(num : ℚ) / den - w| := by
    rintro _ ⟨m, e, hm, he, rfl⟩
    rcases le_or_gt q e with hqe | hqe
    · exact .inl (exists_mul_two_zpow hqe)
    right
    have hlow := hlow.resolve_left (by omega)
    have hlt := mul_two_zpow_lt hm hqe
    have hleast := hmultiple binade
    rw [Int.cast_natCast, abs_of_nonneg (sub_nonneg.2 hlow)] at hleast
    rw [abs_of_pos (sub_pos.2 (hlt.trans_le hlow))]
    linarith
  refine ⟨onScale_magnitude _, fun w hw => ?_, fun w hw hne heq => ?_⟩
  · rw [hv]
    rcases hfar w hw with ⟨j, rfl⟩ | hlt
    · exact hmultiple j
    · exact hlt.le
  · rw [hv] at hne heq
    rcases hfar w hw with ⟨j, rfl⟩ | hlt
    · have hj : j ≠ k := by
        rintro rfl
        exact hne rfl
      exact htie (hnear.antisymm ((hother hj).trans_eq heq))
    · exact absurd heq hlt.ne'

/-! ### What rounding keeps -/

namespace RoundsTo

variable {r' v' : ℚ} {m m' : Nat}

theorem neg (h : RoundsTo r v m) : RoundsTo (-r) (-v) m := by
  have habs (w : ℚ) : |-r - w| = |r - -w| := by
    rw [← abs_neg, neg_sub, sub_neg_eq_add, sub_neg_eq_add, add_comm]
  refine ⟨h.onScale.neg, fun w hw => ?_, fun w hw hne heq => h.even (-w) hw.neg ?_ ?_⟩
  · rw [habs, habs, neg_neg]
    exact h.le (-w) hw.neg
  · rwa [ne_eq, neg_eq_iff_eq_neg]
  · rwa [habs, habs, neg_neg] at heq

theorem ge_of_ge (h : RoundsTo r v m) (hw : OnScale w) (hle : w ≤ r) : w ≤ v := by
  by_contra! hlt
  have hnear := h.le w hw
  rw [abs_of_nonneg (sub_nonneg.2 hle), abs_of_nonneg (sub_nonneg.2 (hlt.le.trans hle))] at hnear
  linarith

theorem le_of_le (h : RoundsTo r v m) (hw : OnScale w) (hle : r ≤ w) : v ≤ w :=
  neg_le_neg_iff.1 (h.neg.ge_of_ge hw.neg (neg_le_neg hle))

/-- The order is kept. -/
theorem mono (h : RoundsTo r v m) (h' : RoundsTo r' v' m') (hlt : r < r') : v ≤ v' := by
  by_contra! hcross
  have hnear := sq_le_sq.2 (h.le v' h'.onScale)
  have hnear' := sq_le_sq.2 (h'.le v h.onScale)
  linarith [mul_pos (sub_pos.2 hlt) (sub_pos.2 hcross)]

end RoundsTo

theorem nearest_lt_top (hden : 0 < den) (h : (num : ℚ) / den ≤ 2 ^ (1023 : ℤ)) :
    nearest num den < top := by
  by_contra! htop
  have hle := (roundsTo_nearest hden num).le_of_le (onScale_two_zpow (by decide)) h
  have hlt : (2 : ℚ) ^ (1023 : ℤ) < 2 ^ (1024 : ℤ) := zpow_lt_zpow_right₀ (by norm_num) (by decide)
  exact absurd ((two_zpow_le_magnitude htop).trans hle) hlt.not_ge

/-- A quotient of either sign that is not too large is rounded to the nearest number of the
scale. -/
theorem roundsTo_ofRatio (hden : 0 < den) (h : (num : ℚ) / den ≤ 2 ^ (1023 : ℤ))
    (negative : Bool) :
    (ofRatio negative num den).isFinite = true ∧
      RoundsTo (if negative then -((num : ℚ) / den) else (num : ℚ) / den)
        (ofRatio negative num den).value (mantissa (ofRatio negative num den).position) := by
  have hlt := nearest_lt_top hden h
  have hposition : (ofRatio negative num den).position = nearest num den := Nat.min_eq_left hlt.le
  have hround := roundsTo_nearest hden num
  refine ⟨decide_eq_true (by rwa [hposition]), ?_⟩
  rw [value, hposition]
  cases negative
  · exact hround
  · exact hround.neg

/-! ### Cutting off the fraction -/

/-- A number without what is after its point. -/
def cutOff (v : ℚ) : ℤ := if v < 0 then ⌈v⌉ else ⌊v⌋

theorem cutOff_of_nonneg (hv : 0 ≤ v) : cutOff v = ⌊v⌋ := if_neg hv.not_gt

theorem cutOff_neg (v : ℚ) : cutOff (-v) = -cutOff v := by
  rcases lt_trichotomy v 0 with hv | rfl | hv
  · rw [cutOff, cutOff, if_neg (by linarith), if_pos hv, Int.floor_neg]
  · simp [cutOff]
  · rw [cutOff, cutOff, if_pos (by linarith), if_neg (by linarith), Int.ceil_neg]

theorem cutOff_mono {v' : ℚ} (h : v ≤ v') : cutOff v ≤ cutOff v' := by
  rcases lt_or_ge v 0 with hv | hv
  · rw [cutOff, if_pos hv, cutOff]
    split
    · exact Int.ceil_le_ceil h
    · next hv' =>
      have hnonpos : ⌈v⌉ ≤ 0 := Int.ceil_le.2 (by exact_mod_cast hv.le)
      exact hnonpos.trans (Int.floor_nonneg.2 (not_lt.1 hv'))
  · rw [cutOff_of_nonneg hv, cutOff_of_nonneg (hv.trans h)]
    exact Int.floor_le_floor h

theorem truncate_eq (x : Binary64) : x.truncate = cutOff x.value := by
  have hden : (0 : ℚ) < x.den := by exact_mod_cast x.den_pos
  have hmagnitude : (x.num : ℚ) / x.den = magnitude x.position := magnitude_eq x.position
  have hfloor : ((x.num / x.den : Nat) : ℤ) = ⌊magnitude x.position⌋ := by
    rw [← hmagnitude]
    exact (Rat.floor_natCast_div_natCast x.num x.den).symm
  rw [truncate, value, hfloor]
  split
  · rw [cutOff_neg, cutOff_of_nonneg (magnitude_nonneg _)]
  · rw [cutOff_of_nonneg (magnitude_nonneg _)]

namespace RoundsTo

variable {m : Nat}

theorem nonneg (h : RoundsTo r v m) (hr : 0 ≤ r) : 0 ≤ v := by
  exact_mod_cast h.ge_of_ge (onScale_intCast (k := 0) (by decide)) (by exact_mod_cast hr)

/-- Neither rounding nor cutting off the fraction passes the integers next to a number. -/
theorem floor_le_cutOff (h : RoundsTo r v m) (hr : 0 ≤ r) (hlt : r < 2 ^ 52) : ⌊r⌋ ≤ cutOff v := by
  have habs : |⌊r⌋| < 2 ^ 53 := by
    rw [abs_of_nonneg (Int.floor_nonneg.2 hr), Int.floor_lt]
    push_cast
    linarith
  rw [cutOff_of_nonneg (h.nonneg hr), Int.le_floor]
  exact h.ge_of_ge (onScale_intCast habs) (Int.floor_le r)

theorem cutOff_le_ceil (h : RoundsTo r v m) (hr : 0 ≤ r) (hlt : r < 2 ^ 52) : cutOff v ≤ ⌈r⌉ := by
  have habs : |⌈r⌉| < 2 ^ 53 := by
    have hceil : ⌈r⌉ ≤ 2 ^ 52 := Int.ceil_le.2 (by exact_mod_cast hlt.le)
    rw [abs_of_nonneg (Int.ceil_nonneg hr)]
    omega
  rw [cutOff_of_nonneg (h.nonneg hr), ← Int.floor_intCast (R := ℚ) ⌈r⌉]
  exact Int.floor_le_floor (h.le_of_le (onScale_intCast habs) (Int.le_ceil r))

/-- With the fraction cut off, what was rounded is less than one off. -/
theorem abs_cutOff_sub_lt (h : RoundsTo r v m) (hr : |r| < 2 ^ 52) : |cutOff v - r| < 1 := by
  have hnonneg {s w : ℚ} (h : RoundsTo s w m) (hs : 0 ≤ s) (hlt : s < 2 ^ 52) :
      |cutOff w - s| < 1 := by
    have hfloor : (⌊s⌋ : ℚ) ≤ cutOff w := by exact_mod_cast h.floor_le_cutOff hs hlt
    have hceil : (cutOff w : ℚ) ≤ ⌈s⌉ := by exact_mod_cast h.cutOff_le_ceil hs hlt
    rw [abs_sub_lt_iff]
    constructor
    · linarith [Int.ceil_lt_add_one s]
    · linarith [Int.lt_floor_add_one s]
  obtain ⟨hlow, hhigh⟩ := abs_lt.1 hr
  rcases le_or_gt 0 r with hpos | hneg
  · exact hnonneg h hpos hhigh
  · have hflip := hnonneg h.neg (by linarith) (by linarith)
    rwa [cutOff_neg, ← abs_neg, neg_sub, Int.cast_neg, sub_neg_eq_add, neg_add_eq_sub] at hflip

/-- What is a millionth or more below an integer of 34 bits is not rounded to it: a number of the
scale lies nearer. -/
theorem lt_of_below (h : RoundsTo r v m) {k : ℤ} (hpos : 0 < k) (hk : k ≤ 2 ^ 34)
    (hr : r ≤ k - 1 / 1000000) : v < k := by
  have hw : OnScale ((k : ℚ) - 1 / 2 ^ 19) := by
    refine ⟨k * 2 ^ 19 - 1, -19, abs_lt.2 ⟨by omega, by omega⟩, by decide, ?_⟩
    push_cast
    rw [zpow_neg]
    norm_num
    ring
  rcases le_or_gt r (k - 1 / 2 ^ 19) with hle | hgt
  · have hv := h.le_of_le hw hle
    norm_num at hv
    linarith
  · by_contra! hkv
    have hnear := h.le _ hw
    rw [abs_of_neg (by linarith), abs_of_pos (sub_pos.2 hgt)] at hnear
    norm_num at hnear
    linarith

theorem cutOff_natCast_div {n : ℕ} (h : RoundsTo (n / 1000000) v m) (hn : n < 2 ^ 34 * 1000000) :
    cutOff v = (n / 1000000 : ℕ) := by
  have hr : (0 : ℚ) ≤ n / 1000000 := by positivity
  have hlt : (n : ℚ) < 2 ^ 34 * 1000000 := by exact_mod_cast hn
  have hfloor : ⌊(n : ℚ) / 1000000⌋ = (n / 1000000 : ℕ) := Rat.floor_natCast_div_natCast n 1000000
  have hbelow : (n : ℚ) / 1000000 ≤ ((n / 1000000 + 1 : ℕ) : ℤ) - 1 / 1000000 := by
    have hmod : (n : ℚ) + 1 ≤ 1000000 * (n / 1000000 + 1 : ℕ) := by
      exact_mod_cast (show n + 1 ≤ 1000000 * (n / 1000000 + 1) by omega)
    rw [Int.cast_natCast]
    linarith
  have hhigh := Int.floor_lt.2 (h.lt_of_below (by omega) (by omega) hbelow)
  have hlow := h.floor_le_cutOff hr (by linarith)
  rw [cutOff_of_nonneg (h.nonneg hr)] at hlow ⊢
  omega

/-- Up to 34 bits, a number of millionths is rounded to one that has its integer part. -/
theorem cutOff_millionths {n : ℤ} (h : RoundsTo (n / 1000000) v m) (hn : |n| < 2 ^ 34 * 1000000) :
    cutOff v = n.tdiv 1000000 := by
  obtain ⟨k, rfl | rfl⟩ := n.eq_nat_or_neg
  · rw [Nat.abs_cast] at hn
    exact cutOff_natCast_div h (by exact_mod_cast hn)
  · rw [abs_neg, Nat.abs_cast] at hn
    have hflip : RoundsTo ((k : ℚ) / 1000000) (-v) m := by simpa [neg_div] using h.neg
    rw [← neg_neg v, cutOff_neg, cutOff_natCast_div hflip (by exact_mod_cast hn), Int.neg_tdiv]
    rfl

end RoundsTo

end Binary64

end CatalogSearch
