import CatalogSearch.Time.Moment
import CatalogSearch.Proofs.Number.Rounding
import CatalogSearch.Proofs.Time.Calendar

/-!
# Seconds since 1970

The seconds since 1970 that a moment is given (`epochSeconds_exact_ordered`). The microseconds are
counted from the calendar and the clock. Their quotient by a million is rounded to a binary number
before its fraction is cut off, which is harmless up to the year 2514 and at most one second off
after it.
-/

namespace CatalogSearch

namespace Moment

variable {t u : Moment} {n m : ℤ}

/-- `t` is `n` microseconds after 1970-01-01T00:00:00Z: the days between the dates, the time of the
day and, from them, the offset, none where the moment has none. -/
def Elapsed (t : Moment) (n : ℤ) : Prop :=
  ∃ days, Date.Apart epoch.date t.date days ∧
    n = (((days * 24 + t.clock.hour) * 60 + t.clock.minute
      - (t.offset.map (·.minutes)).getD 0) * 60 + t.clock.second) * 1000000 + t.clock.micro

theorem elapsed_iff : t.Elapsed n ↔ n = t.microseconds := by
  have hepoch : epoch.date.dayNumber = 0 := by decide +kernel
  simp only [Elapsed, Date.apart_iff, hepoch, zero_add, microseconds]
  constructor
  · rintro ⟨days, rfl, rfl⟩
    rfl
  · rintro rfl
    exact ⟨_, rfl, rfl⟩

theorem abs_microseconds_lt (t : Moment) : |t.microseconds| < 2 ^ 52 * 1000000 := by
  have hfirst : Date.first.dayNumber = -719162 := by decide +kernel
  have hlow := t.date.dayNumber_ge
  have hhigh := t.date.dayNumber_lt
  have hclock := t.clock.valid
  have hoffset : -1440 < (t.offset.map (·.minutes)).getD 0 ∧
      (t.offset.map (·.minutes)).getD 0 < 1440 := by
    cases t.offset with
    | none => decide
    | some o => exact o.valid
  rw [abs_lt, microseconds]
  omega

theorem quotient_eq (n : ℤ) : (if n < 0 then -((n.natAbs : ℚ) / (1000000 : ℕ))
    else (n.natAbs : ℚ) / (1000000 : ℕ)) = n / 1000000 := by
  rw [Nat.cast_natAbs]
  split
  · next hn =>
    rw [abs_of_neg hn, Int.cast_neg, neg_div, neg_neg]
    rfl
  · next hn =>
    rw [abs_of_nonneg (not_lt.1 hn)]
    rfl

/-- The quotient of the microseconds by a million is rounded, and the seconds are what is before
the point of it. -/
theorem epochSeconds_rounded (t : Moment) :
    ∃ x : Binary64, x.isFinite = true ∧
      Binary64.RoundsTo (t.microseconds / 1000000) x.value (Binary64.mantissa x.position) ∧
      t.epochSeconds = Binary64.cutOff x.value := by
  have hlarge : (t.microseconds.natAbs : ℚ) / (1000000 : ℕ) ≤ 2 ^ (1023 : ℤ) := by
    have habs : (|t.microseconds| : ℚ) < 2 ^ 52 * 1000000 := by exact_mod_cast t.abs_microseconds_lt
    rw [Nat.cast_natAbs, Int.cast_abs, div_le_iff₀ (by norm_num)]
    calc (|t.microseconds| : ℚ) ≤ 2 ^ (52 : ℤ) * 1000000 := by exact_mod_cast habs.le
      _ ≤ 2 ^ (1023 : ℤ) * (1000000 : ℕ) := by
        rw [Nat.cast_ofNat]
        gcongr <;> norm_num
  obtain ⟨hfinite, hround⟩ :=
    Binary64.roundsTo_ofRatio (by decide) hlarge (decide (t.microseconds < 0))
  simp only [decide_eq_true_eq, quotient_eq] at hround
  exact ⟨_, hfinite, hround, Binary64.truncate_eq _⟩

theorem epochSeconds_mono (h : t.microseconds ≤ u.microseconds) :
    t.epochSeconds ≤ u.epochSeconds := by
  rcases h.eq_or_lt with heq | hlt
  · rw [epochSeconds, epochSeconds, heq]
  obtain ⟨x, -, hx, hvalue⟩ := t.epochSeconds_rounded
  obtain ⟨y, -, hy, hvalue'⟩ := u.epochSeconds_rounded
  have hquotient : (t.microseconds : ℚ) / 1000000 < u.microseconds / 1000000 := by gcongr
  rw [hvalue, hvalue']
  exact Binary64.cutOff_mono (hx.mono hy hquotient)

theorem abs_epochSeconds_sub_lt (t : Moment) :
    |t.epochSeconds * 1000000 - t.microseconds| < 1000000 := by
  obtain ⟨x, -, hx, hvalue⟩ := t.epochSeconds_rounded
  have hsmall : |(t.microseconds : ℚ) / 1000000| < 2 ^ 52 := by
    rw [abs_div, abs_of_pos (by norm_num : (0 : ℚ) < 1000000), div_lt_iff₀ (by norm_num)]
    exact_mod_cast t.abs_microseconds_lt
  have hnear := hx.abs_cutOff_sub_lt hsmall
  rw [← hvalue] at hnear
  have hscaled : |((t.epochSeconds * 1000000 - t.microseconds : ℤ) : ℚ)| < 1000000 := by
    have hsplit : ((t.epochSeconds * 1000000 - t.microseconds : ℤ) : ℚ) =
        (t.epochSeconds - t.microseconds / 1000000) * 1000000 := by
      push_cast
      ring
    rw [hsplit, abs_mul, abs_of_pos (by norm_num : (0 : ℚ) < 1000000)]
    linarith
  exact_mod_cast hscaled

/-- The seconds of a moment that lies `n` microseconds after 1970, of which there is just one
number: the quotient by a million is rounded to the nearest number of 53 bits, ties to even, and
its fraction cut off. What comes out is exact below 34 bits and always less than a second off, the
same for the same instant in any offset, and in the order of the instants. -/
theorem epochSeconds_exact_ordered (t : Moment) : (∃! n, t.Elapsed n) ∧ ∀ n, t.Elapsed n →
    (∃ x : Binary64, x.isFinite = true ∧
      Binary64.RoundsTo (n / 1000000) x.value (Binary64.mantissa x.position) ∧
      t.epochSeconds = Binary64.cutOff x.value) ∧
    (|n| < 2 ^ 34 * 1000000 → t.epochSeconds = n.tdiv 1000000) ∧
    |t.epochSeconds * 1000000 - n| < 1000000 ∧
    ∀ (u : Moment) (m : ℤ), u.Elapsed m → (n = m → t.epochSeconds = u.epochSeconds) ∧
      (n ≤ m → t.epochSeconds ≤ u.epochSeconds) := by
  simp only [elapsed_iff]
  refine ⟨⟨_, rfl, fun _ h => h⟩, ?_⟩
  rintro _ rfl
  refine ⟨t.epochSeconds_rounded, fun hsmall => ?_, t.abs_epochSeconds_sub_lt, ?_⟩
  · obtain ⟨x, -, hx, hvalue⟩ := t.epochSeconds_rounded
    rw [hvalue, hx.cutOff_millionths hsmall]
  · rintro u _ rfl
    exact ⟨fun h => le_antisymm (epochSeconds_mono h.le) (epochSeconds_mono h.ge),
      epochSeconds_mono⟩

/-- One and a half seconds before 1970. -/
def beforeEpoch : Moment := ⟨⟨1969, 12, 31, by decide⟩, ⟨23, 59, 58, 500000, by decide⟩, none⟩

/-- The same instant, five and a half hours east of it. -/
def beforeEpochEast : Moment :=
  ⟨epoch.date, ⟨5, 29, 58, 500000, by decide⟩, some ⟨330, by decide⟩⟩

theorem epochSeconds_exact_ordered_sample :
    beforeEpoch.Elapsed (-1500000) ∧ beforeEpochEast.Elapsed (-1500000) ∧
      beforeEpoch.epochSeconds = -1 ∧ beforeEpochEast.epochSeconds = beforeEpoch.epochSeconds ∧
      beforeEpoch.epochSeconds ≤ epoch.epochSeconds := by
  have hwest : beforeEpoch.Elapsed (-1500000) := elapsed_iff.2 (by decide +kernel)
  have heast : beforeEpochEast.Elapsed (-1500000) := elapsed_iff.2 (by decide +kernel)
  have hepoch : epoch.Elapsed 0 := elapsed_iff.2 (by decide +kernel)
  obtain ⟨-, hlaw⟩ := epochSeconds_exact_ordered beforeEpoch
  obtain ⟨-, hexact, -, hothers⟩ := hlaw _ hwest
  exact ⟨hwest, heast, hexact (by decide), ((hothers _ _ heast).1 rfl).symm,
    (hothers _ _ hepoch).2 (by decide)⟩

/-- Past 34 bits the fraction may be rounded up to a whole second. -/
example : epochSeconds
    ⟨⟨9999, 12, 31, by decide⟩, ⟨23, 59, 59, 999999, by decide⟩, none⟩ = 253402300800 := by
  decide +kernel

end Moment

end CatalogSearch
