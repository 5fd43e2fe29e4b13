import CatalogSearch.Time.Calendar
import Mathlib.Algebra.Order.Group.Nat
import Mathlib.Data.Nat.Basic
import Mathlib.Tactic.SplitIfs

/-!
# The calendar day by day

From a day one comes to the next within its month, to the first of the next month or to the first of
the next year, and `Date.dayNumber` grows by one with each step (`Next.dayNumber_eq`). So it counts
the days between any two dates (`apart_iff`).
-/

namespace CatalogSearch

namespace Date

variable {d e f : Date} {n : ℤ}

/-- `e` is the day after `d`. -/
inductive Next (d e : Date) : Prop
  | inMonth (year : e.year = d.year) (month : e.month = d.month) (day : e.day = d.day + 1)
  | inYear (year : e.year = d.year) (last : d.day = daysInMonth d.year d.month)
      (month : e.month = d.month + 1) (day : e.day = 1)
  | newYear (year : e.year = d.year + 1) (last : d.month = 12 ∧ d.day = 31)
      (month : e.month = 1) (day : e.day = 1)

/-- `e` is `n` days after `d`, or `-n` days before it. -/
inductive Apart (d : Date) : Date → ℤ → Prop
  | same : Apart d d 0
  | next {e f : Date} {n : ℤ} : Apart d e n → Next e f → Apart d f (n + 1)
  | previous {e f : Date} {n : ℤ} : Apart d f n → Next e f → Apart d e (n - 1)

/-- The first day of the calendar. -/
def first : Date := ⟨1, 1, 1, by decide⟩

theorem isLeapYear_iff (year : Nat) :
    isLeapYear year = true ↔ 4 ∣ year ∧ (¬100 ∣ year ∨ 400 ∣ year) := by
  simp [isLeapYear, Nat.dvd_iff_mod_eq_zero]

/-- A leap year is counted as every fourth but no hundredth or else as every four-hundredth. -/
theorem daysBeforeYear_succ {year : Nat} (h : 1 ≤ year) :
    daysBeforeYear (year + 1) = daysBeforeYear year + if isLeapYear year then 366 else 365 := by
  obtain ⟨y, rfl⟩ := Nat.exists_eq_add_of_le' h
  have hcentury : y / 100 ≤ y := Nat.div_le_self y 100
  have hcentury' : 100 ∣ y + 1 → 4 ∣ y + 1 := (Nat.dvd_trans (by decide) ·)
  have hfourth : 400 ∣ y + 1 → 100 ∣ y + 1 := (Nat.dvd_trans (by decide) ·)
  simp only [daysBeforeYear, Nat.add_sub_cancel, isLeapYear_iff, Nat.succ_div]
  generalize y / 4 = fours, y / 100 = centuries, y / 400 = cycles at *
  split_ifs <;> omega

theorem daysBeforeMonth_succ {year month : Nat} (h : 1 ≤ month) :
    daysBeforeMonth year (month + 1) = daysBeforeMonth year month + daysInMonth year month := by
  obtain ⟨m, rfl⟩ := Nat.exists_eq_add_of_le' h
  rfl

theorem daysBeforeMonth_december (year : Nat) :
    daysBeforeMonth year 12 + 31 = if isLeapYear year then 366 else 365 := by
  simp only [daysBeforeMonth, daysInMonth]
  cases isLeapYear year <;> rfl

theorem daysInMonth_bounds (year month : Nat) :
    1 ≤ daysInMonth year month ∧ daysInMonth year month ≤ 31 := by
  rw [daysInMonth]
  split_ifs <;> decide

theorem daysBeforeMonth_le (year month : Nat) : daysBeforeMonth year month ≤ 31 * month := by
  fun_induction daysBeforeMonth year month with
  | case1 | case2 => exact Nat.zero_le _
  | case3 month _ ih =>
    have hdays := (daysInMonth_bounds year month).2
    omega

theorem ranges (d : Date) : (1 ≤ d.year ∧ d.year ≤ 9999) ∧ (1 ≤ d.month ∧ d.month ≤ 12) ∧
    1 ≤ d.day ∧ d.day ≤ daysInMonth d.year d.month := by
  have hd := d.valid
  simp only [isCalendarDay, Bool.and_eq_true, decide_eq_true_eq] at hd
  omega

theorem Next.dayNumber_eq (h : Next d e) : e.dayNumber = d.dayNumber + 1 := by
  obtain ⟨⟨hyear, -⟩, ⟨hmonth, -⟩, hday, -⟩ := d.ranges
  rw [dayNumber, dayNumber]
  cases h with
  | inMonth hy hm hd =>
    rw [hy, hm, hd]
    omega
  | inYear hy hlast hm hd =>
    rw [hy, hm, hd, daysBeforeMonth_succ hmonth, ← hlast]
    omega
  | newYear hy hlast hm hd =>
    have hdecember := daysBeforeMonth_december d.year
    rw [hy, hm, hd, daysBeforeYear_succ hyear, hlast.1, hlast.2, ← hdecember, daysBeforeMonth]
    omega

/-- Every day but the first comes after another. -/
theorem exists_next (h : d ≠ first) : ∃ e, Next e d := by
  obtain ⟨⟨hyear, hyear'⟩, ⟨hmonth, hmonth'⟩, hday, hday'⟩ := d.ranges
  have hvalid {y m k : Nat} (hy : 1 ≤ y ∧ y ≤ 9999) (hm : 1 ≤ m ∧ m ≤ 12)
      (hk : 1 ≤ k ∧ k ≤ daysInMonth y m) : isCalendarDay y m k = true := by
    simp [isCalendarDay, hy, hm, hk]
  by_cases hd : d.day = 1
  · by_cases hm : d.month = 1
    · have hy : d.year ≠ 1 := fun hy => h (by
        obtain ⟨y, m, k, hv⟩ := d
        subst hd hm hy
        rfl)
      exact ⟨⟨d.year - 1, 12, 31, hvalid (by omega) (by decide) ⟨by decide, Nat.le_refl 31⟩⟩,
        .newYear (by simp; omega) ⟨rfl, rfl⟩ hm hd⟩
    · exact ⟨⟨d.year, d.month - 1, daysInMonth d.year (d.month - 1),
        hvalid ⟨hyear, hyear'⟩ (by omega) ⟨(daysInMonth_bounds _ _).1, Nat.le_refl _⟩⟩,
        .inYear rfl rfl (by simp; omega) hd⟩
  · exact ⟨⟨d.year, d.month, d.day - 1, hvalid ⟨hyear, hyear'⟩ ⟨hmonth, hmonth'⟩ (by omega)⟩,
      .inMonth rfl rfl (by simp; omega)⟩

theorem Apart.dayNumber_eq (h : Apart d e n) : e.dayNumber = d.dayNumber + n := by
  induction h with
  | same => omega
  | next _ hnext ih => rw [hnext.dayNumber_eq, ih]; omega
  | previous _ hnext ih => rw [hnext.dayNumber_eq] at ih; omega

theorem dayNumber_ge (d : Date) : first.dayNumber ≤ d.dayNumber := by
  rw [show first.dayNumber = -719162 by decide +kernel, dayNumber, daysBeforeEpoch]
  omega

/-- The calendar spans less than four million days. -/
theorem dayNumber_lt (d : Date) : d.dayNumber < 4000000 := by
  obtain ⟨⟨-, hyear⟩, ⟨-, hmonth⟩, -, hday⟩ := d.ranges
  have hmonths := daysBeforeMonth_le d.year d.month
  have hdays := (daysInMonth_bounds d.year d.month).2
  have hyears : daysBeforeYear d.year ≤ 366 * d.year := by
    rw [daysBeforeYear]
    omega
  rw [dayNumber]
  omega

/-- From each day one comes to the first one, and from there to each. -/
theorem exists_apart_iff (d e : Date) : (∃ n, Apart d e n) ↔ ∃ n, Apart d first n := by
  -- the days before `e` are walked through, the nearest one first
  induction hk : (e.dayNumber - first.dayNumber).toNat generalizing e with
  | zero =>
    by_cases he : e = first
    · rw [he]
    · obtain ⟨f, hf⟩ := exists_next he
      have hge := f.dayNumber_ge
      have hnumber := hf.dayNumber_eq
      omega
  | succ k ih =>
    have he : e ≠ first := by
      rintro rfl
      omega
    obtain ⟨f, hf⟩ := exists_next he
    have hnumber := hf.dayNumber_eq
    rw [← ih f (by omega)]
    constructor
    · rintro ⟨n, hn⟩
      exact ⟨n - 1, hn.previous hf⟩
    · rintro ⟨n, hn⟩
      exact ⟨n + 1, hn.next hf⟩

/-- The days between two dates are those between their numbers. -/
theorem apart_iff : Apart d e n ↔ e.dayNumber = d.dayNumber + n := by
  refine ⟨Apart.dayNumber_eq, fun h => ?_⟩
  obtain ⟨m, hm⟩ := (exists_apart_iff d e).2 ((exists_apart_iff d d).1 ⟨0, .same⟩)
  obtain rfl : m = n := by
    have hnumber := hm.dayNumber_eq
    omega
  exact hm

end Date

end CatalogSearch
