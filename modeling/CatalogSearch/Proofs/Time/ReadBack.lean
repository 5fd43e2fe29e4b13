import CatalogSearch.Proofs.Number.Decimal
import CatalogSearch.Proofs.Time.Calendar
import CatalogSearch.Time.Reader

/-!
# Moments are read back

A moment is read back from its text (`ofText?_text`).
-/

namespace CatalogSearch

open Decimal Scientific

theorem Date.of?_self (d : Date) : Date.of? d.year d.month d.day = some d := dif_pos d.valid

theorem Clock.of?_self (c : Clock) : Clock.of? c.hour c.minute c.second c.micro = some c :=
  dif_pos c.valid

theorem Offset.of?_self (o : Offset) : Offset.of? o.minutes = some o := dif_pos o.valid

/-- The numbers of a date have at most four and two digits. -/
theorem Date.bounds (d : Date) : d.year < 10000 ∧ d.month < 100 ∧ d.day < 100 := by
  have hranges := d.ranges
  have hdays := (daysInMonth_bounds d.year d.month).2
  omega

namespace Moment

variable {rest : List Char}

theorem readTwo_digits {a b : Char} (ha : a.isDigit = true) (hb : b.isDigit = true) :
    readTwo (a :: b :: rest) = some (digitsValue [a, b], rest) := by
  rw [readTwo, Text.asciiDigitValue?, Text.asciiDigitValue?, if_pos ha, if_pos hb]
  simp [digitsValue, Positional.value]

theorem readTwo_padded {n : Nat} (h : n < 100) : readTwo (padded 2 n ++ rest) = some (n, rest) := by
  obtain ⟨a, b, hab⟩ : ∃ a b, padded 2 n = [a, b] := by
    have hlen : (padded 2 n).length = 2 := length_padded h (by decide)
    match hp : padded 2 n, hlen with
    | [a, b], _ => exact ⟨a, b, rfl⟩
  have hdigit : ∀ c ∈ [a, b], c.isDigit = true := hab ▸ isDigit_of_mem_padded
  rw [hab, ← digitsValue_padded 2 n, hab]
  exact readTwo_digits (hdigit a (by simp)) (hdigit b (by simp))

/-- A year is read by two digits and two more. -/
theorem readTwo_year {n : Nat} (h : n < 10000) (rest : List Char) : ∃ century year s,
    readTwo (padded 4 n ++ rest) = some (century, s) ∧ readTwo s = some (year, rest) ∧
      century * 100 + year = n := by
  obtain ⟨a, b, c, d, habcd⟩ : ∃ a b c d, padded 4 n = [a, b, c, d] := by
    have hlen : (padded 4 n).length = 4 := length_padded h (by decide)
    match hp : padded 4 n, hlen with
    | [a, b, c, d], _ => exact ⟨a, b, c, d, rfl⟩
  have hdigit : ∀ x ∈ [a, b, c, d], x.isDigit = true := habcd ▸ isDigit_of_mem_padded
  refine ⟨digitsValue [a, b], digitsValue [c, d], c :: d :: rest, ?_,
    readTwo_digits (hdigit c (by simp)) (hdigit d (by simp)), ?_⟩
  · rw [habcd]
    exact readTwo_digits (hdigit a (by simp)) (hdigit b (by simp))
  · rw [← digitsValue_padded 4 n, habcd]
    simp only [digitsValue, Positional.value, List.map_cons, List.map_nil, List.foldl_cons,
      List.foldl_nil]
    omega

theorem readMark_self (c : Char) : readMark c (c :: rest) = some rest := if_pos rfl

theorem readDate_text (d : Date) :
    readDate (padded 4 d.year ++ '-' :: (padded 2 d.month ++ '-' :: (padded 2 d.day ++ rest))) =
      some (d, rest) := by
  obtain ⟨hyear, hmonth, hday⟩ := d.bounds
  obtain ⟨century, year, s, hcentury, hs, hsum⟩ :=
    readTwo_year hyear ('-' :: (padded 2 d.month ++ '-' :: (padded 2 d.day ++ rest)))
  simp only [readDate, hcentury, hs, readMark_self, readTwo_padded hmonth, readTwo_padded hday,
    hsum, d.of?_self, Option.bind_eq_bind, Option.bind_some]
  rfl

/-- What comes after the seconds: neither a digit nor the mark of a fraction. -/
def EndsClock (s : List Char) : Prop := ∀ c ∈ s.head?, c.isDigit = false ∧ c ≠ '.' ∧ c ≠ ','

theorem readMicros_text {micro : Nat} (h : micro < 1000000) (hrest : EndsClock rest) :
    readMicros ((if micro = 0 then [] else '.' :: padded 6 micro) ++ rest) =
      some (micro, rest) := by
  split
  · next hzero =>
    subst hzero
    cases rest with
    | nil => rfl
    | cons c rest =>
      obtain ⟨-, hpoint, hcomma⟩ := hrest c rfl
      exact if_neg (not_or.2 ⟨hpoint, hcomma⟩)
  · have hlen : (padded 6 micro).length = 6 := length_padded h (by decide)
    have hdigits : readDigits (padded 6 micro ++ rest) = some (padded 6 micro, rest) :=
      readDigits_append (List.ne_nil_of_length_eq_add_one hlen) isDigit_of_mem_padded
        fun c hc => (hrest c hc).1
    have hmicros : fractionMicros (padded 6 micro) = micro := by
      rw [fractionMicros, List.take_of_length_le (by omega), hlen]
      exact (Nat.mul_one _).trans (digitsValue_padded 6 micro)
    rw [List.cons_append, readMicros, if_pos (.inl rfl), hdigits, Option.map_some, hmicros]

theorem readClock_text (c : Clock) (hrest : EndsClock rest) :
    readClock (padded 2 c.hour ++ ':' :: (padded 2 c.minute ++ ':' :: (padded 2 c.second ++
      ((if c.micro = 0 then [] else '.' :: padded 6 c.micro) ++ rest)))) = some (c, rest) := by
  obtain ⟨hhour, hminute, hsecond, hmicro⟩ := c.valid
  simp only [readClock, readMark_self, readTwo_padded (show c.hour < 100 by omega),
    readTwo_padded (show c.minute < 100 by omega), readTwo_padded (show c.second < 100 by omega),
    readMicros_text hmicro hrest, c.of?_self, Option.bind_eq_bind, Option.bind_some]
  rfl

theorem readOffsetMinutes_text {n : Nat} (h : n < 1440) :
    readOffsetMinutes (padded 2 (n / 60) ++ ':' :: padded 2 (n % 60)) = some n := by
  have hminutes : n % 60 < 60 := Nat.mod_lt _ (by decide)
  have hread : readTwo (padded 2 (n % 60) ++ []) = some (n % 60, []) :=
    readTwo_padded (by omega)
  rw [List.append_nil] at hread
  simp only [readOffsetMinutes, readTwo_padded (show n / 60 < 100 by omega), hread,
    Option.bind_eq_bind, Option.bind_some, hminutes, List.isEmpty_nil, and_self, if_true]
  exact congrArg some (Nat.div_add_mod' n 60)

theorem readOffset_text (o : Offset) : readOffset (offsetText o) = some (some o) := by
  have hbounds := o.valid
  have hminutes := readOffsetMinutes_text (show o.minutes.natAbs < 1440 by omega)
  rw [offsetText]
  split
  · next hzero =>
    obtain ⟨minutes, _⟩ := o
    subst hzero
    rfl
  · split
    · next hneg =>
      have hself : -(o.minutes.natAbs : Int) = o.minutes := by omega
      simp only [readOffset, hminutes, Option.bind_eq_bind, Option.bind_some, hself, o.of?_self]
      rfl
    · next hpos =>
      have hself : (o.minutes.natAbs : Int) = o.minutes := by omega
      simp only [readOffset, hminutes, Option.bind_eq_bind, Option.bind_some, hself, o.of?_self]
      rfl

theorem endsClock_offsetText (o : Offset) : EndsClock (offsetText o) := by
  intro c hc
  rw [offsetText] at hc
  split at hc
  · cases hc
    decide
  · split at hc <;>
    · cases hc
      decide

theorem ofText?_parts (date : Date) (clock : Clock) {offset : Option Offset}
    (hends : EndsClock rest) (hoffset : readOffset rest = some offset) :
    ofText? (padded 4 date.year ++ '-' :: (padded 2 date.month ++ '-' :: (padded 2 date.day ++
      'T' :: (padded 2 clock.hour ++ ':' :: (padded 2 clock.minute ++ ':' ::
        (padded 2 clock.second ++
          ((if clock.micro = 0 then [] else '.' :: padded 6 clock.micro) ++ rest))))))) =
      some ⟨date, clock, offset⟩ := by
  simp only [ofText?, readDate_text, readClock_text clock hends, hoffset, Option.bind_eq_bind,
    Option.bind_some]
  rfl

theorem ofText?_text (t : Moment) : ofText? t.text = some t := by
  obtain ⟨date, clock, offset⟩ := t
  simp only [text, List.append_assoc, List.cons_append]
  cases offset with
  | none => exact ofText?_parts date clock nofun rfl
  | some o => exact ofText?_parts date clock (endsClock_offsetText o) (readOffset_text o)

/-- A moment is read back from its text. -/
theorem read?_text (t : Moment) : read? t.text = some t := by rw [read?, ofText?_text]

end Moment

end CatalogSearch
