import CatalogSearch.Number.Binary64
import CatalogSearch.Number.Decimal
import CatalogSearch.Time.Calendar

/-!
# Moments

A moment is a date, a time of day to the microsecond and possibly an offset from universal time. A
moment without an offset is read as universal time where an instant is needed. The offset is part of
the moment: two moments of one instant with different offsets are different.
-/

namespace CatalogSearch

/-- A time of day. -/
structure Clock where
  hour : Nat
  minute : Nat
  second : Nat
  micro : Nat
  valid : hour < 24 ∧ minute < 60 ∧ second < 60 ∧ micro < 1000000
deriving DecidableEq

/-- The time of day of four numbers in range. -/
def Clock.of? (hour minute second micro : Nat) : Option Clock :=
  if h : hour < 24 ∧ minute < 60 ∧ second < 60 ∧ micro < 1000000 then
    some ⟨hour, minute, second, micro, h⟩
  else none

/-- The start of a day. -/
def Clock.midnight : Clock := ⟨0, 0, 0, 0, by decide⟩

/-- A distance from universal time of less than a day, in minutes. -/
structure Offset where
  minutes : Int
  valid : -1440 < minutes ∧ minutes < 1440
deriving DecidableEq

/-- The offset of a number of minutes in range. -/
def Offset.of? (minutes : Int) : Option Offset :=
  if h : -1440 < minutes ∧ minutes < 1440 then some ⟨minutes, h⟩ else none

/-- No distance from universal time. -/
def Offset.zero : Offset := ⟨0, by decide⟩

/-- A date, a time of day and possibly an offset. -/
structure Moment where
  date : Date
  clock : Clock
  offset : Option Offset
deriving DecidableEq

namespace Moment

/-- The start of the year 1970, without an offset. -/
def epoch : Moment := ⟨⟨1970, 1, 1, by decide⟩, .midnight, none⟩

instance : Inhabited Moment := ⟨epoch⟩

/-- The microseconds from 1970-01-01T00:00:00Z, negative before it. -/
def microseconds (t : Moment) : Int :=
  let minutes := (t.date.dayNumber * 24 + t.clock.hour) * 60 + t.clock.minute
    - (t.offset.map (·.minutes)).getD 0
  (minutes * 60 + t.clock.second) * 1000000 + t.clock.micro

/-- The seconds from 1970-01-01T00:00:00Z: the microseconds divided by a million, rounded to a
binary number, and what is after the point cut off. -/
def epochSeconds (t : Moment) : Int :=
  let n := t.microseconds
  (Binary64.ofRatio (n < 0) n.natAbs 1000000).truncate

/-- The text of an offset. -/
def offsetText (o : Offset) : List Char :=
  if o.minutes = 0 then ['Z']
  else
    let n := o.minutes.natAbs
    (if o.minutes < 0 then '-' else '+') ::
      (Decimal.padded 2 (n / 60) ++ ':' :: Decimal.padded 2 (n % 60))

/-- The text of a moment. Microseconds are written if there are any, and so is an offset. -/
def text (t : Moment) : List Char :=
  Decimal.padded 4 t.date.year ++ '-' :: Decimal.padded 2 t.date.month ++
    '-' :: Decimal.padded 2 t.date.day ++ 'T' :: Decimal.padded 2 t.clock.hour ++
    ':' :: Decimal.padded 2 t.clock.minute ++ ':' :: Decimal.padded 2 t.clock.second ++
    (if t.clock.micro = 0 then [] else '.' :: Decimal.padded 6 t.clock.micro) ++
    (match t.offset with | none => [] | some o => offsetText o)

/-- The order of moments as they are written, offsets left aside. -/
def wallLe (a b : Moment) : Bool :=
  let key (t : Moment) : Int :=
    (((t.date.dayNumber * 24 + t.clock.hour) * 60 + t.clock.minute) * 60 + t.clock.second)
      * 1000000 + t.clock.micro
  key a ≤ key b

end Moment

end CatalogSearch
