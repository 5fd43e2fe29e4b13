import CatalogSearch.Number.Scientific
import CatalogSearch.Text.Digit
import CatalogSearch.Time.Moment

/-!
# Reading moments

A moment is read of `YYYY-MM-DD`, possibly a time of day after a `T`, a `t`, a space or an
underscore, possibly an offset after the time; or of a count of seconds or, beyond `secondsLimit`,
milliseconds since 1970, with or without a fraction.
-/

namespace CatalogSearch.Moment

/-- Reads two digits. -/
def readTwo : List Char → Option (Nat × List Char)
  | a :: b :: rest => do
    return ((← Text.asciiDigitValue? a) * 10 + (← Text.asciiDigitValue? b), rest)
  | _ => none

/-- Reads one given character. -/
def readMark (c : Char) : List Char → Option (List Char)
  | d :: rest => if d = c then some rest else none
  | [] => none

/-- Reads a date. -/
def readDate (s : List Char) : Option (Date × List Char) := do
  let (century, s) ← readTwo s
  let (year, s) ← readTwo s
  let s ← readMark '-' s
  let (month, s) ← readTwo s
  let s ← readMark '-' s
  let (day, s) ← readTwo s
  return (← Date.of? (century * 100 + year) month day, s)

/-- The microseconds of the digits after the mark of a fraction; digits beyond the sixth are
cut. -/
def fractionMicros (ds : List Char) : Nat :=
  let six := ds.take 6
  Positional.value 10 (six.map (·.toNat - 48)) * Nat.pow 10 (6 - six.length)

/-- Reads the fraction of a second after a point or a comma, if there is one. -/
def readMicros : List Char → Option (Nat × List Char)
  | c :: s =>
    if c = '.' ∨ c = ',' then
      (Scientific.readDigits s).map (fun r => (fractionMicros r.1, r.2))
    else some (0, c :: s)
  | [] => some (0, [])

/-- Reads a time of day; seconds may be left out. -/
def readClock (s : List Char) : Option (Clock × List Char) := do
  let (hour, s) ← readTwo s
  let s ← readMark ':' s
  let (minute, s) ← readTwo s
  match s with
  | ':' :: s =>
    let (second, s) ← readTwo s
    let (micro, s) ← readMicros s
    return (← Clock.of? hour minute second micro, s)
  | s => return (← Clock.of? hour minute 0 0, s)

/-- Reads the hours and minutes of an offset, with or without a colon between them. -/
def readOffsetMinutes (s : List Char) : Option Nat := do
  let (hours, s) ← readTwo s
  let s := match s with
    | ':' :: s => s
    | s => s
  let (minutes, s) ← readTwo s
  if s.isEmpty ∧ minutes < 60 then return hours * 60 + minutes else none

/-- Reads an offset up to the end of the text, or that there is none. The minus may be a hyphen or
the sign of its own, U+2212. -/
def readOffset : List Char → Option (Option Offset)
  | [] => some none
  | ['Z'] => some (some .zero)
  | ['z'] => some (some .zero)
  | '+' :: s => do return some (← Offset.of? (← readOffsetMinutes s))
  | '-' :: s => do return some (← Offset.of? (-(← readOffsetMinutes s : Nat)))
  | '−' :: s => do return some (← Offset.of? (-(← readOffsetMinutes s : Nat)))
  | _ => none

/-- Whether a character may stand between the date and the time. -/
def isSeparator (c : Char) : Bool := c = 'T' || c = 't' || c = ' ' || c = '_'

/-- Reads a moment in its written form. -/
def ofText? (s : List Char) : Option Moment := do
  let (date, s) ← readDate s
  match s with
  | [] => return ⟨date, .midnight, none⟩
  | c :: s =>
    if isSeparator c then
      let (clock, s) ← readClock s
      return ⟨date, clock, ← readOffset s⟩
    else none

/-- Counts up to this one, of either sign, are seconds and beyond it milliseconds. -/
def secondsLimit : Int := 20000000000

/-- The moment a count of microseconds since 1970 leads to, in universal time. -/
def ofMicroseconds? (n : Int) : Option Moment := do
  let date ← Date.ofDayNumber? (n.fdiv 86400000000)
  let inDay := (n.fmod 86400000000).toNat
  let seconds := inDay / 1000000
  let clock ← Clock.of? (seconds / 3600) (seconds / 60 % 60) (seconds % 60) (inDay % 1000000)
  return ⟨date, clock, some .zero⟩

/-- How many microseconds one of a count stands for: those of a second, or those of a millisecond
in a count beyond `secondsLimit`. -/
def unitMicros (beyond : Bool) : Nat := if beyond then 1000 else 1000000

/-- The moment of a count of seconds or milliseconds since 1970, in universal time. -/
def ofCount? (n : Int) : Option Moment :=
  ofMicroseconds? (n * unitMicros (secondsLimit < n.natAbs))

/-- The moment of a number that counts seconds or milliseconds: the integer below it is the count,
and what it is above that integer is rounded to microseconds. -/
def ofFloat? (x : Binary64) : Option Moment :=
  if x.isFinite then
    let unit := unitMicros (secondsLimit * x.den < x.num)
    ofMicroseconds? (x.floor * unit + (x.fraction.scale unit).nearestNat)
  else none

/-- Reads a count in writing: an integer with an optional sign, or a number with a point. -/
def countOfText? (s : List Char) : Option Moment :=
  let (negative, text) := Text.splitSign s
  match text.dropWhile Char.isDigit with
  | [] => (Decimal.toNat? text).bind (fun n => ofCount? (Text.signed negative n))
  | '.' :: _ => (Scientific.number? s).bind ofFloat?
  | _ => none

/-- Reads a moment from a text: in its written form or as a count. -/
def read? (s : List Char) : Option Moment :=
  match ofText? s with
  | some t => some t
  | none => countOfText? s

end CatalogSearch.Moment
