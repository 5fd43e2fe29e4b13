import CatalogSearch.Number.Binary64
import CatalogSearch.Text.Sign

/-!
# Decimals in writing

Decimal numbers in writing: digits, possibly a point and more digits, possibly an exponent. The
readers of parts return what follows the part they read; `number?` reads a whole text.
-/

namespace CatalogSearch.Scientific

/-- The number that ASCII digits denote. -/
def digitsValue (ds : List Char) : Nat := Positional.value 10 (ds.map (·.toNat - 48))

/-- The digits at the start of a text, at least one, and what follows them. -/
def readDigits (s : List Char) : Option (List Char × List Char) :=
  let ds := s.takeWhile Char.isDigit
  if ds.isEmpty then none else some (ds, s.dropWhile Char.isDigit)

/-- The exponent after the digits of a number, if there is one. -/
def readExponent : List Char → Option (Option Int × List Char)
  | c :: rest =>
    if c = 'e' ∨ c = 'E' then
      let (negative, digits) := Text.splitSign rest
      (readDigits digits).map (fun r => (some (Text.signed negative (digitsValue r.1)), r.2))
    else some (none, c :: rest)
  | [] => some (none, [])

/-- The number of its digits before and after the point and its exponent, rounded. -/
def rounded (negative : Bool) (whole places : List Char) (exponent : Int) : Binary64 :=
  .ofDecimal negative (digitsValue (whole ++ places)) (exponent - places.length)

/-- The number that a text writes, with an optional sign and at least one digit before or after
the point. -/
def number? (s : List Char) : Option Binary64 :=
  let (negative, text) := Text.splitSign s
  let whole := text.takeWhile Char.isDigit
  let (places, rest) := match text.dropWhile Char.isDigit with
    | '.' :: rest => (rest.takeWhile Char.isDigit, rest.dropWhile Char.isDigit)
    | rest => ([], rest)
  match (whole ++ places).isEmpty, readExponent rest with
  | false, some (exponent, []) => some (rounded negative whole places (exponent.getD 0))
  | _, _ => none

end CatalogSearch.Scientific
