import CatalogSearch.Number.Positional

/-!
# Decimal numbers

Integers in decimal: digits without leading zeros, and a minus sign in front of a negative number.
-/

namespace CatalogSearch.Decimal

/-- The character of a digit below ten. -/
def digitChar (d : Nat) : Char := Char.ofNat (48 + d)

/-- A natural number in decimal. -/
def ofNat (n : Nat) : List Char := (Positional.digits 10 n).map digitChar

/-- An integer in decimal. -/
def ofInt : Int → List Char
  | .ofNat n => ofNat n
  | .negSucc n => '-' :: ofNat (n + 1)

/-- An integer in decimal, as a string. -/
def text (n : Int) : String := String.ofList (ofInt n)

/-- `n` in decimal with zeros in front up to `width` digits. -/
def padded (width n : Nat) : List Char :=
  List.replicate (width - (ofNat n).length) '0' ++ ofNat n

/-- The number written by ASCII digits, none if another character occurs or there is no digit. -/
def toNat? (s : List Char) : Option Nat :=
  if s.isEmpty || !s.all Char.isDigit then none
  else some (Positional.value 10 (s.map (·.toNat - 48)))

end CatalogSearch.Decimal
