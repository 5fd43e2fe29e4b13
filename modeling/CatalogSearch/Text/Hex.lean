/-!
# Hexadecimal digits
-/

namespace CatalogSearch.Text

/-- A hexadecimal digit, in lower case. -/
def hexDigit (d : Nat) : Char := "0123456789abcdef".toList.getD d '0'

/-- A hexadecimal digit, in upper case. -/
def upperHexDigit (d : Nat) : Char := "0123456789ABCDEF".toList.getD d '0'

/-- `n` in `width` hexadecimal digits. -/
def hex : Nat → Nat → List Char
  | 0, _ => []
  | width + 1, n => hex width (n / 16) ++ [hexDigit (n % 16)]

/-- The value of a hexadecimal digit of either case. -/
def hexValue? (c : Char) : Option Nat :=
  let n := c.toNat
  if c.isDigit then some (n - 48)
  else if 97 ≤ n ∧ n ≤ 102 then some (n - 87)
  else if 65 ≤ n ∧ n ≤ 70 then some (n - 55)
  else none

end CatalogSearch.Text
