/-!
# Blanks

Blank characters and stripping. Two sets are in use: white space proper, which may stand around a
number, and white space together with the four information separators, which the pieces of a
schedule are stripped of.
-/

namespace CatalogSearch.Text

/-- The white-space characters of all scripts. -/
def isWhite (c : Char) : Bool :=
  let n := c.toNat
  (9 ≤ n && n ≤ 13) || n == 0x20 || n == 0x85 || n == 0xA0 || n == 0x1680 ||
    (0x2000 ≤ n && n ≤ 0x200A) || n == 0x2028 || n == 0x2029 || n == 0x202F || n == 0x205F ||
    n == 0x3000

/-- White space or an information separator. -/
def isBlank (c : Char) : Bool :=
  isWhite c || (0x1C ≤ c.toNat && c.toNat ≤ 0x1F)

/-- The characters without those at the end that satisfy `p`. -/
def dropRight (p : Char → Bool) (s : List Char) : List Char := (s.reverse.dropWhile p).reverse

/-- The characters without those at either end that satisfy `p`. -/
def stripBy (p : Char → Bool) (s : List Char) : List Char := dropRight p (s.dropWhile p)

/-- The characters without blanks at either end. -/
def strip (s : List Char) : List Char := stripBy isBlank s

end CatalogSearch.Text
