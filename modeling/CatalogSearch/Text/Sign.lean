/-!
# Signs in front of numbers
-/

namespace CatalogSearch.Text

/-- A leading sign, as whether it is a minus, and what follows it. -/
def splitSign : List Char → Bool × List Char
  | '-' :: rest => (true, rest)
  | '+' :: rest => (false, rest)
  | s => (false, s)

/-- A number with the sign put to it. -/
def signed (negative : Bool) (n : Nat) : Int := if negative then -(n : Int) else n

end CatalogSearch.Text
