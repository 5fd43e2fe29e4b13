import CatalogSearch.Json.Printer
import CatalogSearch.Text.IntLiteral

/-!
# Keys of values

`key` is the canonical text of a value, if the printer gets that far: it refuses integers with more
digits than `Text.digitLimit`, and arrays and objects inside one another for which its stack has too
few levels left.
-/

namespace CatalogSearch.Json

/-- Why a value has no key: an integer in it has too many digits, or it is nested too deeply. -/
inductive KeyError where
  | tooLong
  | tooDeep
deriving DecidableEq

/-- The text that reports it. -/
def KeyError.message : KeyError → String
  | .tooLong =>
    "Exceeds the limit (" ++ Decimal.text Text.digitLimit ++
      " digits) for integer string conversion; " ++
      "use sys.set_int_max_str_digits() to increase the limit"
  | .tooDeep => "maximum recursion depth exceeded while encoding a JSON object"

mutual

/-- Goes through a value as the printer does, with so many levels of the stack left. -/
def checkKey : Nat → Json → Except KeyError Unit
  | _, .int n =>
    if Text.digitLimit < (Decimal.ofNat n.natAbs).length then .error .tooLong else .ok ()
  | 0, .arr _ => .error .tooDeep
  | levels + 1, .arr vs => checkElements levels vs
  | 0, .obj _ => .error .tooDeep
  | levels + 1, .obj ms => checkMembers levels ms
  | _, .null | _, .bool _ | _, .float _ | _, .str _ => .ok ()

/-- Goes through all elements in their order. -/
def checkElements : Nat → List Json → Except KeyError Unit
  | _, [] => .ok ()
  | levels, v :: vs => do
    checkKey levels v
    checkElements levels vs

/-- Goes through the values of all members in their order. -/
def checkMembers : Nat → List (String × Json) → Except KeyError Unit
  | _, [] => .ok ()
  | levels, (_, v) :: ms => do
    checkKey levels v
    checkMembers levels ms

end

/-- The key of a value, with so many levels of the stack left. Members are gone through in the order
of their keys. -/
def key (levels : Nat) (v : Json) : Except KeyError String := do
  checkKey levels v.sorted
  return v.canonicalText

end CatalogSearch.Json
