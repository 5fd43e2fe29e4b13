import CatalogSearch.Data.OrderedMap
import CatalogSearch.Data.Sorting
import CatalogSearch.Number.Binary64

/-!
# JSON values

Integers of any size, floating-point numbers and booleans are three kinds of values that are never
equal to one another. Members of an object keep the order in which they stand. A text may have
several members of one key, of which the last one counts; `merged` leaves only that one. `written`
is what JSON has of a value: it has no number that is not finite.
-/

namespace CatalogSearch

/-- A JSON value. -/
inductive Json where
  | null
  | bool (b : Bool)
  | int (n : Int)
  | float (x : Binary64)
  | str (s : String)
  | arr (elements : List Json)
  | obj (members : List (String × Json))
deriving Inhabited

namespace Json

mutual

/-- Whether two values are equal, members in the same order. -/
def decEq : (a b : Json) → Decidable (a = b)
  | .null, .null => isTrue rfl
  | .bool a, .bool b =>
    if h : a = b then isTrue (h ▸ rfl) else isFalse (fun e => h (by injection e))
  | .int a, .int b =>
    if h : a = b then isTrue (h ▸ rfl) else isFalse (fun e => h (by injection e))
  | .float a, .float b =>
    if h : a = b then isTrue (h ▸ rfl) else isFalse (fun e => h (by injection e))
  | .str a, .str b =>
    if h : a = b then isTrue (h ▸ rfl) else isFalse (fun e => h (by injection e))
  | .arr a, .arr b =>
    match decEqElements a b with
    | isTrue h => isTrue (h ▸ rfl)
    | isFalse h => isFalse (fun e => h (by injection e))
  | .obj a, .obj b =>
    match decEqMembers a b with
    | isTrue h => isTrue (h ▸ rfl)
    | isFalse h => isFalse (fun e => h (by injection e))
  | .null, .bool _ | .null, .int _ | .null, .float _ | .null, .str _ | .null, .arr _
  | .null, .obj _ | .bool _, .null | .bool _, .int _ | .bool _, .float _ | .bool _, .str _
  | .bool _, .arr _ | .bool _, .obj _ | .int _, .null | .int _, .bool _ | .int _, .float _
  | .int _, .str _ | .int _, .arr _ | .int _, .obj _ | .float _, .null | .float _, .bool _
  | .float _, .int _ | .float _, .str _ | .float _, .arr _ | .float _, .obj _ | .str _, .null
  | .str _, .bool _ | .str _, .int _ | .str _, .float _ | .str _, .arr _ | .str _, .obj _
  | .arr _, .null | .arr _, .bool _ | .arr _, .int _ | .arr _, .float _ | .arr _, .str _
  | .arr _, .obj _ | .obj _, .null | .obj _, .bool _ | .obj _, .int _ | .obj _, .float _
  | .obj _, .str _ | .obj _, .arr _ => isFalse (by intro h; cases h)

/-- Whether two lists of values are equal. -/
def decEqElements : (a b : List Json) → Decidable (a = b)
  | [], [] => isTrue rfl
  | [], _ :: _ | _ :: _, [] => isFalse (by intro h; cases h)
  | a :: as, b :: bs =>
    match decEq a b, decEqElements as bs with
    | isTrue h, isTrue hs => isTrue (h ▸ hs ▸ rfl)
    | isFalse h, _ => isFalse (fun e => h (List.cons.inj e).1)
    | _, isFalse hs => isFalse (fun e => hs (List.cons.inj e).2)

/-- Whether two lists of members are equal. -/
def decEqMembers : (a b : List (String × Json)) → Decidable (a = b)
  | [], [] => isTrue rfl
  | [], _ :: _ | _ :: _, [] => isFalse (by intro h; cases h)
  | (k, a) :: as, (l, b) :: bs =>
    if hk : k = l then
      match decEq a b, decEqMembers as bs with
      | isTrue h, isTrue hs => isTrue (hk ▸ h ▸ hs ▸ rfl)
      | isFalse h, _ => isFalse (fun e => h (Prod.mk.inj (List.cons.inj e).1).2)
      | _, isFalse hs => isFalse (fun e => hs (List.cons.inj e).2)
    else isFalse (fun e => hk (Prod.mk.inj (List.cons.inj e).1).1)

end

instance : DecidableEq Json := decEq

/-- Truth of a value: false are null, false, zero of either kind and what is empty. -/
def truthy : Json → Bool
  | .null => false
  | .bool b => b
  | .int n => n != 0
  | .float x => !x.isZero
  | .str s => s != ""
  | .arr xs => !xs.isEmpty
  | .obj ms => !ms.isEmpty

/-- The last member of an object under a key; no other value has members. -/
def member? (key : String) : Json → Option Json
  | .obj ms => ms.reverse.lookup key
  | _ => none

mutual

/-- The value with one member for each key of every object: the last one, where the first one
stands. -/
def merged : Json → Json
  | .arr xs => .arr (mergedElements xs)
  | .obj ms => .obj (OrderedMap.ofList (mergedMembers ms)).entries
  | v => v

/-- Every value of a list merged. -/
def mergedElements : List Json → List Json
  | [] => []
  | v :: vs => merged v :: mergedElements vs

/-- The value of every member merged. -/
def mergedMembers : List (String × Json) → List (String × Json)
  | [] => []
  | (k, v) :: ms => (k, merged v) :: mergedMembers ms

end

mutual

/-- The value with null in place of numbers that are not finite, for which JSON has no text. -/
def written : Json → Json
  | .float x => if x.isFinite then .float x else .null
  | .arr vs => .arr (writtenElements vs)
  | .obj ms => .obj (writtenMembers ms)
  | v => v

/-- Every value of a list as it is written. -/
def writtenElements : List Json → List Json
  | [] => []
  | v :: vs => written v :: writtenElements vs

/-- The value of every member as it is written. -/
def writtenMembers : List (String × Json) → List (String × Json)
  | [] => []
  | (k, v) :: ms => (k, written v) :: writtenMembers ms

end

/-- The order of members by their keys. -/
def memberLe (a b : String × Json) : Bool := textLe a.1 b.1

mutual

/-- The value with the members of every object in the order of their keys. -/
def sorted : Json → Json
  | .arr xs => .arr (sortedElements xs)
  | .obj ms => .obj (sortBy memberLe (sortedMembers ms))
  | v => v

/-- Every value of a list sorted. -/
def sortedElements : List Json → List Json
  | [] => []
  | v :: vs => sorted v :: sortedElements vs

/-- The value of every member sorted. -/
def sortedMembers : List (String × Json) → List (String × Json)
  | [] => []
  | (k, v) :: ms => (k, sorted v) :: sortedMembers ms

end

end Json

end CatalogSearch
