import CatalogSearch.Data.OrderedMap
import CatalogSearch.Json.Reader
import CatalogSearch.Schema.Checked
import CatalogSearch.Text.IntLiteral
import CatalogSearch.Time.Reader

/-!
# Parts of a schema

Readers and writers of texts, integers, booleans, moments, optional values, lists, maps and the
fields of an object. Integers, booleans and moments are read leniently, from several kinds of values
and spellings; each is written in one way.
-/

namespace CatalogSearch.Schema

variable {α : Type}

/-- Reads a text. -/
def text : Json → Checked String
  | .str s => .ok s
  | _ => .refused

/-- The number of digits with single underscores between them, at most `Json.numberLimit` digits
and no zero in front of others. -/
def natOfRun? (s : List Char) : Option Nat := do
  let ds ← Text.digitRun Text.asciiDigitValue? s
  if Json.numberLimit < ds.length ∨ (ds.head? = some 0 ∧ 1 < ds.length) then none
  else return Positional.value 10 ds

/-- The text in front of a point and zeros, or all of a text without a point. -/
def wholePart? (s : List Char) : Option (List Char) :=
  match s.dropWhile (· ≠ '.') with
  | [] => some s
  | _ :: zeros =>
    if zeros ≠ [] ∧ zeros.all (· = '0') then some (s.takeWhile (· ≠ '.')) else none

/-- The integer of a text after its sign. Zeros at the start, with any underscores after them, are
passed over; a minus may follow them if there was none before, and an underscore the minus. -/
def intAfterSign? (negative : Bool) (s : List Char) : Option Int :=
  if s.head? = some '0' then
    match s.dropWhile (fun c => c = '0' || c = '_') with
    | [] => if s.getLast? = some '0' then some 0 else none
    | '-' :: rest =>
      if negative then none
      else (natOfRun? (if rest.head? = some '_' then rest.tail else rest)).map (Text.signed true)
    | rest => (natOfRun? rest).map (Text.signed negative)
  else (natOfRun? s).map (Text.signed negative)

/-- The integer of a text, with white space around, a sign and possibly zeros after a point. -/
def intOfText? (s : List Char) : Option Int :=
  let (negative, text) := Text.splitSign (Text.stripBy Text.isWhite s)
  (wholePart? text).bind (intAfterSign? negative)

/-- The integer of a number without fraction that is less than `2 ^ 63` away from zero. -/
def intOfFloat? (x : Binary64) : Option Int :=
  if x.isIntegral ∧ x.truncate.natAbs < Nat.pow 2 63 then some x.truncate else none

/-- Reads an integer: from an integer, a boolean, a number without fraction or a text. -/
def integer : Json → Checked Int
  | .int n => .ok n
  | .bool b => .ok (if b then 1 else 0)
  | .float x => .ofOption (intOfFloat? x)
  | .str s => .ofOption (intOfText? s.toList)
  | _ => .refused

/-- The truth value that a text names, in any case of letters. -/
def boolOfText? (s : String) : Option Bool :=
  let s := s.map Char.toLower
  if s ∈ ["1", "on", "t", "true", "y", "yes"] then some true
  else if s ∈ ["0", "off", "f", "false", "n", "no"] then some false
  else none

/-- The truth value of zero and one. -/
def boolOfInt? (n : Int) : Option Bool :=
  if n = 0 then some false else if n = 1 then some true else none

/-- Reads a boolean: from a boolean, zero or one of either kind, or a text. -/
def boolean : Json → Checked Bool
  | .bool b => .ok b
  | .int n => .ofOption (boolOfInt? n)
  | .float x => .ofOption ((intOfFloat? x).bind boolOfInt?)
  | .str s => .ofOption (boolOfText? s)
  | _ => .refused

/-- Reads a moment: from its written form or a count since 1970. -/
def moment : Json → Checked Moment
  | .str s => .ofOption (Moment.read? s.toList)
  | .int n => .ofOption (Moment.ofCount? n)
  | .float x => .ofOption (Moment.ofFloat? x)
  | _ => .refused

/-- Reads any value. -/
def any (v : Json) : Checked Json := .ok v.merged

/-- Reads a value that may be null. -/
def nullable (read : Json → Checked α) : Json → Checked (Option α)
  | .null => .ok none
  | v => some <$> read v

/-- Reads elements, the first of them at position `i`. -/
def elements (read : Json → Checked α) : Nat → List Json → Checked (List α)
  | _, [] => .ok []
  | i, v :: vs =>
    List.cons <$> (read v).under (Decimal.text i) <*> elements read (i + 1) vs

/-- Reads a list. -/
def list (read : Json → Checked α) : Json → Checked (List α)
  | .arr vs => elements read 0 vs
  | _ => .refused

/-- Reads the values of members, also of those whose key comes again. -/
def members (read : Json → Checked α) : List (String × Json) → Checked (List (String × α))
  | [] => .ok []
  | (k, v) :: ms =>
    (fun a rest => (k, a) :: rest) <$> (read v).under k <*> members read ms

/-- Reads a map with texts as keys. -/
def dictionary (read : Json → Checked α) : Json → Checked (OrderedMap String α)
  | .obj ms => OrderedMap.ofList <$> members read ms
  | _ => .refused

/-- Reads a field that must be there. -/
def required (v : Json) (name : String) (read : Json → Checked α) : Checked α :=
  match v.member? name with
  | some x => (read x).under name
  | none => .wrong [[name]]

/-- Reads a field that has a default. -/
def optional (v : Json) (name : String) (default : α) (read : Json → Checked α) : Checked α :=
  match v.member? name with
  | some x => (read x).under name
  | none => .ok default

/-- Reads an object by its fields; no other value has fields. -/
def object (read : Json → Checked α) : Json → Checked α
  | .obj ms => read (.obj ms)
  | _ => .refused

/-- Reads a value from JSON text within the narrow limits. -/
def ofText (read : Json → Checked α) (s : String) : Checked α :=
  match Json.readWithin? .narrow s with
  | some v => read v
  | none => .refused

/-- Writes a moment. -/
def ofMoment (t : Moment) : Json := .str (String.ofList t.text)

/-- Writes a value that may be missing, as null then. -/
def ofNullable (write : α → Json) : Option α → Json
  | some a => write a
  | none => .null

/-- Writes a list. -/
def ofList (write : α → Json) (l : List α) : Json := .arr (l.map write)

/-- Writes a list of texts. -/
def ofTexts (l : List String) : Json := ofList .str l

/-- Writes a map with texts as keys. -/
def ofDictionary (write : α → Json) (m : OrderedMap String α) : Json :=
  .obj (m.entries.map (fun e => (e.1, write e.2)))

end CatalogSearch.Schema
