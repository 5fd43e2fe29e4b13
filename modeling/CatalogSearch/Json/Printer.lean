import CatalogSearch.Json
import CatalogSearch.Number.Shortest
import CatalogSearch.Text.Quoted

/-!
# Printing JSON

JSON values as text, in one of two styles. `write st v rest` is the text of `v` followed by `rest`.
The compact style has no blanks, keeps all characters that JSON allows to stand for themselves, and
writes null for a number that is not finite. The spaced style has a blank after every comma and
colon, is plain ASCII, and writes such a number by its name. `canonicalText` is the spaced text with
all members sorted.
-/

namespace CatalogSearch.Json

/-- The choices a printer makes: what follows a comma or a colon, how a character stands in a
string, and what stands for a number that is not finite. -/
structure Style where
  gap : List Char
  escaped : Char → List Char
  special : Binary64 → List Char

/-- A character by its code unit. -/
def unitEscape (n : Nat) : List Char := '\\' :: 'u' :: Text.hex 4 n

/-- The escape of a quote, a backslash or a control character, none for any other character. -/
def escape? (c : Char) : Option (List Char) :=
  if c = '"' then some ['\\', '"']
  else if c = '\\' then some ['\\', '\\']
  else if c = '\n' then some ['\\', 'n']
  else if c = '\r' then some ['\\', 'r']
  else if c = '\t' then some ['\\', 't']
  else if c.toNat = 8 then some ['\\', 'b']
  else if c.toNat = 12 then some ['\\', 'f']
  else if c.toNat < 0x20 then some (unitEscape c.toNat)
  else none

/-- A character that is escaped only where it has to be. -/
def escapedChar (c : Char) : List Char := (escape? c).getD [c]

/-- A character in printable ASCII, as a surrogate pair if one code unit is not enough. -/
def escapedAscii (c : Char) : List Char :=
  let n := c.toNat
  (escape? c).getD
    (if n < 0x7F then [c]
    else if n < 0x10000 then unitEscape n
    else unitEscape (0xD800 + (n - 0x10000) / 0x400) ++ unitEscape (0xDC00 + (n - 0x10000) % 0x400))

/-- The name of a number that is not finite. -/
def specialName (x : Binary64) : List Char :=
  if x = .notANumber then "NaN".toList
  else if x.negative then "-Infinity".toList
  else "Infinity".toList

/-- The compact style. -/
def Style.compact : Style := ⟨[], escapedChar, fun _ => "null".toList⟩

/-- The spaced style. -/
def Style.spaced : Style := ⟨[' '], escapedAscii, specialName⟩

/-- The text of a string, in double quotes. -/
def writeString (st : Style) (s : String) (rest : List Char) : List Char :=
  '"' :: (s.toList.flatMap st.escaped ++ '"' :: rest)

/-- The text of a floating-point number. -/
def writeFloat (st : Style) (x : Binary64) : List Char :=
  if x.isFinite then x.text else st.special x

mutual

/-- The text of a value. -/
def write (st : Style) : Json → List Char → List Char
  | .null, rest => "null".toList ++ rest
  | .bool true, rest => "true".toList ++ rest
  | .bool false, rest => "false".toList ++ rest
  | .int n, rest => Decimal.ofInt n ++ rest
  | .float x, rest => writeFloat st x ++ rest
  | .str s, rest => writeString st s rest
  | .arr [], rest => '[' :: ']' :: rest
  | .arr (v :: vs), rest => '[' :: write st v (writeElements st vs (']' :: rest))
  | .obj [], rest => '{' :: '}' :: rest
  | .obj ((k, v) :: ms), rest =>
    '{' :: writeString st k
      (':' :: (st.gap ++ write st v (writeMembers st ms ('}' :: rest))))

/-- The text of the elements after the first, a comma in front of each. -/
def writeElements (st : Style) : List Json → List Char → List Char
  | [], rest => rest
  | v :: vs, rest => ',' :: (st.gap ++ write st v (writeElements st vs rest))

/-- The text of the members after the first, a comma in front of each. -/
def writeMembers (st : Style) : List (String × Json) → List Char → List Char
  | [], rest => rest
  | (k, v) :: ms, rest =>
    ',' :: (st.gap ++ writeString st k
      (':' :: (st.gap ++ write st v (writeMembers st ms rest))))

end

/-- The compact text of a value as a string. -/
def print (v : Json) : String := String.ofList (write .compact v [])

/-- The spaced text of a value as a string. -/
def printSpaced (v : Json) : String := String.ofList (write .spaced v [])

/-- The spaced text of a value with sorted members: equal for two values iff they agree up to the
order of members. -/
def canonicalText (v : Json) : String := v.sorted.printSpaced

end CatalogSearch.Json
