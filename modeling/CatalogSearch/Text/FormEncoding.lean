import CatalogSearch.Text.Hex

/-!
# Form encoding

In the form encoding of a text letters, digits and `_.-~` stand for themselves, a space becomes a
plus sign, and every other byte of the text is written as a percent sign and two digits.
-/

namespace CatalogSearch.Text

/-- Whether a character stands for itself. -/
def isUnreserved (c : Char) : Bool :=
  c.isAlphanum || c = '_' || c = '.' || c = '-' || c = '~'

/-- A byte as a percent sign and two digits. -/
def percentByte (b : UInt8) : List Char :=
  ['%', upperHexDigit (b.toNat / 16), upperHexDigit (b.toNat % 16)]

/-- The form encoding of a character. -/
def formChar (c : Char) : List Char :=
  if isUnreserved c then [c]
  else if c = ' ' then ['+']
  else (String.utf8EncodeChar c).flatMap percentByte

/-- The form encoding of a text. -/
def formEncode (s : String) : String := String.ofList (s.toList.flatMap formChar)

end CatalogSearch.Text
