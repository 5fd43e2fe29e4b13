import CatalogSearch.Text.Hex
import CatalogSearch.Text.Printable

/-!
# Quoted texts

Texts in quotes, as messages show them. Single quotes enclose a text unless it holds a single and no
double quote; what is not printable is written by its code point in two, four or eight digits.
-/

namespace CatalogSearch.Text

/-- How a character stands in a text enclosed by `quote`. -/
def quotedChar (quote c : Char) : List Char :=
  if c = '\\' ∨ c = quote then ['\\', c]
  else if c = '\n' then ['\\', 'n']
  else if c = '\r' then ['\\', 'r']
  else if c = '\t' then ['\\', 't']
  else if isPrintable c then [c]
  else if c.toNat < 0x100 then '\\' :: 'x' :: hex 2 c.toNat
  else if c.toNat < 0x10000 then '\\' :: 'u' :: hex 4 c.toNat
  else '\\' :: 'U' :: hex 8 c.toNat

/-- The quote that encloses a text. -/
def quoteOf (s : List Char) : Char := if '\'' ∈ s ∧ '"' ∉ s then '"' else '\''

/-- The text in quotes. -/
def quoted (s : List Char) : List Char :=
  quoteOf s :: (s.flatMap (quotedChar (quoteOf s)) ++ [quoteOf s])

/-- The text in quotes, as a string. -/
def quotedString (s : String) : String := String.ofList (quoted s.toList)

end CatalogSearch.Text
