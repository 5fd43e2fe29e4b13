import CatalogSearch.Number.Decimal
import CatalogSearch.Text.Blank
import CatalogSearch.Text.Digit
import CatalogSearch.Text.Quoted
import CatalogSearch.Text.Sign

/-!
# Integer literals

An integer literal is an optional sign and digits, where a single underscore may stand between two
digits. `readInt` is the reader of schedules and database numbers, which takes the digits of every
script and white space around them, and at most `digitLimit` digits.
-/

namespace CatalogSearch.Text

/-- The digit values of a run of digits in which single underscores may separate two digits. -/
def digitRun (digit? : Char → Option Nat) : List Char → Option (List Nat)
  | [] => none
  | [c] => (digit? c).map ([·])
  | c :: '_' :: rest => do return (← digit? c) :: (← digitRun digit? rest)
  | c :: c' :: rest => do return (← digit? c) :: (← digitRun digit? (c' :: rest))

/-- The greatest number of digits that are read. -/
def digitLimit : Nat := 4300

/-- Why a text is not read as an integer: it is no integer literal, or it has too many digits. -/
inductive IntLiteralError where
  | malformed (text : String)
  | tooLong (digits : Nat)
deriving DecidableEq

/-- How much of a malformed text in quotes its report shows. -/
def reportedLength : Nat := 200

/-- The text that reports it. -/
def IntLiteralError.message : IntLiteralError → String
  | .malformed text =>
    "invalid literal for int() with base 10: " ++
      String.ofList ((quoted text.toList).take reportedLength)
  | .tooLong digits =>
    "Exceeds the limit (" ++ Decimal.text digitLimit ++
      " digits) for integer string conversion: value has " ++ Decimal.text digits ++
      " digits; use sys.set_int_max_str_digits() to increase the limit"

/-- Whether a character may stand in the run of digits of a literal. -/
def isRunChar (c : Char) : Bool := c = '_' || (digitValue? c).isSome

/-- Reads an integer in the digits of any script, with white space around it. A run of too many
digits is reported whatever follows it. -/
def readInt (s : List Char) : Except IntLiteralError Int :=
  let (negative, text) := splitSign (stripBy isWhite s)
  match digitRun digitValue? (text.takeWhile isRunChar) with
  | none => .error (.malformed (String.ofList s))
  | some ds =>
    if digitLimit < ds.length then .error (.tooLong ds.length)
    else if (text.dropWhile isRunChar).isEmpty then .ok (signed negative (Positional.value 10 ds))
    else .error (.malformed (String.ofList s))

end CatalogSearch.Text
