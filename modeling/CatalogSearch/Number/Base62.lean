import CatalogSearch.Number.Decimal
import CatalogSearch.Text.Quoted

/-!
# Public ids

Numbers written in base 62 with the digits `0-9`, `A-Z`, `a-z`, in that order: `encode` refuses
negative numbers, and `decode` characters that are no digits.
-/

namespace CatalogSearch.Base62

/-- The digits in the order of their values, which is also the order of their code points. -/
def alphabet : List Char :=
  "0123456789ABCDEFGHIJKLMNOPQRSTUVWXYZabcdefghijklmnopqrstuvwxyz".toList

/-- The digit of a value below 62. -/
def digit (d : Nat) : Char := alphabet.getD d '0'

/-- The value of a digit. -/
def digitValue? (c : Char) : Option Nat := alphabet.idxOf? c

/-- A negative number has no public id. -/
inductive EncodeError where
  | negative (n : Int)
deriving DecidableEq

/-- The text that reports a negative number. -/
def EncodeError.message : EncodeError → String
  | .negative n => "id cannot be negative: " ++ Decimal.text n

/-- The public id of a number. -/
def encode : Int → Except EncodeError String
  | .ofNat n => .ok (String.ofList ((Positional.digits 62 n).map digit))
  | .negSucc n => .error (.negative (.negSucc n))

/-- A text that is no public id. -/
inductive DecodeError where
  | empty
  | badDigit (c : Char) (text : String)
deriving DecidableEq

/-- The text that reports it. -/
def DecodeError.message : DecodeError → String
  | .empty => "empty base62 id"
  | .badDigit c text =>
    "invalid base62 character " ++ Text.quotedString (String.singleton c) ++ " in " ++
      Text.quotedString text

/-- The digit values of a text, or its first character that is no digit. -/
def digitValues : List Char → Except Char (List Nat)
  | [] => .ok []
  | c :: rest =>
    match digitValue? c with
    | none => .error c
    | some d => (digitValues rest).map (d :: ·)

/-- The number that a public id stands for. -/
def decode (s : String) : Except DecodeError Nat :=
  if s.isEmpty then .error .empty
  else
    match digitValues s.toList with
    | .ok ds => .ok (Positional.value 62 ds)
    | .error c => .error (.badDigit c s)

end CatalogSearch.Base62
