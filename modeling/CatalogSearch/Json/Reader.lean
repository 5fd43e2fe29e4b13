import CatalogSearch.Json
import CatalogSearch.Number.Scientific
import CatalogSearch.Text.Hex

/-!
# Reading JSON

A number without fraction and exponent is an integer, any other one a floating-point number; so are
the names `NaN`, `Infinity` and `-Infinity`. Control characters in strings, lone surrogates, leading
zeros and anything after the value are refused, and so is what exceeds the limits of the reader:
there is a narrow one for records and a wide one.

The readers return what follows the part they read. Those of nested values take a bound on the depth
of calls, for which the length of the text is enough. They keep all members of an object, also those
whose key comes again.
-/

namespace CatalogSearch.Json

/-- The characters that may stand between the parts of a text. -/
def isGap (c : Char) : Bool := c = ' ' || c = '\t' || c = '\n' || c = '\r'

/-- The text after the gap at its start. -/
def skipGap (s : List Char) : List Char := s.dropWhile isGap

/-- The code unit of four hexadecimal digits. -/
def codeUnit? (a b c d : Char) : Option Nat := do
  let high := (← Text.hexValue? a) * 16 + (← Text.hexValue? b)
  let low := (← Text.hexValue? c) * 16 + (← Text.hexValue? d)
  return high * 256 + low

/-- The character that a single letter after a backslash stands for. -/
def shortEscape? : Char → Option Char
  | '"' => some '"'
  | '\\' => some '\\'
  | '/' => some '/'
  | 'b' => some (Char.ofNat 8)
  | 'f' => some (Char.ofNat 12)
  | 'n' => some '\n'
  | 'r' => some '\r'
  | 't' => some '\t'
  | _ => none

/-- Whether a code unit is the first half of a surrogate pair. -/
def isHighSurrogate (n : Nat) : Bool := 0xD800 ≤ n && n < 0xDC00

/-- Whether a code unit is the second half of a surrogate pair. -/
def isLowSurrogate (n : Nat) : Bool := 0xDC00 ≤ n && n < 0xE000

/-- The rest of a string after its opening quote, up to its closing quote. -/
def readString : List Char → Option (List Char × List Char)
  | [] => none
  | '"' :: rest => some ([], rest)
  | '\\' :: 'u' :: a :: b :: c :: d :: '\\' :: 'u' :: e :: f :: g :: h :: rest => do
    let n ← codeUnit? a b c d
    if isHighSurrogate n then
      let m ← codeUnit? e f g h
      if isLowSurrogate m then
        let (s, rest) ← readString rest
        return (Char.ofNat (0x10000 + (n - 0xD800) * 0x400 + (m - 0xDC00)) :: s, rest)
      else none
    else if isLowSurrogate n then none
    else
      let (s, rest) ← readString ('\\' :: 'u' :: e :: f :: g :: h :: rest)
      return (Char.ofNat n :: s, rest)
  | '\\' :: 'u' :: a :: b :: c :: d :: rest => do
    let n ← codeUnit? a b c d
    if isHighSurrogate n || isLowSurrogate n then none
    else
      let (s, rest) ← readString rest
      return (Char.ofNat n :: s, rest)
  | '\\' :: c :: rest => do
    let c ← shortEscape? c
    let (s, rest) ← readString rest
    return (c :: s, rest)
  | c :: rest =>
    if c.toNat < 0x20 then none
    else (readString rest).map (fun r => (c :: r.1, r.2))

/-- What a reader takes: how many arrays and objects with content may stand inside one another,
and which numbers, by whether they are integers and the digits before the point. -/
structure Limits where
  depth : Nat
  takesNumber : (integer : Bool) → (digits : Nat) → Bool

/-- The greatest number of digits of an integer, or of digits before the point of a number. -/
def numberLimit : Nat := 4300

/-- The limits of records: a nesting of 200, and numbers with at most `numberLimit` digits before
the point. -/
def Limits.narrow : Limits := ⟨200, fun _ digits => digits ≤ numberLimit⟩

/-- The limits of any other text of a given length: integers of at most `numberLimit` digits. -/
def Limits.wide (length : Nat) : Limits :=
  ⟨length, fun integer digits => !integer || digits ≤ numberLimit⟩

/-- The fraction after the whole part of a number, none if there is none. -/
def readFraction : List Char → Option (Option (List Char) × List Char)
  | '.' :: rest => (Scientific.readDigits rest).map (fun r => (some r.1, r.2))
  | s => some (none, s)

/-- An unsigned number. -/
def readUnsigned (l : Limits) (negative : Bool) (s : List Char) : Option (Json × List Char) := do
  let (whole, rest) ← Scientific.readDigits s
  if whole.head? = some '0' ∧ 1 < whole.length then none
  else
    let (fraction, rest) ← readFraction rest
    let (exponent, rest) ← Scientific.readExponent rest
    let integer := fraction.isNone && exponent.isNone
    if !l.takesNumber integer whole.length then none
    else if integer then
      return (.int (Text.signed negative (Scientific.digitsValue whole)), rest)
    else
      return (.float (Scientific.rounded negative whole (fraction.getD []) (exponent.getD 0)), rest)

/-- A number. -/
def readNumber (l : Limits) : List Char → Option (Json × List Char)
  | 'N' :: 'a' :: 'N' :: rest => some (.float .notANumber, rest)
  | 'I' :: 'n' :: 'f' :: 'i' :: 'n' :: 'i' :: 't' :: 'y' :: rest =>
    some (.float (.infinity false), rest)
  | '-' :: 'I' :: 'n' :: 'f' :: 'i' :: 'n' :: 'i' :: 't' :: 'y' :: rest =>
    some (.float (.infinity true), rest)
  | '-' :: rest => readUnsigned l true rest
  | s => readUnsigned l false s

mutual

/-- A value, with a gap in front of it. -/
def readValue (l : Limits) : Nat → Nat → List Char → Option (Json × List Char)
  | 0, _, _ => none
  | fuel + 1, depth, s =>
    match skipGap s with
    | '"' :: rest => (readString rest).map (fun r => (.str (String.ofList r.1), r.2))
    | '[' :: rest =>
      match skipGap rest, depth with
      | ']' :: rest, _ => some (.arr [], rest)
      | _, 0 => none
      | rest, depth + 1 => (readElements l fuel depth rest).map (fun r => (.arr r.1, r.2))
    | '{' :: rest =>
      match skipGap rest, depth with
      | '}' :: rest, _ => some (.obj [], rest)
      | _, 0 => none
      | rest, depth + 1 => (readMembers l fuel depth rest).map (fun r => (.obj r.1, r.2))
    | 'n' :: 'u' :: 'l' :: 'l' :: rest => some (.null, rest)
    | 't' :: 'r' :: 'u' :: 'e' :: rest => some (.bool true, rest)
    | 'f' :: 'a' :: 'l' :: 's' :: 'e' :: rest => some (.bool false, rest)
    | rest => readNumber l rest

/-- The elements of an array up to its closing bracket, at least one. -/
def readElements (l : Limits) : Nat → Nat → List Char → Option (List Json × List Char)
  | 0, _, _ => none
  | fuel + 1, depth, s => do
    let (v, rest) ← readValue l fuel depth s
    match skipGap rest with
    | ',' :: rest =>
      let (vs, rest) ← readElements l fuel depth rest
      return (v :: vs, rest)
    | ']' :: rest => return ([v], rest)
    | _ => none

/-- The members of an object up to its closing brace, at least one. -/
def readMembers (l : Limits) : Nat → Nat → List Char → Option (List (String × Json) × List Char)
  | 0, _, _ => none
  | fuel + 1, depth, s =>
    match skipGap s with
    | '"' :: rest => do
      let (key, rest) ← readString rest
      match skipGap rest with
      | ':' :: rest =>
        let (v, rest) ← readValue l fuel depth rest
        match skipGap rest with
        | ',' :: rest =>
          let (ms, rest) ← readMembers l fuel depth rest
          return ((String.ofList key, v) :: ms, rest)
        | '}' :: rest => return ([(String.ofList key, v)], rest)
        | _ => none
      | _ => none
    | _ => none

end

/-- The value of a whole text with all its members, none if the text is not JSON or exceeds the
limits. -/
def readWithin? (l : Limits) (s : String) : Option Json :=
  let cs := s.toList
  match readValue l (cs.length + 1) l.depth cs with
  | some (v, rest) => if (skipGap rest).isEmpty then some v else none
  | none => none

/-- The value of a whole text within the wide limits; of several members with one key the last one
counts. -/
def read? (s : String) : Option Json := (readWithin? (.wide s.length) s).map merged

end CatalogSearch.Json
