import CatalogSearch.Number.Decimal
import CatalogSearch.Text.Hex
import CatalogSearch.Text.Split

/-!
# Internet addresses

Internet addresses in their written forms, as far as a URL has to tell them from anything else.
-/

namespace CatalogSearch.Url

/-- Whether a text is a number from 0 to 255 without leading zeros. -/
def isOctet (s : List Char) : Bool :=
  match Decimal.toNat? s with
  | some n => n ≤ 255 && s.length ≤ 3 && (s = ['0'] || s.head? != some '0')
  | none => false

/-- Whether a text is an address of four numbers with dots between them. -/
def isAddress4 (s : List Char) : Bool :=
  let parts := Text.splitOn '.' s
  parts.length == 4 && parts.all isOctet

/-- Whether a text is a group of one to four hexadecimal digits. -/
def isGroup (s : List Char) : Bool :=
  1 ≤ s.length && s.length ≤ 4 && s.all (fun c => (Text.hexValue? c).isSome)

/-- The parts of an address with an address of four numbers at its end put as two groups, none if
what stands there is no such address. -/
def expandLast (parts : List (List Char)) : Option (List (List Char)) :=
  match parts.getLast? with
  | some last =>
    if '.' ∈ last then
      if isAddress4 last then some (parts.dropLast ++ [['0'], ['0']]) else none
    else some parts
  | none => none

/-- Whether parts between colons are eight groups, or fewer around one gap. The gap is one empty
part, and one more at each end of the address that it reaches. -/
def areGroups (parts : List (List Char)) : Bool :=
  if (parts.drop 1).dropLast.contains [] then
    let front := parts.takeWhile (· ≠ [])
    let gap := (parts.dropWhile (· ≠ [])).takeWhile (· = [])
    let back := (parts.dropWhile (· ≠ [])).dropWhile (· = [])
    let gapLength := 1 + (if front.isEmpty then 1 else 0) + (if back.isEmpty then 1 else 0)
    gap.length == gapLength && front.all isGroup && back.all isGroup &&
      front.length + back.length ≤ 7
  else parts.length == 8 && parts.all isGroup

/-- Whether a text is an address of groups with colons between them, possibly with a zone after a
percent sign. -/
def isAddress6 (s : List Char) : Bool :=
  let address := s.takeWhile (· ≠ '%')
  let zoneOk := match s.dropWhile (· ≠ '%') with
    | [] => true
    | _ :: zone => !zone.isEmpty && !zone.contains '%'
  let parts := Text.splitOn ':' address
  zoneOk && 3 ≤ parts.length &&
    match expandLast parts with
    | some parts => parts.length ≤ 9 && areGroups parts
    | none => false

/-- Whether a text is an address of a future kind: a `v`, hexadecimal digits, a point and more. -/
def isFutureAddress (s : List Char) : Bool :=
  match s with
  | 'v' :: rest =>
    let version := rest.takeWhile (fun c => (Text.hexValue? c).isSome)
    match rest.dropWhile (fun c => (Text.hexValue? c).isSome) with
    | '.' :: more => !version.isEmpty && !more.isEmpty
    | _ => false
  | _ => false

end CatalogSearch.Url
