import CatalogSearch.Number.Binary64
import CatalogSearch.Number.Decimal

/-!
# Shortest decimals

The shortest decimal that reads back as a given binary number.

For each count of digits the two neighbours of the number on the decimal grid are tried; the first
count for which one of them reads back is taken, and of two hits the nearer one. Reading back is
tested by the reader itself, so what is chosen reads back by construction.
-/

namespace CatalogSearch.Binary64

/-- The integer `k` with `10 ^ k ≤ num / den < 10 ^ (k + 1)`. -/
def floorLog10 (num den : Nat) : Int :=
  let k : Int := ((Positional.digits 10 num).length : Int) - (Positional.digits 10 den).length
  if num * Nat.pow 10 (-k).toNat < den * Nat.pow 10 k.toNat then k - 1 else k

/-- Whether the decimal `d * 10 ^ e` is read as the magnitude at position `p`. -/
def readsBack (p d : Nat) (e : Int) : Bool := (ofDecimal false d e).position == p

/-- The better of the two neighbours of a magnitude among the decimals of `count` digits, if one
of them reads back; a tie goes to the even one. -/
def shortestOf (x : Binary64) (count : Nat) : Option (Nat × Int) :=
  let e : Int := floorLog10 x.num x.den - (count - 1 : Int)
  let num := x.num * Nat.pow 10 (-e).toNat
  let den := x.den * Nat.pow 10 e.toNat
  let low := num / den
  let rest := num % den
  match readsBack x.position low e, readsBack x.position (low + 1) e with
  | true, true =>
    if 2 * rest < den ∨ (2 * rest = den ∧ low % 2 = 0) then some (low, e) else some (low + 1, e)
  | true, false => some (low, e)
  | false, true => some (low + 1, e)
  | false, false => none

/-- The magnitude as a decimal `d * 10 ^ e` without rounding. -/
def exactDecimal (x : Binary64) : Nat × Int :=
  (x.num * Nat.pow 5 (-exponent x.position).toNat, min 0 (exponent x.position))

/-- The shortest decimal `d * 10 ^ e` that reads back as the magnitude. -/
def shortest (x : Binary64) : Nat × Int :=
  if x.isZero then (0, 0)
  else ((List.range 17).findSome? (fun i => shortestOf x (i + 1))).getD x.exactDecimal

/-- Decimal digits without the zeros at their end, and how many there were. -/
def trimZeros (ds : List Char) : List Char :=
  (ds.reverse.dropWhile (· = '0')).reverse

/-- Digits with the decimal point after the first `point` of them: at least one digit stands on
either side. -/
def positional (ds : List Char) (point : Int) : List Char :=
  if point ≤ 0 then '0' :: '.' :: (List.replicate (-point).toNat '0' ++ ds)
  else
    let n := point.toNat
    let whole := ds.take n ++ List.replicate (n - ds.length) '0'
    let fraction := ds.drop n
    whole ++ '.' :: (if fraction.isEmpty then ['0'] else fraction)

/-- Digits in scientific notation with an exponent of at least two digits. -/
def scientific (ds : List Char) (point : Int) : List Char :=
  let e := point - 1
  let mantissa := match ds with
    | d :: rest@(_ :: _) => d :: '.' :: rest
    | _ => ds
  mantissa ++ 'e' :: (if e < 0 then '-' else '+') :: Decimal.padded 2 e.natAbs

/-- The text of a finite number: its shortest decimal, positional from `1e-4` up to below `1e16`
and scientific outside, always with a mark of a fraction or an exponent. -/
def text (x : Binary64) : List Char :=
  let (d, e) := x.shortest
  let written := Decimal.ofNat d
  let point := (written.length : Int) + e
  let ds := if d = 0 then ['0'] else trimZeros written
  let body :=
    if d = 0 then ['0', '.', '0']
    else if -4 < point ∧ point ≤ 16 then positional ds point
    else scientific ds point
  if x.negative then '-' :: body else body

end CatalogSearch.Binary64
