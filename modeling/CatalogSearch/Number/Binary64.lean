import CatalogSearch.Number.Positional

/-!
# Binary floating-point numbers

Binary floating-point numbers of 64 bits, as exact mathematics.

The magnitudes, from zero over the subnormal and normal numbers to infinity, form one scale in
increasing order, and a number is a sign and a position on it. Position `p` stands for
`mantissa p * 2 ^ exponent p`; `ofRatio` rounds a quotient to the nearest position, ties to the even
one, and `ofDecimal` does so for a decimal. The position after infinity stands for not-a-number,
which has no sign of its own.
-/

namespace CatalogSearch

/-- How many magnitudes share a power of two. -/
def Binary64.binade : Nat := Nat.pow 2 52

/-- The position of infinity. -/
def Binary64.top : Nat := 2047 * Binary64.binade

/-- A sign and a position on the scale of magnitudes or one after its end. -/
structure Binary64 where
  negative : Bool
  position : Nat
  position_le : position ≤ Binary64.top + 1
deriving DecidableEq

namespace Binary64

/-- The integer factor of the magnitude at a position. -/
def mantissa (p : Nat) : Nat := if p < binade then p else binade + p % binade

/-- The power of two of the magnitude at a position. -/
def exponent (p : Nat) : Int := if p < binade then -1074 else (p / binade : Nat) - 1075

/-- Whether the number is neither infinite nor not-a-number. -/
def isFinite (x : Binary64) : Bool := x.position < top

/-- Whether the number is zero, of either sign. -/
def isZero (x : Binary64) : Bool := x.position == 0

/-- The number at a position, infinity beyond the scale. -/
def ofPosition (negative : Bool) (p : Nat) : Binary64 :=
  ⟨negative, min p top, Nat.le_succ_of_le (Nat.min_le_right p top)⟩

/-- An infinite number. -/
def infinity (negative : Bool) : Binary64 := ofPosition negative top

/-- What is no number. -/
def notANumber : Binary64 := ⟨false, top + 1, Nat.le_refl _⟩

/-- A quotient rounded to the nearest integer, a half to the even one. -/
def halfEven (num den : Nat) : Nat :=
  let q := num / den
  let r := num % den
  if 2 * r < den ∨ (2 * r = den ∧ q % 2 = 0) then q else q + 1

/-- The integer `e` with `2 ^ e ≤ num / den < 2 ^ (e + 1)`. -/
def floorLog2 (num den : Nat) : Int :=
  let e : Int := (num.log2 : Int) - den.log2
  if num * Nat.pow 2 (-e).toNat < den * Nat.pow 2 e.toNat then e - 1 else e

/-- The power of two by which the mantissa of the rounded quotient is scaled. -/
def roundingExponent (num den : Nat) : Int := max (-1074) (floorLog2 num den - 52)

/-- The position nearest to a quotient. -/
def nearest (num den : Nat) : Nat :=
  if num = 0 then 0
  else
    let q := roundingExponent num den
    (q + 1074).toNat * binade +
      halfEven (num * Nat.pow 2 (-q).toNat) (den * Nat.pow 2 q.toNat)

/-- The quotient `num / den` of either sign, rounded. -/
def ofRatio (negative : Bool) (num den : Nat) : Binary64 := ofPosition negative (nearest num den)

/-- The decimal `d * 10 ^ e` of either sign, rounded. Exponents far outside the scale are told
without computing their powers. -/
def ofDecimal (negative : Bool) (d : Nat) (e : Int) : Binary64 :=
  if d = 0 then ofPosition negative 0
  else if 400 < e then ofPosition negative top
  else if e + (Positional.digits 10 d).length < -400 then ofPosition negative 0
  else ofRatio negative (d * Nat.pow 10 e.toNat) (Nat.pow 10 (-e).toNat)

/-- The numerator of the magnitude. -/
def num (x : Binary64) : Nat := mantissa x.position * Nat.pow 2 (exponent x.position).toNat

/-- The denominator of the magnitude, a power of two. -/
def den (x : Binary64) : Nat := Nat.pow 2 (-exponent x.position).toNat

/-- Whether a finite number has no fraction. -/
def isIntegral (x : Binary64) : Bool := x.isFinite && x.num % x.den == 0

/-- A finite number without its fraction. -/
def truncate (x : Binary64) : Int :=
  if x.negative then -((x.num / x.den : Nat) : Int) else (x.num / x.den : Nat)

/-- The greatest integer that is not above a finite number. -/
def floor (x : Binary64) : Int :=
  (if x.negative then -(x.num : Int) else (x.num : Int)).fdiv (x.den : Int)

/-- What a finite number is above the integer below it, rounded. -/
def fraction (x : Binary64) : Binary64 :=
  .ofRatio false ((if x.negative then -(x.num : Int) else x.num).fmod x.den).toNat x.den

/-- A finite number times a natural one, rounded. -/
def scale (x : Binary64) (n : Nat) : Binary64 := ofRatio x.negative (x.num * n) x.den

/-- The magnitude rounded to the nearest integer, a half up. -/
def nearestNat (x : Binary64) : Nat := (2 * x.num + x.den) / (2 * x.den)

end Binary64

end CatalogSearch
