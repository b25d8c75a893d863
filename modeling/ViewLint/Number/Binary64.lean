/-!
# Binary numbers of 64 bits

The nonnegative finite numbers with 53 binary digits, as exact values `mantissa * 2 ^ exponent`,
and the rounding of ratios to them. All of it is arithmetic of natural numbers.

## Main definitions

* `roundDiv`: a quotient rounded to the nearest natural number.
* `Binary64.ofRatio?`: the nearest binary number of a ratio, if it is not too large.
* `Binary64.ofScaled?`: the binary number that is reached from decimal digits and an exponent by
  one rounded product or quotient.
-/

namespace ViewLint

/-- The quotient rounded to the nearest natural number; a tie goes to the even one. -/
def roundDiv (num den : Nat) : Nat :=
  let quotient := num / den
  let twice := 2 * (num % den)
  if twice < den then quotient
  else if den < twice then quotient + 1
  else quotient + quotient % 2

/-- A nonnegative number `mantissa * 2 ^ exponent`. -/
structure Binary64 where
  mantissa : Nat
  exponent : Int
deriving DecidableEq, Repr, Inhabited

namespace Binary64

/-- The number zero. -/
def zero : Binary64 :=
  ⟨0, 0⟩

/-- The exponent of the smallest numbers. -/
def minExponent : Int :=
  -1074

/-- The exponent of the largest numbers. -/
def maxExponent : Int :=
  971

/-- The numerator of the number as a ratio. -/
def num (x : Binary64) : Nat :=
  x.mantissa * Nat.pow 2 x.exponent.toNat

/-- The denominator of the number as a ratio. -/
def den (x : Binary64) : Nat :=
  Nat.pow 2 (-x.exponent).toNat

/-- The exponent of the largest power of two that is at most a positive ratio. -/
def floorLog2 (num den : Nat) : Int :=
  let e : Int := (num.log2 : Int) - (den.log2 : Int)
  if num * Nat.pow 2 (-e).toNat < den * Nat.pow 2 e.toNat then e - 1 else e

/-- The binary number nearest to a ratio, or none if the ratio is beyond the largest. -/
def ofRatio? (num den : Nat) : Option Binary64 :=
  if num = 0 then some zero
  else
    let e := max (floorLog2 num den - 52) minExponent
    let m := roundDiv (num * Nat.pow 2 (-e).toNat) (den * Nat.pow 2 e.toNat)
    let x : Binary64 := if m = Nat.pow 2 53 then ⟨Nat.pow 2 52, e + 1⟩ else ⟨m, e⟩
    if maxExponent < x.exponent then none else some x

/-- The rounded product. -/
def mul? (x y : Binary64) : Option Binary64 :=
  ofRatio? (x.num * y.num) (x.den * y.den)

/-- The rounded quotient. -/
def div? (x y : Binary64) : Option Binary64 :=
  ofRatio? (x.num * y.den) (x.den * y.num)

/-- The largest power of ten that is a binary number has this exponent. -/
def maxPower : Nat :=
  308

/-- The number reached from decimal digits and a decimal exponent: the digits are rounded to a
binary number, and that is multiplied or divided by a power of ten. A division by more than the
largest power goes in steps. -/
def ofScaled? (digits : Nat) (exponent : Int) : Option Binary64 := do
  let x ← ofRatio? digits 1
  if x.mantissa = 0 then return zero
  if 0 ≤ exponent then
    if maxPower < exponent.toNat then none
    else mul? x (← ofRatio? (Nat.pow 10 exponent.toNat) 1)
  else
    let size := (-exponent).toNat
    let largest ← ofRatio? (Nat.pow 10 maxPower) 1
    let steps := (size - 1) / maxPower
    -- The third division already gives zero, which stays zero.
    let x ← (List.replicate (min steps 3) largest).foldlM div? x
    if x.mantissa = 0 then return zero
    div? x (← ofRatio? (Nat.pow 10 (size - steps * maxPower)) 1)

end Binary64

end ViewLint
