import ViewLint.Number.Binary64

/-!
# The shortest decimal of a binary number

Of the decimals that round to a given binary number, those with the fewest digits, and of these the
one nearest to the number.

## Main definitions

* `Binary64.covers`: whether a decimal rounds to the number.
* `Binary64.shortest`: the digits and the decimal exponent of the shortest decimal.
* `Binary64.render`: the decimal as text.
-/

namespace ViewLint.Binary64

/-- Compares the decimal `digits * 10 ^ scale` with the number `m * 2 ^ e`. -/
def compareDecimal (digits : Nat) (scale : Int) (m : Nat) (e : Int) : Ordering :=
  compare (digits * Nat.pow 10 scale.toNat * Nat.pow 2 (-e).toNat)
    (m * Nat.pow 2 e.toNat * Nat.pow 10 (-scale).toNat)

/-- Whether a decimal lies between the midpoints to the two neighbours of the number. The midpoints
themselves belong to a number with an even mantissa. -/
def covers (x : Binary64) (digits : Nat) (scale : Int) : Bool :=
  let quarter := x.exponent - 2
  let below :=
    if x.mantissa = Nat.pow 2 52 ∧ minExponent < x.exponent then 4 * x.mantissa - 1
    else 4 * x.mantissa - 2
  let above := 4 * x.mantissa + 2
  let inclusive := x.mantissa % 2 = 0
  let low := compareDecimal digits scale below quarter
  let high := compareDecimal digits scale above quarter
  (low == .gt || (inclusive && low == .eq)) && (high == .lt || (inclusive && high == .eq))

/-- The number of decimal digits of a natural number. -/
def digitCount (n : Nat) : Nat :=
  (Nat.toDigits 10 n).length

/-- The exponent of the largest power of ten that is at most a positive number. -/
def floorLog10 (x : Binary64) : Int :=
  if x.den ≤ x.num then (digitCount (x.num / x.den) : Int) - 1
  else -(digitCount ((x.den + x.num - 1) / x.num - 1) : Int)

/-- A decimal with the given number of digits that rounds to the number, if there is one: the
nearest of the two neighbours on that decimal grid. -/
def decimalOf? (x : Binary64) (digits : Nat) : Option (Nat × Int) :=
  let scale := floorLog10 x - digits + 1
  let num := x.num * Nat.pow 10 (-scale).toNat
  let den := x.den * Nat.pow 10 scale.toNat
  let low := num / den
  let lowFits := x.covers low scale
  let highFits := x.covers (low + 1) scale
  if lowFits && highFits then some (roundDiv num den, scale)
  else if lowFits then some (low, scale)
  else if highFits then some (low + 1, scale)
  else none

/-- The shortest decimal that rounds to a number: its digits as a natural number, and the power of
ten that they count. Seventeen digits always suffice. -/
def shortest (x : Binary64) : Nat × Int :=
  if x.mantissa = 0 then (0, 0)
  else ((List.range 17).findSome? fun n => decimalOf? x (n + 1)).getD (0, 0)

/-- The decimal digits of a natural number without zeros at the end. -/
def significantDigits (n : Nat) : List Char :=
  ((Nat.toDigits 10 n).reverse.dropWhile (· == '0')).reverse

/-- An exponent with its sign and at least two digits. -/
def renderExponent (e : Int) : String :=
  let digits := Nat.toDigits 10 e.natAbs
  (if e < 0 then "-" else "+") ++ String.ofList (List.replicate (2 - digits.length) '0' ++ digits)

/-- The shortest decimal as text. From `1e-5` up to `1e16` it is positional with at least one digit
on each side of the point; beyond that it has an exponent. -/
def render (x : Binary64) : String :=
  let (n, scale) := x.shortest
  if n = 0 then "0.0"
  else
    let digits := significantDigits n
    let e := (digitCount n : Int) - 1 + scale
    let zeros (k : Nat) : List Char := List.replicate k '0'
    if -5 ≤ e ∧ e ≤ 15 then
      if e < 0 then String.ofList ('0' :: '.' :: zeros ((-e).toNat - 1) ++ digits)
      else
        let whole := e.toNat + 1
        if digits.length ≤ whole then
          String.ofList (digits ++ zeros (whole - digits.length) ++ ['.', '0'])
        else String.ofList (digits.take whole ++ '.' :: digits.drop whole)
    else
      let tail := digits.drop 1
      String.ofList (digits.take 1 ++ (if tail.isEmpty then [] else '.' :: tail)) ++ "e" ++
        renderExponent e

end ViewLint.Binary64
