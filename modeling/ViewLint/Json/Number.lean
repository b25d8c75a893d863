import ViewLint.Number.Shortest

/-!
# JSON numbers

A number without point and exponent that fits 64 bits is an integer. Every other one is a binary
number, and one that is too large for that is no number at all.

## Main definitions

* `Number`: the numbers.
* `NumberText.scan`: the written form of a number.
* `NumberText.value?`: the number that is written.
* `Number.render`: the text of a number.
-/

namespace ViewLint.Json

/-- A number: an integer of 64 bits, or a binary number with its sign. -/
inductive Number where
  | natural (n : Nat)
  /-- The negative integer of the given size. -/
  | negative (n : Nat)
  | real (minus : Bool) (x : Binary64)
deriving DecidableEq, Repr, Inhabited

/-- The number as text. -/
def Number.render : Number → String
  | .natural n => String.ofList (Nat.toDigits 10 n)
  | .negative n => "-" ++ String.ofList (Nat.toDigits 10 n)
  | .real minus x => (if minus then "-" else "") ++ x.render

/-- The written form of a number: its sign and the digits before the point, after it, and of the
exponent with its sign. -/
structure NumberText where
  negative : Bool
  whole : List Char
  fraction? : Option (List Char)
  exponent? : Option (Bool × List Char)
deriving Repr

namespace NumberText

/-- The digits at the front, and what is left. -/
def scanDigits (cs : List Char) : List Char × List Char :=
  (cs.takeWhile Char.isDigit, cs.dropWhile Char.isDigit)

/-- The digits after a point, of which there is at least one. -/
def scanFraction (cs : List Char) : Option (Option (List Char) × List Char) :=
  match cs with
  | '.' :: rest =>
    let (digits, left) := scanDigits rest
    if digits.isEmpty then none else some (some digits, left)
  | _ => some (none, cs)

/-- The exponent: a mark, a sign that may be missing, and at least one digit. The flag tells
whether it is negative. -/
def scanExponent (cs : List Char) : Option (Option (Bool × List Char) × List Char) :=
  match cs with
  | [] => some (none, [])
  | c :: rest =>
    if c == 'e' || c == 'E' then
      let (negative, rest) :=
        match rest with
        | '-' :: rest => (true, rest)
        | '+' :: rest => (false, rest)
        | _ => (false, rest)
      let (digits, left) := scanDigits rest
      if digits.isEmpty then none else some (some (negative, digits), left)
    else some (none, cs)

/-- Reads a number; a zero stands alone before the point. -/
def scan (cs : List Char) : Option (NumberText × List Char) := do
  let (negative, rest) :=
    match cs with
    | '-' :: rest => (true, rest)
    | _ => (false, cs)
  let (whole, rest) := scanDigits rest
  if whole.isEmpty || (whole.head? == some '0' && whole.length != 1) then none
  else
    let (fraction?, rest) ← scanFraction rest
    let (exponent?, rest) ← scanExponent rest
    return (⟨negative, whole, fraction?, exponent?⟩, rest)

/-- The value of a digit. -/
def digitValue (c : Char) : Nat :=
  c.toNat - '0'.toNat

/-- The natural number that digits write. -/
def digitsValue (ds : List Char) : Nat :=
  ds.foldl (fun n d => n * 10 + digitValue d) 0

/-- One past the largest natural number. -/
def bound : Nat :=
  Nat.pow 2 64

/-- The leading digits that fit, as a natural number, and the number of digits left out. -/
def leading (ds : List Char) : Nat × Nat :=
  ds.foldl
    (fun (n, dropped) d =>
      if dropped == 0 && n * 10 + digitValue d < bound then (n * 10 + digitValue d, 0)
      else (n, dropped + 1))
    (0, 0)

/-- The digits after the point that still fit behind `n`, and their number. -/
def extend (n : Nat) : List Char → Nat × Nat
  | [] => (n, 0)
  | d :: ds =>
    if n * 10 + digitValue d < bound then
      let (m, count) := extend (n * 10 + digitValue d) ds
      (m, count + 1)
    else (n, 0)

/-- The number as a binary number. -/
def real? (t : NumberText) : Option Number :=
  let (n, dropped) := leading t.whole
  let (n, count) := extend n (t.fraction?.getD [])
  let shift : Int := (dropped : Int) - count
  let exponent : Int :=
    match t.exponent? with
    | none => 0
    | some (true, ds) => -(digitsValue ds : Int)
    | some (false, ds) => digitsValue ds
  (Binary64.ofScaled? n (shift + exponent)).map (.real t.negative)

/-- The number that is written, or none if it is too large. -/
def value? (t : NumberText) : Option Number :=
  let n := digitsValue t.whole
  if t.fraction?.isNone && t.exponent?.isNone && decide (n < bound) then
    if !t.negative then some (.natural n)
    else if decide (0 < n) && decide (n ≤ Nat.pow 2 63) then some (.negative n)
    else t.real?
  else t.real?

end NumberText

end ViewLint.Json
