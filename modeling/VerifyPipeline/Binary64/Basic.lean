/-!
# Binary floating-point numbers

Finite numbers of the 64-bit binary format, as a sign, a significand and an exponent.  Sums,
products and quotients are computed exactly over the integers and rounded once, to the nearest
number, a tie going to the even significand.
-/

namespace VerifyPipeline

/-- The magnitude `significand · 2 ^ exponent`.

Rounding yields a significand below `2 ^ 53`, and one below `2 ^ 52` only with the least exponent,
`-1074`. -/
structure Magnitude where
  significand : Nat
  exponent : Int
  deriving Repr, DecidableEq

/-- A finite number: a magnitude with a sign, so that zero has two forms. -/
structure Binary64 where
  negative : Bool
  magnitude : Magnitude
  deriving Repr, DecidableEq

namespace Magnitude

/-- The least exponent, that of the numbers next to zero. -/
def leastExponent : Int := -1074

/-- The greatest exponent of a finite number. -/
def greatestExponent : Int := 971

def zero : Magnitude := ⟨0, leastExponent⟩

/-- `2 ^ k` as a factor of a numerator. -/
def upFactor (k : Int) : Nat := Nat.pow 2 k.toNat

/-- `2 ^ (-k)` as a factor of a denominator. -/
def downFactor (k : Int) : Nat := Nat.pow 2 (-k).toNat

/-- The whole number nearest to `numerator / denominator`, the even one of two equally near. -/
def nearest (numerator denominator : Nat) : Nat :=
  let quotient := numerator / denominator
  let twice := 2 * (numerator % denominator)
  if denominator < twice ∨ (twice = denominator ∧ quotient % 2 = 1) then quotient + 1
  else quotient

/-- The magnitude nearest to `numerator / denominator`; `none` beyond the finite numbers. -/
def ofRatio?
    (numerator denominator : Nat) :
    Option Magnitude :=
  if numerator = 0 then some zero
  else
    let size : Int := Nat.log2 numerator - Nat.log2 denominator
    let first := max (size - 53) leastExponent
    let quotientAt (exponent : Int) :=
      numerator * downFactor exponent / (denominator * upFactor exponent)
    let exponent := if quotientAt first < Nat.pow 2 53 then first else first + 1
    let significand := nearest (numerator * downFactor exponent) (denominator * upFactor exponent)
    let rounded : Magnitude :=
      if significand = Nat.pow 2 53 then ⟨Nat.pow 2 52, exponent + 1⟩ else ⟨significand, exponent⟩
    if greatestExponent < rounded.exponent then none else some rounded

/-- The magnitude nearest to a whole number. -/
def ofNat? (n : Nat) : Option Magnitude := ofRatio? n 1

/-- The rounded product. -/
def mul? (a b : Magnitude) : Option Magnitude :=
  let exponent := a.exponent + b.exponent
  ofRatio? (a.significand * b.significand * upFactor exponent) (downFactor exponent)

/-- The rounded quotient by a magnitude other than zero. -/
def div? (a b : Magnitude) : Option Magnitude :=
  let exponent := a.exponent - b.exponent
  ofRatio? (a.significand * upFactor exponent) (b.significand * downFactor exponent)

/-- The significand of a magnitude when it is written with an exponent that is not greater. -/
def significandAt (m : Magnitude) (exponent : Int) : Nat :=
  m.significand * upFactor (m.exponent - exponent)

/-- The rounded sum. -/
def add? (a b : Magnitude) : Option Magnitude :=
  let exponent := min a.exponent b.exponent
  ofRatio? ((a.significandAt exponent + b.significandAt exponent) * upFactor exponent)
    (downFactor exponent)

/-- Whether one magnitude is below another. -/
def isBelow (a b : Magnitude) : Bool :=
  let exponent := min a.exponent b.exponent
  a.significandAt exponent < b.significandAt exponent

/-- The greatest power of ten that is read as one number. -/
def tableLimit : Nat := 308

/-- The magnitude nearest to `10 ^ k`, for `k` up to the limit of the table. -/
def powerOfTen (k : Nat) : Magnitude := (ofNat? (Nat.pow 10 k)).getD zero

/-- Divide by the greatest power of the table, as often as asked. -/
def divideByGreatestPower : Nat → Magnitude → Magnitude
  | 0, m => m
  | times + 1, m =>
    if m.significand = 0 then m
    else divideByGreatestPower times ((m.div? (powerOfTen tableLimit)).getD zero)

/-- The magnitude written as `significand` followed by a decimal exponent; `none` when it is too
large.

The significand is rounded first and then multiplied or divided by the rounded power of ten, so the
result may differ from the nearest number in the last place. -/
def ofDecimal?
    (significand : Nat)
    (exponent : Int) :
    Option Magnitude :=
  match ofNat? significand with
  | none => none
  | some whole =>
    if 0 ≤ exponent then
      if exponent.toNat ≤ tableLimit then whole.mul? (powerOfTen exponent.toNat)
      else if whole.significand = 0 then some whole
      else none
    else
      let size := exponent.natAbs
      if size ≤ tableLimit then whole.div? (powerOfTen size)
      else
        let times := (size - 1) / tableLimit
        (divideByGreatestPower times whole).div? (powerOfTen (size - times * tableLimit))

end Magnitude

end VerifyPipeline
