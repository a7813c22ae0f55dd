import VerifyPipeline.Binary64.Basic

/-!
# The shortest numeral of a floating-point number

A number is written with the fewest significant digits that read back to it, and among those with
the nearest; of two equally near the even one is taken.  Numbers from `1e-5` up to `1e16` are
written positionally with at least one digit after the point, all others with an exponent.
-/

namespace VerifyPipeline

namespace Magnitude

/-- A decimal numeral `digits · 10 ^ exponent`. -/
structure Numeral where
  digits : Nat
  exponent : Int
  deriving Repr, DecidableEq

/-- The reals that round to a magnitude, in quarters of its last place. -/
structure Interval where
  low : Nat
  value : Nat
  high : Nat
  closed : Bool
  /-- The exponent of two that belongs to a quarter of the last place. -/
  exponent : Int
  deriving Repr, DecidableEq

/-- The interval of the reals that round to `m`.  Below a power of two the neighbour is nearer, and
the ends belong to the interval when the significand is even. -/
def interval (m : Magnitude) : Interval where
  low :=
    4 * m.significand
      - (if m.significand = Nat.pow 2 52 ∧ leastExponent < m.exponent then 1 else 2)
  value := 4 * m.significand
  high := 4 * m.significand + 2
  closed := m.significand % 2 = 0
  exponent := m.exponent - 2

/-- Compare `x · 2 ^ binary` with `d · 10 ^ decimal`: both sides as whole numbers. -/
def crossed
    (x : Nat)
    (binary : Int)
    (d : Nat)
    (decimal : Int) :
    Nat × Nat :=
  (x * upFactor binary * Nat.pow 10 (-decimal).toNat,
    d * downFactor binary * Nat.pow 10 decimal.toNat)

/-- Whether `d · 10 ^ decimal` lies in the interval. -/
def Interval.contains
    (i : Interval)
    (d : Nat)
    (decimal : Int) :
    Bool :=
  let below := crossed i.low i.exponent d decimal
  let above := crossed i.high i.exponent d decimal
  if i.closed then below.1 ≤ below.2 && above.2 ≤ above.1
  else below.1 < below.2 && above.2 < above.1

/-- The point of the grid of multiples of `10 ^ decimal` that lies in the interval nearest to the
value, if there is one. -/
def Interval.gridPoint?
    (i : Interval)
    (decimal : Int) :
    Option Nat :=
  let (x, unit) := crossed i.value i.exponent 1 decimal
  let down := x / unit
  let up := down + 1
  match i.contains down decimal, i.contains up decimal with
  | false, false => none
  | true, false => some down
  | false, true => some up
  | true, true =>
    let rest := 2 * (x % unit)
    if rest < unit then some down
    else if unit < rest then some up
    else if down % 2 = 0 then some down
    else some up

/-- Look on ever finer grids, as often as allowed. -/
def Interval.search
    (i : Interval) :
    Nat → Int → Option Numeral
  | 0, _ => none
  | steps + 1, decimal =>
    match i.gridPoint? decimal with
    | some d => some ⟨d, decimal⟩
    | none => i.search steps (decimal - 1)

/-- A power of ten that no number of the given binary size reaches. -/
def firstDecimalExponent (m : Magnitude) : Int :=
  (Nat.log2 m.significand + m.exponent + 1) * 30103 / 100000 + 2

/-- The shortest numeral of a magnitude other than zero. -/
def shortest (m : Magnitude) : Numeral :=
  (m.interval.search 24 m.firstDecimalExponent).getD ⟨m.significand, m.exponent⟩

/-- Numbers below ten to this power are written positionally. -/
def positionalBelow : Int := 16

/-- Numbers below one are written positionally with fewer than this many zeros after the point. -/
def leadingZerosBelow : Int := 5

/-- The written form of a numeral. -/
def Numeral.text (numeral : Numeral) : List Char :=
  let digits := Nat.toDigits 10 numeral.digits
  let point : Int := digits.length + numeral.exponent
  if 0 ≤ numeral.exponent ∧ point ≤ positionalBelow then
    digits ++ List.replicate numeral.exponent.toNat '0' ++ ['.', '0']
  else if 0 < point ∧ point ≤ positionalBelow then
    digits.take point.toNat ++ '.' :: digits.drop point.toNat
  else if -leadingZerosBelow < point ∧ point ≤ 0 then
    '0' :: '.' :: List.replicate (-point).toNat '0' ++ digits
  else
    let fraction := match digits.drop 1 with
      | [] => []
      | rest => '.' :: rest
    let scale := point - 1
    digits.take 1 ++ fraction ++ ['e', if scale < 0 then '-' else '+']
      ++ Nat.toDigits 10 scale.natAbs

/-- The written form of a magnitude. -/
def text (m : Magnitude) : List Char :=
  if m.significand = 0 then ['0', '.', '0'] else m.shortest.text

end Magnitude

/-- The written form of a number. -/
def Binary64.text (x : Binary64) : String :=
  String.ofList (if x.negative then '-' :: x.magnitude.text else x.magnitude.text)

end VerifyPipeline
