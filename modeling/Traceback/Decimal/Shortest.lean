/-! # Shortest decimals

The shortest decimal that lies in an interval around a number, and of several that are equally short the one
nearest to the number. All arithmetic is exact.

* `Around`: a positive number with the interval in which a decimal stands for it.
* `Around.shortest`: the decimal.
* `Around.ofFloat`: a floating-point number with the reals that are rounded to it.
-/

namespace Traceback
set_option autoImplicit false

/-- The decimal `digits · 10^exponent`. -/
structure Decimal where
  digits : Nat
  exponent : Int
  deriving DecidableEq, Repr

namespace Decimal

/-- A number and the ends of an interval around it, over one denominator. -/
structure Around where
  low : Nat
  value : Nat
  high : Nat
  denominator : Nat
  /-- Whether the ends belong to the interval. -/
  closed : Bool

namespace Around

/-- Whether the numerator `n` lies in the interval. -/
def contains (a : Around) (n : Nat) : Bool :=
  if a.closed then a.low ≤ n && n ≤ a.high else a.low < n && n < a.high

/-- The factor by which numerators grow when `10^exponent` becomes the unit. -/
def scaled (a : Around) (exponent : Int) : Around :=
  let up := Nat.pow 10 (-exponent).toNat
  { low := a.low * up
    value := a.value * up
    high := a.high * up
    denominator := a.denominator * Nat.pow 10 exponent.toNat
    closed := a.closed }

/-- The multiple of `10^exponent` in the interval that is nearest to the number; of two equally near ones the
even one. -/
def onGrid (a : Around) (exponent : Int) : Option Decimal :=
  let s := a.scaled exponent
  let below := s.value / s.denominator
  let above := below + 1
  let toBelow := s.value - below * s.denominator
  let toAbove := above * s.denominator - s.value
  let fits (n : Nat) : Bool := 0 < n && s.contains (n * s.denominator)
  let belowFirst := toBelow < toAbove || (toBelow == toAbove && below % 2 == 0)
  let (first, second) := if belowFirst then (below, above) else (above, below)
  if fits first then some ⟨first, exponent⟩
  else if fits second then some ⟨second, exponent⟩
  else none

/-- The least `n` with `10^n · numerator ≥ denominator`, sought from `n` on. -/
def leadingZeros (denominator : Nat) : (fuel n numerator : Nat) → Nat
  | 0, n, _ => n
  | fuel + 1, n, numerator =>
    if denominator ≤ numerator then n else leadingZeros denominator fuel (n + 1) (10 * numerator)

/-- The exponent of the first digit of the number. -/
def magnitude (a : Around) : Int :=
  let whole := a.value / a.denominator
  if 0 < whole then ((Nat.toDigits 10 whole).length : Int) - 1
  else -(leadingZeros a.denominator 400 0 a.value : Int)

/-- The first of the grids of ever smaller units that has a point in the interval. -/
def search (a : Around) : (fuel : Nat) → (exponent : Int) → Decimal
  | 0, exponent => ⟨a.value / a.denominator, exponent⟩
  | fuel + 1, exponent =>
    match a.onGrid exponent with
    | some d => d
    | none => search a fuel (exponent - 1)

def shortest (a : Around) : Decimal := a.search 20 (a.magnitude + 1)

/-- The number `mantissa · 2^exponent`, whose neighbours are a unit of the mantissa away, or half a unit
below when `narrow`. -/
def ofBinary (mantissa : Nat) (exponent : Int) (narrow : Bool) : Around :=
  let up := Nat.pow 2 exponent.toNat
  { low := (4 * mantissa - (if narrow then 1 else 2)) * up
    value := 4 * mantissa * up
    high := (4 * mantissa + 2) * up
    denominator := 4 * Nat.pow 2 (-exponent).toNat
    closed := mantissa % 2 == 0 }

/-- The absolute value of a finite number other than zero, from its bits. -/
def ofFloat (x : Float) : Around :=
  let bits : Nat := x.toBits.toNat % Nat.pow 2 63
  let fraction : Nat := bits % Nat.pow 2 52
  let field : Nat := bits / Nat.pow 2 52
  if field = 0 then ofBinary fraction (-1074) false
  else ofBinary (Nat.pow 2 52 + fraction) ((field : Int) - 1075) (fraction == 0 && 1 < field)

end Around
end Decimal
end Traceback
