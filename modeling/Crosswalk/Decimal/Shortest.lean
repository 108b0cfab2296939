import Crosswalk.Decimal.Binary

/-!
# Shortest decimal digits

Of the decimals that a format rounds back to a given number, `shortest` gives one with the
fewest digits, and of those the nearest to the number. For each count of digits it tries
the two decimals next to the number; the first count with a hit wins.
-/

namespace Crosswalk.Decimal

/-- Which of two equally near decimals is taken. -/
inductive Tie where
  | up
  | even
  deriving DecidableEq, Repr

/-- The number `digits * 10 ^ exponent`. -/
structure Scientific where
  digits : Nat
  exponent : Int
  deriving DecidableEq, Repr

/-- The decimals that round back to a number `4 * m * 2 ^ (q - 2)`, as multiples of the same
power of two: the ends lie halfway to the neighbours and belong to the interval if the
significand is even. -/
structure RoundingInterval where
  low : Nat
  middle : Nat
  high : Nat
  closed : Bool
  deriving Repr

namespace RoundingInterval

/-- The interval of `m * 2 ^ q`. The neighbour below a power of two is twice as near. -/
def of (f : BinaryFormat) (m : Nat) (q : Int) : RoundingInterval where
  low := if m = f.unit ∧ f.minPower < q then 4 * m - 1 else 4 * m - 2
  middle := 4 * m
  high := 4 * m + 2
  closed := m % 2 == 0

/-- The decimal `c * den / num` lies in the interval, where its unit is `num / den`. -/
def holds (i : RoundingInterval) (num den c : Nat) : Bool :=
  if i.closed then decide (i.low * num ≤ c * den) && decide (c * den ≤ i.high * num)
  else decide (i.low * num < c * den) && decide (c * den < i.high * num)

/-- The decimal on the grid of `den / num` nearest to the middle that lies in the interval. -/
def onGrid? (i : RoundingInterval) (tie : Tie) (num den : Nat) : Option Nat :=
  let c := i.middle * num / den
  let below := i.middle * num - c * den
  let above := (c + 1) * den - i.middle * num
  match i.holds num den c, i.holds num den (c + 1) with
  | true, true =>
    if below < above then some c
    else if above < below then some (c + 1)
    else match tie with
      | .up => some (c + 1)
      | .even => some (c + c % 2)
  | true, false => some c
  | false, true => some (c + 1)
  | false, false => none

end RoundingInterval

/-- The exponent of the first decimal digit of `m * 2 ^ q`, for numbers above `10 ^ (-400)`. -/
def decimalExponent (m : Nat) (q : Int) : Int :=
  let scaled := m * twoPow q.toNat * tenPow 400 / twoPow (-q).toNat
  (Nat.toDigits 10 scaled).length - 401

/-- The grid with `count` digits: its exponent, and its unit as a fraction of `2 ^ (q - 2)`,
turned over. -/
def grid (q e : Int) (count : Nat) : Int × Nat × Nat :=
  let x := e - (count : Int)
  (x, twoPow (q - 2).toNat * tenPow (-x).toNat, twoPow (2 - q).toNat * tenPow x.toNat)

/-- Without the trailing zeros of its digits. -/
def Scientific.strip (fuel : Nat) (s : Scientific) : Scientific :=
  match fuel with
  | 0 => s
  | fuel + 1 =>
    if s.digits ≠ 0 ∧ s.digits % 10 = 0 then strip fuel ⟨s.digits / 10, s.exponent + 1⟩ else s

/-- The shortest decimal that rounds back to `m * 2 ^ q`, where `m` is not zero. -/
def shortest (f : BinaryFormat) (tie : Tie) (m : Nat) (q : Int) : Scientific :=
  let i := RoundingInterval.of f m q
  let e := decimalExponent m q
  let found := (List.range 18).findSome? fun count =>
    let (x, num, den) := grid q e count
    (i.onGrid? tie num den).map fun c => Scientific.strip 20 ⟨c, x⟩
  found.getD ⟨m, q⟩

end Crosswalk.Decimal
