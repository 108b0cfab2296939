/-!
# Decimal numerals

A number as it is written: a sign, digits before and after a point, and an exponent.
-/

namespace Crosswalk.Decimal

/-- A number as it is written. Without digits in the fraction there is no point. -/
structure Numeral where
  negative : Bool
  whole : List Char
  fraction : List Char
  exponent : Option Int
  deriving DecidableEq, Repr

namespace Numeral

/-- The numeral of an integer. -/
def ofInt (n : Int) : Numeral := ⟨decide (n < 0), Nat.toDigits 10 n.natAbs, [], none⟩

/-- The power of ten that the digits count. -/
def scale (x : Numeral) : Int := x.exponent.getD 0 - x.fraction.length

/-- The characters of the numeral; `plus` gives a positive exponent a sign. -/
def chars (plus : Bool) (x : Numeral) : List Char :=
  (if x.negative then ['-'] else []) ++ x.whole ++
    (if x.fraction.isEmpty then [] else '.' :: x.fraction) ++
    match x.exponent with
    | none => []
    | some e =>
      'e' :: (if e < 0 then ['-'] else if plus then ['+'] else []) ++ Nat.toDigits 10 e.natAbs

end Numeral

end Crosswalk.Decimal
