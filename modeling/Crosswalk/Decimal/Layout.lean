import Crosswalk.Decimal.Numeral
import Crosswalk.Decimal.Shortest

/-!
# Layouts of floating-point text

How the shortest digits of a number are laid out as a numeral: which numbers stand without
an exponent, and whether a whole number keeps a zero after its point.
-/

namespace Crosswalk.Decimal

/-- The choices in which written numbers differ. -/
structure Layout where
  tie : Tie
  /-- Numbers whose first digit has an exponent in this range stand without an exponent;
  `none` puts no bound. -/
  least : Option Int
  greatest : Option Int
  /-- A whole number without an exponent keeps `.0`. -/
  pointZero : Bool

namespace Layout

/-- Always without an exponent, and whole numbers without a point. -/
def plain : Layout := ⟨.up, none, none, false⟩

/-- For debugging: a point where there is no exponent, and an exponent below `0.0001` and
from `10 ^ 16` on. -/
def debug : Layout := ⟨.up, some (-4), some 15, true⟩

/-- Single-precision numbers in JSON text. -/
def jsonSingle : Layout := ⟨.even, some (-6), some 12, true⟩

/-- Double-precision numbers in JSON text. -/
def jsonDouble : Layout := ⟨.even, some (-5), some 15, true⟩

/-- Whether a first digit of this exponent stands without an exponent. -/
def positional (l : Layout) (e : Int) : Bool :=
  l.least.all (· ≤ e) && l.greatest.all (e ≤ ·)

/-- Digits whose first has exponent `e`, without an exponent. -/
def positionalNumeral (l : Layout) (negative : Bool) (ds : List Char) (e : Int) : Numeral :=
  if e < 0 then ⟨negative, ['0'], List.replicate ((-e).toNat - 1) '0' ++ ds, none⟩
  else
    let places := e.toNat + 1
    if ds.length ≤ places then
      ⟨negative, ds ++ List.replicate (places - ds.length) '0', if l.pointZero then ['0'] else [],
        none⟩
    else ⟨negative, ds.take places, ds.drop places, none⟩

/-- The numeral of a decimal. -/
def ofScientific (l : Layout) (negative : Bool) (s : Scientific) : Numeral :=
  let ds := Nat.toDigits 10 s.digits
  let e := s.exponent + ds.length - 1
  if l.positional e then l.positionalNumeral negative ds e
  else ⟨negative, ds.take 1, ds.drop 1, some e⟩

/-- The numeral of the number `m * 2 ^ q`. -/
def numeral (l : Layout) (f : BinaryFormat) (negative : Bool) (m : Nat) (q : Int) : Numeral :=
  l.ofScientific negative (if m = 0 then ⟨0, 0⟩ else shortest f l.tie m q)

/-- The text of a number; infinities and no number have fixed texts. -/
def text (l : Layout) (f : BinaryFormat) : Binary → String
  | .nan _ => "NaN"
  | .infinite negative => if negative then "-inf" else "inf"
  | .finite negative m q => String.ofList ((l.numeral f negative m q).chars false)

end Layout

end Crosswalk.Decimal
