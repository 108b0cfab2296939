import Crosswalk.Decimal.Binary
import Crosswalk.Decimal.Numeral
import Crosswalk.Text.Integer

/-!
# Reading floating-point text

The grammar: an optional sign, then `inf`, `infinity` or `nan` in any case, or digits with
an optional point among them and an optional exponent. At least one digit stands before the
exponent, and at least one in it. The number read is the nearest of the format. Of a long
exponent only the leading digits count: once they make 65536 or more, the others are passed
over (`exponentOfDigits`).
-/

namespace Crosswalk.Decimal

/-- The sign and what follows it. -/
def splitSign : List Char → Bool × List Char
  | '-' :: cs => (true, cs)
  | '+' :: cs => (false, cs)
  | cs => (false, cs)

/-- The point with the digits after it, and what follows. -/
def splitFraction : List Char → List Char × List Char
  | '.' :: cs => (cs.takeWhile Char.isDigit, cs.dropWhile Char.isDigit)
  | cs => ([], cs)

/-- The exponent that digits write. A digit counts as long as those before it make less than
65536. -/
def exponentOfDigits (cs : List Char) : Nat := Text.leadingOfDigits 65536 0 cs

/-- The exponent that an optional sign and one or more digits write. -/
def readPower? (cs : List Char) : Option Int :=
  let (negative, ds) := splitSign cs
  if ds ≠ [] ∧ ds.all Char.isDigit then
    let n : Int := exponentOfDigits ds
    some (if negative then -n else n)
  else none

/-- Digits with an optional point and an optional exponent. -/
def readNumeral? (negative : Bool) (cs : List Char) : Option Numeral :=
  let whole := cs.takeWhile Char.isDigit
  let (fraction, rest) := splitFraction (cs.dropWhile Char.isDigit)
  if whole ++ fraction = [] then none
  else match rest with
    | [] => some ⟨negative, whole, fraction, none⟩
    | c :: r =>
      if c = 'e' ∨ c = 'E' then
        (readPower? r).map fun e => ⟨negative, whole, fraction, some e⟩
      else none

/-- The digits that decide the rounding in every format of at most 64 bits. A number halfway
between two neighbours has fewer, so all digits after them only tell whether the numeral is
greater than they are. -/
def decisiveDigits : Nat := 800

/-- The number that significant digits make, ten times, up to its rounding: the digits after
the decisive ones are replaced by one digit. -/
def roundingDigits (ds : List Char) : Nat :=
  10 * Text.natOfDigits 0 (ds.take decisiveDigits) +
    (if (ds.drop decisiveDigits).any (· != '0') then 1 else 0)

/-- The word nearest to a numeral. Beyond `10 ^ 400` it is infinite and below
`10 ^ (-400)` zero, in every format of at most 64 bits. -/
def Numeral.nearest (f : BinaryFormat) (x : Numeral) : Nat :=
  let ds := (x.whole ++ x.fraction).dropWhile (· == '0')
  let size := ds.length + x.scale
  let scale : Int := x.scale + (ds.length - decisiveDigits : Nat) - 1
  f.signed x.negative
    (if ds = [] ∨ size < -400 then 0
    else if 400 < size then f.infinity
    else f.nearest (roundingDigits ds * tenPow scale.toNat) (tenPow (-scale).toNat))

/-- The word that the text stands for. -/
def readWord? (f : BinaryFormat) (cs : List Char) : Option Nat :=
  let (negative, cs) := splitSign cs
  match readNumeral? negative cs with
  | some x => some (x.nearest f)
  | none =>
    let name := cs.map Char.toLower
    if name = "inf".toList ∨ name = "infinity".toList then
      some (f.encode (.infinite negative))
    else if name = "nan".toList then some (f.encode (.nan negative))
    else none

end Crosswalk.Decimal
