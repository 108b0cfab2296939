import Crosswalk.Decimal.Power

/-!
# Binary floating-point formats

A format with `precision` significant bits packs a sign, an exponent and a significand into
a word. `decode` reads a word as an exact number, an infinity or no number, and `nearest`
packs the nearest number to a quotient, a half going to the even neighbour. All arithmetic
is on natural numbers and integers.
-/

namespace Crosswalk.Decimal

/-- A binary interchange format. -/
structure BinaryFormat where
  /-- Bits of the significand, the leading one included. -/
  precision : Nat
  exponentBits : Nat
  deriving DecidableEq, Repr

namespace BinaryFormat

/-- The 32-bit format. -/
def single : BinaryFormat := ⟨24, 8⟩

/-- The 64-bit format. -/
def double : BinaryFormat := ⟨53, 11⟩

variable (f : BinaryFormat)

/-- Bits of a word: a sign, the exponent, and the significand without its leading one. -/
def width : Nat := f.precision + f.exponentBits

/-- The word of negative zero, which the sign adds to a magnitude. -/
def signBit : Nat := twoPow (f.width - 1)

/-- The least significand of full precision. -/
def unit : Nat := twoPow (f.precision - 1)

/-- The word of positive infinity. -/
def infinity : Nat := (twoPow f.exponentBits - 1) * f.unit

/-- The power of two in the unit of the smallest numbers. -/
def minPower : Int := 3 - twoPow (f.exponentBits - 1) - f.precision

end BinaryFormat

/-- What a word stands for. -/
inductive Binary where
  | nan (negative : Bool)
  | infinite (negative : Bool)
  /-- The number `significand * 2 ^ power`, negated if `negative`. -/
  | finite (negative : Bool) (significand : Nat) (power : Int)
  deriving DecidableEq, Repr

namespace BinaryFormat

variable (f : BinaryFormat)

/-- What the word stands for. -/
def decode (word : Nat) : Binary :=
  let negative := decide (f.signBit ≤ word)
  let magnitude := word % f.signBit
  if f.infinity < magnitude then .nan negative
  else if magnitude = f.infinity then .infinite negative
  else if magnitude < f.unit then .finite negative magnitude f.minPower
  else .finite negative (f.unit + magnitude % f.unit)
    (f.minPower + (magnitude / f.unit : Nat) - 1)

/-- The word of a magnitude with a sign. -/
def signed (negative : Bool) (magnitude : Nat) : Nat :=
  if negative then f.signBit + magnitude else magnitude

/-- The quotient rounded to the nearest number, a half to the even one. -/
def roundQuotient (num den : Nat) : Nat :=
  let q := num / den
  let r := num % den
  if 2 * r < den then q else if den < 2 * r then q + 1 else q + q % 2

/-- `num / den` is at least `2 ^ k`. -/
def atLeastPower (num den : Nat) (k : Int) : Bool :=
  decide (den * twoPow k.toNat ≤ num * twoPow (-k).toNat)

/-- The greatest power of two that is at most `num / den`, as its exponent. -/
def binaryExponent (num den : Nat) : Int :=
  let k : Int := (Nat.log2 num : Int) - Nat.log2 den
  if atLeastPower num den k then k else k - 1

/-- The magnitude nearest to `num / den`: the quotient in units of the last place, rounded,
with infinity in place of what is too large. -/
def nearest (num den : Nat) : Nat :=
  if num = 0 then 0
  else
    let power := max (binaryExponent num den - (f.precision - 1 : Nat)) f.minPower
    let m := roundQuotient (num * twoPow (-power).toNat) (den * twoPow power.toNat)
    min f.infinity ((power - f.minPower).toNat * f.unit + m)

/-- The word nearest to an integer. -/
def ofInt (n : Int) : Nat := f.signed (decide (n < 0)) (f.nearest n.natAbs 1)

/-- The word nearest to a decoded number. An infinity stays one, and no number stays none,
with its sign and the quiet bit alone. -/
def encode : Binary → Nat
  | .nan negative => f.signed negative (f.infinity + f.unit / 2)
  | .infinite negative => f.signed negative f.infinity
  | .finite negative m q =>
    f.signed negative (f.nearest (m * twoPow q.toNat) (twoPow (-q).toNat))

end BinaryFormat

namespace Binary

/-- The integer nearest to a number, a half going to the even one. -/
def roundToInt? : Binary → Option Int
  | .finite negative m q =>
    let n : Int := BinaryFormat.roundQuotient (m * twoPow q.toNat) (twoPow (-q).toNat)
    some (if negative then -n else n)
  | _ => none

/-- The number is zero, of either sign. -/
def isZero : Binary → Bool
  | .finite _ m _ => m == 0
  | _ => false

/-- The number is finite. -/
def isFinite : Binary → Bool
  | .finite .. => true
  | _ => false

/-- No number. -/
def isNaN : Binary → Bool
  | .nan _ => true
  | _ => false

end Binary

end Crosswalk.Decimal
