import Crosswalk.Json.Basic
import Crosswalk.Scalar

/-!
# Numbers of JSON texts

A numeral without point and exponent is an integer where 64 bits hold it, with or without a
sign; negative zero is none. Any other numeral is a double-precision number: as many leading
digits as 64 bits hold are rounded, and the result is scaled by powers of ten up to
`10 ^ 308`, each step rounding again. A number that this makes infinite is refused.
-/

namespace Crosswalk.Json

open Decimal

/-- The greatest significand. -/
def maxSignificand : Nat := IntKind.u64.greatest.toNat

/-- The leading digits that a significand holds after `n`, and the digits left over. -/
def takeDigits (n : Nat) : List Char → Nat × List Char
  | [] => (n, [])
  | c :: cs =>
    let n' := 10 * n + Text.digitValue c
    if n' ≤ maxSignificand then takeDigits n' cs else (n, c :: cs)

/-- The significand and the power of ten of a numeral. Digits of the whole part that are
left over count as powers of ten; digits of the fraction that are left over are dropped. -/
def significand (x : Numeral) : Nat × Int :=
  let (n, rest) := takeDigits 0 x.whole
  let (m, dropped) := takeDigits n x.fraction
  (m, rest.length - (x.fraction.length - dropped.length : Nat) + x.exponent.getD 0)

/-- The double-precision magnitude nearest to `10 ^ k`. -/
def powerOfTen (k : Nat) : Nat := BinaryFormat.double.nearest (tenPow k) 1

/-- A finite magnitude as a fraction. -/
def fraction (w : Nat) : Nat × Nat :=
  match BinaryFormat.double.decode w with
  | .finite _ m q => (m * twoPow q.toNat, twoPow (-q).toNat)
  | _ => (0, 1)

/-- The product of two magnitudes, rounded. -/
def multiply (v w : Nat) : Nat :=
  BinaryFormat.double.nearest ((fraction v).1 * (fraction w).1) ((fraction v).2 * (fraction w).2)

/-- The quotient of two magnitudes, rounded. -/
def divide (v w : Nat) : Nat :=
  BinaryFormat.double.nearest ((fraction v).1 * (fraction w).2) ((fraction v).2 * (fraction w).1)

/-- A magnitude times `10 ^ e`, if that is finite. Each round divides by `10 ^ 308`; three
bring every significand to zero. -/
def scaled? (rounds : Nat) (w : Nat) (e : Int) : Option Nat :=
  if e.natAbs ≤ 308 then
    if 0 ≤ e then
      let p := multiply w (powerOfTen e.natAbs)
      if p = BinaryFormat.double.infinity then none else some p
    else some (divide w (powerOfTen e.natAbs))
  else if w = 0 then some w
  else if 0 ≤ e then none
  else match rounds with
    | 0 => some 0
    | rounds + 1 => scaled? rounds (divide w (powerOfTen 308)) (e + 308)

/-- The double-precision number of a numeral that is no integer. -/
def real? (x : Numeral) : Option FloatKind.f64.Word :=
  let (n, e) := significand x
  (scaled? 3 (BinaryFormat.double.nearest n 1) e).map fun w =>
    BitVec.ofNat _ (BinaryFormat.double.signed x.negative w)

/-- The integer of a numeral. -/
def integer? (x : Numeral) : Option Int :=
  if x.fraction.isEmpty && x.exponent.isNone then
    let n : Int := Text.natOfDigits 0 x.whole
    if x.negative then if 0 < n ∧ IntKind.i64.InRange (-n) then some (-n) else none
    else if IntKind.u64.InRange n then some n else none
  else none

/-- The element of an integer kind. -/
def toElem? (k : IntKind) : Json → Option k.Elem
  | number x => (integer? x).bind k.ofInt?
  | _ => none

/-- The word of a floating-point kind. -/
def toWord? (k : FloatKind) : Json → Option k.Word
  | number x =>
    match integer? x with
    | some n => some (k.ofInt n)
    | none => (real? x).map fun w =>
      match k with
      | .f64 => w
      | .f32 => FloatKind.f32.encode (FloatKind.f64.decode w)
  | _ => none

/-- The tree of a floating-point number, null where it is not finite. -/
def ofWord (k : FloatKind) (w : k.Word) : Json :=
  let layout := match k with
    | .f32 => Layout.jsonSingle
    | .f64 => Layout.jsonDouble
  match k.decode w with
  | .finite negative m q => number (layout.numeral k.format negative m q)
  | _ => null

end Crosswalk.Json
