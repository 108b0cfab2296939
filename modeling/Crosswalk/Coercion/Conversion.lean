import Crosswalk.AccessError
import Crosswalk.Text.Blank

/-!
# Scalar conversion

The value of a type that stands for a given value, where there is one. Texts are read
without the blanks around them; numbers go to integers by rounding, a half to the even
neighbour, and only into the range of the kind. Integers pass through a range of 128 bits,
which holds every kind.
-/

namespace Crosswalk

namespace Value

/-- The least integer of the intermediate range. -/
def wideLeast : Int := -(Decimal.twoPow 127 : Nat)

/-- The greatest integer of the intermediate range. -/
def wideGreatest : Int := Decimal.twoPow 127 - 1

/-- The nearest integer of the intermediate range. -/
def clampWide (n : Int) : Int := max wideLeast (min wideGreatest n)

/-- The integer written in a text, where the intermediate range holds it. -/
def readWide? (s : String) : Option Int :=
  (Text.readInt? (Decimal.twoPow 127 + 1) (Text.trim s.toList)).filter fun n =>
    decide (wideLeast ≤ n) && decide (n ≤ wideGreatest)

/-- The integer that a value stands for. -/
def wide? : Value → Option Int
  | str s => readWide? s
  | float k w => (k.decode w).roundToInt?.map clampWide
  | v => v.integral?

/-- The element of an integer kind that a value stands for. -/
def toInt? (k : IntKind) (v : Value) : Option k.Elem := v.wide?.bind k.ofInt?

/-- The word of a floating-point kind nearest to a value. A finite number that would
become infinite has none. -/
def toFloat? (k : FloatKind) : Value → Option k.Word
  | str s => k.read? (Text.trim s.toList)
  | float k' w =>
    if h : k' = k then some (h ▸ w)
    else
      let r := k.encode (k'.decode w)
      if (k'.decode w).isFinite && !(k.decode r).isFinite then none else some r
  | v => v.integral?.map (FloatKind.ofInt k)

/-- The text is the word, ASCII letters in either case. -/
def isWord (word : String) (cs : List Char) : Bool := cs.map Char.toLower == word.toList

/-- The truth value that a value stands for: numbers do for whether they are not zero. -/
def toBool? : Value → Option Bool
  | bool b => some b
  | str s =>
    let cs := Text.trim s.toList
    if isWord "true" cs then some true else if isWord "false" cs then some false else none
  | float k w => some (!(k.decode w).isZero)
  | v => v.integral?.map (· ≠ 0)

/-- The character with this number. -/
def charOfInt? (n : Int) : Option Char :=
  if h : 0 ≤ n ∧ n.toNat.isValidChar then some (Char.ofNatAux n.toNat h.2) else none

/-- The character that a value stands for: a text does for its only character. -/
def toChar? : Value → Option Char
  | char c => some c
  | str s =>
    match s.toList with
    | [c] => some c
    | _ => none
  | v => v.integral?.bind charOfInt?

/-- The text that a value stands for. -/
def toText? : Value → Option String
  | null => none
  | enum _ => none
  | v => some v.display

/-- The value of the type that a value stands for. Enumerations and nullable types have
none: their plans take values apart first. -/
def convert? (t : ValueType) (v : Value) : Option Value :=
  match t with
  | .bool => v.toBool?.map .bool
  | .char => v.toChar?.map .char
  | .int k => (v.toInt? k).map (.int k)
  | .float k => (v.toFloat? k).map (.float k)
  | .string => v.toText?.map .str
  | .enum _ => none
  | .nullable _ => none

end Value

end Crosswalk
