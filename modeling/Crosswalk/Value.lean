import Crosswalk.ValueType
import Crosswalk.Text.Quoted

/-!
# Values

A value read from a member or written to it. An enumeration value holds its discriminant
only; the variants belong to the member's type. `Value.conforms` decides which values a
member of a type may hold. Two relations compare values: identity, in which words of
floating-point numbers must agree, and `Value.sameNumber`, in which the numbers must.
-/

namespace Crosswalk

/-- A value of a member. -/
inductive Value where
  /-- The absent value of a nullable member. -/
  | null
  | bool (b : Bool)
  | char (c : Char)
  | int (k : IntKind) (n : k.Elem)
  | float (k : FloatKind) (w : k.Word)
  | str (s : String)
  | enum (d : Discriminant)
  deriving DecidableEq

namespace Value

/-- The value is the absent one. -/
def isNull : Value → Bool
  | null => true
  | _ => false

/-- The kind of value, for diagnostics. -/
def kindName : Value → String
  | null => "null"
  | bool _ => "bool"
  | char _ => "char"
  | int k _ => k.name
  | float k _ => k.name
  | str _ => "string"
  | enum _ => "enum"

/-- The value as text. -/
def display : Value → String
  | null => "null"
  | bool b => if b then "true" else "false"
  | char c => String.singleton c
  | int _ n => toString n.1
  | float k w => k.text .plain w
  | str s => s
  | enum d => toString d.1

/-- The kind and the value, with texts quoted. -/
def describe : Value → String
  | null => "null"
  | str s => "string " ++ Text.quoted s
  | v => v.kindName ++ " " ++ v.display

/-- A member of the type may hold the value. -/
def conforms : Value → ValueType → Bool
  | null, .nullable _ => true
  | v, .nullable t => v.conforms t
  | bool _, .bool => true
  | char _, .char => true
  | int k _, .int k' => k == k'
  | float k _, .float k' => k == k'
  | str _, .string => true
  | enum d, .enum e => e.contains d
  | _, _ => false

/-- The number of a truth value, character, integer or enumeration value. -/
def integral? : Value → Option Int
  | bool b => some b.toNat
  | char c => some c.toNat
  | int _ n => some n.1
  | enum d => some d.1
  | _ => none

/-- The double-precision word of a number, or of what has an integral one. -/
def double? : Value → Option FloatKind.f64.Word
  | float .f32 w => some (FloatKind.f64.encode (FloatKind.f32.decode w))
  | float .f64 w => some w
  | v => v.integral?.map (FloatKind.ofInt .f64)

/-- The text that the value holds. -/
def text? : Value → Option String
  | str s => some s
  | _ => none

/-- The values are equal, floating-point numbers as numbers. -/
def sameNumber : Value → Value → Bool
  | float .f32 v, float .f32 w => FloatKind.f32.sameNumber v w
  | float .f64 v, float .f64 w => FloatKind.f64.sameNumber v w
  | v, w => decide (v = w)

/-- The values are equal, floating-point numbers as words. -/
def identical : Value → Value → Bool
  | float .f32 v, float .f32 w => v == w
  | float .f64 v, float .f64 w => v == w
  | v, w => v.sameNumber w

/-- Identical values are one value, whatever number it is or is not. -/
@[simp] theorem identical_iff {v w : Value} : v.identical w = true ↔ v = w := by
  unfold identical
  split
  · simp
  · simp
  · next hsingle hdouble =>
    unfold sameNumber
    split
    · exact absurd rfl (hsingle _ _ rfl)
    · exact absurd rfl (hdouble _ _ rfl)
    · exact decide_eq_true_iff

/-- What tells values apart. -/
def fingerprint : Value → List Token
  | null => [.tag 0]
  | bool b => [.tag 1, .flag b]
  | char c => [.tag 2, .count c.toNat]
  | int k n => [.tag 3, .text k.name, .int n.1]
  | float k w => [.tag 4, .text k.name, .word w.toNat]
  | str s => [.tag 5, .text s]
  | enum d => [.tag 6, .int d.1]

end Value

/-- The zero of the type: absent where the type is nullable, and for an enumeration the
zero of its variants. -/
def ValueType.default : ValueType → Value
  | .bool => .bool false
  | .char => .char '\x00'
  | .int k => .int k k.zero
  | .float k => .float k 0
  | .string => .str ""
  | .enum e => .enum e.zero
  | .nullable _ => .null

end Crosswalk
