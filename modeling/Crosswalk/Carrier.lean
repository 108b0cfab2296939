import Crosswalk.AccessError

/-!
# Carriers

The static types whose elements can live in a member: each has a declared type, and its
elements go to values and back. An optional carrier may nest, while its declared type does
not: both kinds of absence are the one absent value.
-/

namespace Crosswalk

/-- A static type of member values. -/
inductive Carrier where
  | bool
  | char
  | int (k : IntKind)
  | float (k : FloatKind)
  | string
  | enum (e : EnumType)
  | option (c : Carrier)
  deriving DecidableEq

namespace Carrier

/-- The elements of the carrier. -/
def Elem : Carrier → Type
  | bool => Bool
  | char => Char
  | int k => k.Elem
  | float k => k.Word
  | string => String
  | enum e => { d : Discriminant // e.contains d = true }
  | option c => Option c.Elem

/-- The declared type of members that hold elements. -/
def valueType : Carrier → ValueType
  | bool => .bool
  | char => .char
  | int k => .int k
  | float k => .float k
  | string => .string
  | enum e => .enum e
  | option c => c.valueType.orNull

/-- The value of an element. -/
def toValue : (c : Carrier) → c.Elem → Value
  | bool, b => .bool b
  | char, c => .char c
  | int k, n => .int k n
  | float k, w => .float k w
  | string, s => .str s
  | enum _, d => .enum d.1
  | option _, none => .null
  | option c, some x => c.toValue x

/-- The element of a value that conforms to the declared type. -/
def ofValue : (c : Carrier) → Value → Except AccessError c.Elem
  | bool, .bool b => .ok b
  | char, .char c => .ok c
  | int k, .int k' n =>
    if h : k' = k then .ok (h ▸ n) else .error (.mismatch (.int k) (.int k' n))
  | float k, .float k' w =>
    if h : k' = k then .ok (h ▸ w) else .error (.mismatch (.float k) (.float k' w))
  | string, .str s => .ok s
  | enum e, .enum d =>
    if h : e.contains d = true then .ok ⟨d, h⟩
    else .error (.unknownVariant e.name (toString d.1))
  | option _, .null => .ok none
  | option c, v => (c.ofValue v).map some
  | c, v => .error (.mismatch c.valueType v)

/-- The element whose value is the default of the declared type, where there is one. -/
def initial? (c : Carrier) : Option c.Elem := (c.ofValue c.valueType.default).toOption

end Carrier

end Crosswalk
