import Crosswalk.Value

/-!
# Failures of access and conversion

Why a member could not be read or written, or a value not converted.
-/

namespace Crosswalk

/-- What was to be done with a member. -/
inductive Operation where
  | read
  | write
  deriving DecidableEq, Repr

/-- The operation in words. -/
def Operation.name : Operation → String
  | read => "read"
  | write => "write"

/-- A failed access or conversion. Values and types are given as diagnostics show them. -/
inductive AccessError where
  /-- The member cannot be read, or cannot be written. -/
  | unsupported (owner member : String) (operation : Operation)
  /-- The value does not conform to the type that a member or parameter declares. -/
  | typeMismatch (expected : ValueType) (actual : String)
  /-- No variant of the enumeration has the name or the discriminant. -/
  | unknownVariant (enumName value : String)
  /-- The value has no counterpart in the type. -/
  | conversion (value : String) (target : ValueType)
  /-- A row has another number of cells than its schema has columns. -/
  | cellCount (row : String) (expected actual : Nat)
  deriving DecidableEq

namespace AccessError

/-- The value does not conform to the type. -/
def mismatch (expected : ValueType) (v : Value) : AccessError :=
  typeMismatch expected v.describe

/-- The value has no counterpart in the type. -/
def unconvertible (v : Value) (target : ValueType) : AccessError :=
  conversion v.describe target

/-- The kind of failure in one word. -/
def kind : AccessError → String
  | unsupported .. => "UnsupportedOperation"
  | typeMismatch .. => "TypeMismatch"
  | unknownVariant .. => "UnknownVariant"
  | conversion .. => "Conversion"
  | cellCount .. => "CellCount"

/-- The text shown to the caller. -/
def message : AccessError → String
  | unsupported owner member op =>
    "member '" ++ member ++ "' of " ++ owner ++ " does not support " ++ op.name
  | typeMismatch expected actual =>
    "expected a value of type " ++ expected.display ++ ", got " ++ actual
  | unknownVariant enumName value =>
    "'" ++ value ++ "' is not a variant of enum " ++ enumName
  | conversion value target => "cannot convert " ++ value ++ " to " ++ target.display
  | cellCount row expected actual =>
    "row " ++ row ++ " declares " ++ toString expected ++ " columns, got " ++
      toString actual ++ " cells"

end AccessError

end Crosswalk
