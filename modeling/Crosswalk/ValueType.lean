import Crosswalk.Scalar
import Crosswalk.Fingerprint

/-!
# Value types

The declared type of a member. A nullable type adds the absent value to another type;
`ValueType.nullable` does not nest it, though types that nest can be written down.
-/

namespace Crosswalk

/-- The number that stands for a variant of an enumeration. -/
abbrev Discriminant : Type := IntKind.i64.Elem

/-- An enumeration: its name and its variants in order, each with its discriminant. -/
structure EnumType where
  name : String
  variants : List (String × Discriminant)
  deriving DecidableEq

namespace EnumType

variable (e : EnumType)

/-- Some variant has the discriminant. -/
def contains (d : Discriminant) : Bool := e.variants.any fun v => v.2 == d

/-- The discriminant of the zero value: zero where some variant has it, and otherwise that
of the first variant. -/
def zero : Discriminant :=
  if e.contains (IntKind.zero .i64) then IntKind.zero .i64
  else match e.variants with
    | [] => IntKind.zero .i64
    | v :: _ => v.2

/-- The discriminant of the first variant with the name. -/
def parse? (name : String) : Option Discriminant :=
  (e.variants.find? fun v => v.1 == name).map Prod.snd

/-- The name of the first variant with the discriminant. -/
def nameOf? (d : Discriminant) : Option String :=
  (e.variants.find? fun v => v.2 == d).map Prod.fst

theorem contains_iff {d : Discriminant} : e.contains d = true ↔ ∃ v ∈ e.variants, v.2 = d := by
  simp only [contains, List.any_eq_true, beq_iff_eq]

theorem contains_of_parse? {name : String} {d : Discriminant} (h : e.parse? name = some d) :
    e.contains d = true := by
  obtain ⟨v, hv, rfl⟩ := Option.map_eq_some_iff.mp h
  exact e.contains_iff.mpr ⟨v, List.mem_of_find?_eq_some hv, rfl⟩

/-- An enumeration with variants has its first one for its default. -/
theorem contains_zero (h : e.variants ≠ []) : e.contains e.zero = true := by
  unfold zero
  split
  · assumption
  · split
    · contradiction
    · next v vs hvs => exact e.contains_iff.mpr ⟨v, by simp [hvs], rfl⟩

/-- What tells enumerations apart. -/
def fingerprint : List Token :=
  .text e.name :: .count e.variants.length ::
    e.variants.flatMap fun v => [.text v.1, .int v.2.1]

end EnumType

/-- The declared type of a member. -/
inductive ValueType where
  | bool
  | char
  | int (k : IntKind)
  | float (k : FloatKind)
  | string
  | enum (e : EnumType)
  | nullable (t : ValueType)
  deriving DecidableEq

namespace ValueType

/-- The type with the absent value added, once. -/
def orNull : ValueType → ValueType
  | nullable t => nullable t
  | t => nullable t

/-- The type has the absent value. -/
def isNullable : ValueType → Bool
  | nullable _ => true
  | _ => false

/-- The type without its absent value. -/
def underlying : ValueType → ValueType
  | nullable t => t
  | t => t

/-- The type is of integers. -/
def isIntegral : ValueType → Bool
  | int _ => true
  | _ => false

/-- The type is of floating-point numbers. -/
def isFloating : ValueType → Bool
  | float _ => true
  | _ => false

/-- The type is of numbers. -/
def isNumeric (t : ValueType) : Bool := t.isIntegral || t.isFloating

/-- The name in diagnostics. -/
def display : ValueType → String
  | bool => "bool"
  | char => "char"
  | int k => k.name
  | float k => k.name
  | string => "string"
  | enum e => e.name
  | nullable t => "Option<" ++ t.display ++ ">"

/-- What tells types apart. -/
def fingerprint : ValueType → List Token
  | bool => [.tag 0]
  | char => [.tag 1]
  | int k => [.tag 2, .text k.name]
  | float k => [.tag 3, .text k.name]
  | string => [.tag 4]
  | enum e => .tag 5 :: e.fingerprint
  | nullable t => .tag 6 :: t.fingerprint

end ValueType

end Crosswalk
