import Crosswalk.Coercion.Conversion
import Crosswalk.Options

/-!
# Coercion plans

How values of one type enter a member of another. `Coercion.resolve` chooses the plan from
the two types alone; `Coercion.apply` runs it on a value. A plan never looks at types again:
whatever value it is given, each of its steps says what becomes of it.
-/

namespace Crosswalk

/-- Why there is no plan. -/
inductive CoercionFailure where
  /-- No conversion leads from the one type to the other. -/
  | incompatible
  /-- The nullable behaviour forbids the pair. -/
  | nullableDisallowed
  deriving DecidableEq, Repr

/-- A plan. -/
inductive Coercion where
  /-- Values stay as they are. -/
  | identity
  /-- Into a nullable type: the default of `nullIfDefaultOf`, if given, becomes absent. -/
  | wrap (inner : Coercion) (nullIfDefaultOf : Option ValueType)
  /-- Out of a nullable type: the absent value becomes the default of `defaultOf`. -/
  | unwrap (inner : Coercion) (defaultOf : ValueType)
  /-- Between nullable types: the absent value stays absent. -/
  | lift (inner : Coercion)
  /-- The variant with this name; the absent value becomes the zero variant. -/
  | parseEnum (e : EnumType)
  /-- The variant with this number. -/
  | integralToEnum (e : EnumType)
  /-- The name of the variant. -/
  | enumToString (e : EnumType)
  /-- The number of the variant. -/
  | enumToIntegral (t : ValueType)
  /-- The value that stands for this one in a plain type. -/
  | convert (t : ValueType)
  deriving DecidableEq

namespace Coercion

/-! ## Choosing a plan -/

/-- The type is a truth value, a character, a number or a text. -/
def isScalar : ValueType → Bool
  | .bool | .char | .int _ | .float _ | .string => true
  | .enum _ | .nullable _ => false

/-- Scalar conversion leads from the one type to the other: to and from texts always, to and
from characters only with integers, and among the others always. -/
def isConvertible (source target : ValueType) : Bool :=
  isScalar source && isScalar target &&
    match source, target with
    | .string, _ => true
    | _, .string => true
    | .char, t => t.isIntegral
    | s, .char => s.isIntegral
    | _, _ => true

/-- The plan between types without their absent values. -/
def resolvePlain (source target : ValueType) : Except CoercionFailure Coercion :=
  if source = target then .ok identity
  else match source, target with
    | .string, .enum e => .ok (parseEnum e)
    | .int _, .enum e => .ok (integralToEnum e)
    | .enum e, .string => .ok (enumToString e)
    | .enum _, .int k => .ok (enumToIntegral (.int k))
    | s, t => if isConvertible s t then .ok (convert t) else .error .incompatible

/-- The plan for values of `source` in members of `target`. -/
def resolve (source target : ValueType) (behavior : NullableBehavior) :
    Except CoercionFailure Coercion :=
  if source = target then .ok identity
  else match source, target with
    | .nullable s, .nullable t => (resolvePlain s t).map lift
    | .nullable s, t => (resolvePlain s t).map fun inner => unwrap inner t
    | s, .nullable t =>
      match resolvePlain s t, behavior with
      | .error failure, _ => .error failure
      | .ok inner, .defaultMapsToNull => .ok (wrap inner (some s))
      | .ok inner, .assignDefaultAsIs => .ok (wrap inner none)
      | .ok _, .error => .error .nullableDisallowed
    | s, t => resolvePlain s t

/-- The plan leaves every value as it is, without looking at it. -/
def isIdentity : Coercion → Bool
  | identity => true
  | _ => false

theorem isIdentity_iff {p : Coercion} : p.isIdentity = true ↔ p = identity := by
  cases p <;> simp [isIdentity]

/-! ## Running a plan -/

/-- What an optional result is, with the error for its absence, which is made only then. -/
@[macro_inline] def orElse (v : Option Value) (e : AccessError) : Except AccessError Value :=
  match v with
  | some w => .ok w
  | none => .error e

/-- The variant that a name stands for. -/
def applyParse (e : EnumType) : Value → Except AccessError Value
  | .null => .ok (.enum e.zero)
  | .str s => orElse ((e.parse? s).map .enum) (.unknownVariant e.name s)
  | v => .error (.mismatch .string v)

/-- The variant that a number stands for. -/
def applyVariant (e : EnumType) (v : Value) : Except AccessError Value :=
  orElse (((v.integral?.bind (IntKind.ofInt? .i64)).filter e.contains).map .enum)
    (.unknownVariant e.name v.display)

/-- The name of a variant. -/
def applyName (e : EnumType) : Value → Except AccessError Value
  | .enum d => orElse ((e.nameOf? d).map .str) (.unknownVariant e.name (toString d.1))
  | v => .error (.mismatch (.enum e) v)

/-- The value that stands for this one. -/
def applyConvert (t : ValueType) (v : Value) : Except AccessError Value :=
  orElse (v.convert? t) (.unconvertible v t)

/-- The number of a variant. -/
def applyDiscriminant (t : ValueType) : Value → Except AccessError Value
  | .enum d => applyConvert t (.int .i64 d)
  | v => .error (.unconvertible v t)

/-- The result of the plan on a value. -/
def apply : Coercion → Value → Except AccessError Value
  | identity, v => .ok v
  | wrap inner none, v => inner.apply v
  | wrap inner (some t), v => if v.sameNumber t.default then .ok .null else inner.apply v
  | unwrap _ t, .null => .ok t.default
  | unwrap inner _, v => inner.apply v
  | lift _, .null => .ok .null
  | lift inner, v => inner.apply v
  | parseEnum e, v => applyParse e v
  | integralToEnum e, v => applyVariant e v
  | enumToString e, v => applyName e v
  | enumToIntegral t, v => applyDiscriminant t v
  | convert t, v => applyConvert t v

/-! ## Showing a plan -/

/-- The plan in diagnostics. -/
def display : Coercion → String
  | identity => "identity"
  | wrap inner _ => "wrap(" ++ inner.display ++ ")"
  | unwrap inner _ => "unwrap(" ++ inner.display ++ ")"
  | lift inner => "lift(" ++ inner.display ++ ")"
  | parseEnum e => "parse " ++ e.name
  | integralToEnum e => "as " ++ e.name
  | enumToString _ => "variant name"
  | enumToIntegral t => "discriminant as " ++ t.display
  | convert t => "convert to " ++ t.display

/-- What tells plans apart. -/
def fingerprint : Coercion → List Token
  | identity => [.tag 0]
  | wrap inner none => .tag 1 :: inner.fingerprint ++ [.tag 0]
  | wrap inner (some t) => .tag 1 :: inner.fingerprint ++ .tag 1 :: t.fingerprint
  | unwrap inner t => .tag 2 :: inner.fingerprint ++ t.fingerprint
  | lift inner => .tag 3 :: inner.fingerprint
  | parseEnum e => .tag 4 :: e.fingerprint
  | integralToEnum e => .tag 5 :: e.fingerprint
  | enumToString e => .tag 6 :: e.fingerprint
  | enumToIntegral t => .tag 7 :: t.fingerprint
  | convert t => .tag 8 :: t.fingerprint

end Coercion

end Crosswalk
