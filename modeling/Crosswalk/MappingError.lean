import Crosswalk.AccessError

/-!
# Mapping failures

Why a configuration has no mapping, or a mapping could not be carried out.
-/

namespace Crosswalk

/-- One side of a pair in diagnostics. -/
structure Endpoint where
  owner : String
  member : String
  type : ValueType
  deriving DecidableEq

/-- A failed configuration or mapping. -/
inductive MappingError where
  /-- Two members of one owner have the same name under the comparer. -/
  | ambiguousMember (owner first second normalized : String)
  /-- A target member that must have a counterpart has none. -/
  | unmappedTarget (owner member : String)
  /-- A source member that must be used is not. -/
  | unmappedSource (owner member : String)
  /-- No conversion leads from the one member to the other. -/
  | incompatible (source target : Endpoint)
  /-- The nullable behaviour forbids the pair. -/
  | nullableCoercion (owner member : String) (sourceType : ValueType)
  /-- The owner has no member with the name. -/
  | memberNotFound (owner member : String)
  /-- A function got another number of arguments than it has parameters. -/
  | arityMismatch (function : String) (expected actual : Nat)
  /-- An argument of a mapping was absent. -/
  | argumentNull (argument : String)
  /-- The value for a target member could not be read, converted or written. -/
  | transform (owner member : String) (cause : AccessError)
  /-- A member lacks an ability that its place in the mapping needs. -/
  | access (cause : AccessError)
  deriving DecidableEq

namespace MappingError

/-- The kind of failure in one word. -/
def kind : MappingError → String
  | ambiguousMember .. => "AmbiguousMember"
  | unmappedTarget .. => "UnmappedTargetMember"
  | unmappedSource .. => "UnmappedSourceMember"
  | incompatible .. => "IncompatibleMemberTypes"
  | nullableCoercion .. => "NullableCoercion"
  | memberNotFound .. => "MemberNotFound"
  | arityMismatch .. => "ArityMismatch"
  | argumentNull .. => "ArgumentNull"
  | transform .. => "Transform"
  | access .. => "Model"

/-- The failed access behind the failure. -/
def cause? : MappingError → Option AccessError
  | transform _ _ cause => some cause
  | access cause => some cause
  | _ => none

/-- The text shown to the caller. -/
def message : MappingError → String
  | ambiguousMember owner first second normalized =>
    "members '" ++ first ++ "' and '" ++ second ++ "' of " ++ owner ++ " both match name '" ++
      normalized ++ "'"
  | unmappedTarget owner member =>
    "target member '" ++ member ++ "' of " ++ owner ++ " is not mapped"
  | unmappedSource owner member =>
    "source member '" ++ member ++ "' of " ++ owner ++ " is not mapped"
  | incompatible s t =>
    "cannot map " ++ s.owner ++ "." ++ s.member ++ " (" ++ s.type.display ++ ") to " ++
      t.owner ++ "." ++ t.member ++ " (" ++ t.type.display ++ ")"
  | nullableCoercion owner member t =>
    "nullable target member '" ++ member ++ "' of " ++ owner ++
      " cannot receive non-nullable " ++ t.display
  | memberNotFound owner member => owner ++ " has no member named '" ++ member ++ "'"
  | arityMismatch f expected actual =>
    "function '" ++ f ++ "' takes " ++ toString expected ++ " arguments, got " ++ toString actual
  | argumentNull a => "argument '" ++ a ++ "' must not be absent"
  | transform owner member cause =>
    "failed to map target member '" ++ member ++ "' of " ++ owner ++ ": " ++ cause.message
  | access cause => cause.message

/-- The member the failure is about. -/
def member? : MappingError → Option String
  | ambiguousMember _ _ second _ => some second
  | unmappedTarget _ m => some m
  | unmappedSource _ m => some m
  | incompatible _ t => some t.member
  | nullableCoercion _ m _ => some m
  | memberNotFound _ m => some m
  | transform _ m _ => some m
  | access (.unsupported _ m _) => some m
  | access _ => none
  | arityMismatch .. => none
  | argumentNull _ => none

/-- The failure arose before anything was mapped. -/
def isConfigurationError : MappingError → Bool
  | argumentNull _ => false
  | transform .. => false
  | _ => true

end MappingError

end Crosswalk
