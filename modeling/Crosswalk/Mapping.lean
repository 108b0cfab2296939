import Crosswalk.Expr

/-!
# Mappings

A mapping pairs a computation over the source with a target member, and holds the plan that
leads from the one to the other. `Mapping.make` is the only check: the target is writable,
what is read is readable, and there is a plan. Mappings are the same (`==`) when their
parts are, which does not depend on how a configuration came to them.
-/

namespace Crosswalk

/-- A computation over the source that is known by its identity alone. -/
structure Delegate (σ : Type) where
  identity : Nat
  output : ValueType
  compute : σ → Except AccessError Value

namespace Delegate

variable {σ : Type}

/-- A computation of elements of a carrier. -/
def typed (identity : Nat) (c : Carrier) (compute : σ → c.Elem) : Delegate σ :=
  ⟨identity, c.valueType, fun s => .ok (c.toValue (compute s))⟩

instance : BEq (Delegate σ) where
  beq a b := a.output == b.output && a.identity == b.identity

/-- What tells computations apart. -/
def fingerprint (d : Delegate σ) : List Token :=
  d.output.fingerprint ++ [.identity d.identity]

end Delegate

/-- The source side of an override, with its members named. -/
inductive Binding (σ : Type) where
  | member (name : String)
  | expression (e : Expr)
  | delegate (d : Delegate σ)

/-- The names of the members that the binding is known to read. -/
def Binding.reads {σ : Type} : Binding σ → List String
  | member name => [name]
  | expression e => e.reads
  | delegate _ => []

/-- The source side of a mapping. -/
inductive Computation (σ : Type) where
  | member (m : Member σ)
  | expression (e : SourceExpr σ)
  | delegate (d : Delegate σ)

namespace Computation

variable {σ : Type}

/-- The declared type of what the computation gives. -/
def valueType : Computation σ → ValueType
  | member m => m.type
  | expression e => e.valueType
  | delegate d => d.output

/-- The members that the computation is known to read. -/
def reads : Computation σ → List (Member σ)
  | member m => [m]
  | expression e => e.members
  | delegate _ => []

/-- The value of the computation on a source. -/
def eval (s : σ) : Computation σ → Except AccessError Value
  | member m => m.read s
  | expression e => e.eval s
  | delegate d => d.compute s

instance : BEq (Computation σ) where
  beq
    | member a, member b => a == b
    | expression a, expression b => a.same b
    | delegate a, delegate b => a == b
    | _, _ => false

/-- What tells computations apart: the kind first, so that kinds are not mixed up. -/
def fingerprint : Computation σ → List Token
  | member m => .tag 0 :: m.fingerprint
  | expression e => .tag 1 :: e.fingerprint
  | delegate d => .tag 2 :: d.fingerprint

/-- The computation in diagnostics. -/
def display : Computation σ → String
  | member m => m.display
  | expression e => e.display
  | delegate d => "<delegate " ++ d.output.display ++ ">"

/-- The computation as the source side of a pair. -/
def endpoint (sourceType : String) : Computation σ → Endpoint
  | member m => ⟨m.shortOwner, m.name, m.type⟩
  | c => ⟨Text.shortTypeName sourceType, c.display, c.valueType⟩

end Computation

/-- A computation, the target member it fills, and the plan between them. -/
structure Mapping (σ τ : Type) where
  source : Computation σ
  target : Member τ
  plan : Coercion

namespace Mapping

variable {σ τ : Type}

/-- The mapping of a computation to a target member. -/
def make (sourceType : String) (source : Computation σ) (target : Member τ)
    (behavior : NullableBehavior) : Except MappingError (Mapping σ τ) :=
  if !target.canWrite then .error (.access (target.unsupported .write))
  else match source.reads.find? fun m => !m.canRead with
    | some m => .error (.access (m.unsupported .read))
    | none =>
      match Coercion.resolve source.valueType target.type behavior with
      | .ok plan => .ok ⟨source, target, plan⟩
      | .error .incompatible =>
        .error (.incompatible (source.endpoint sourceType)
          ⟨target.shortOwner, target.name, target.type⟩)
      | .error .nullableDisallowed =>
        .error (.nullableCoercion target.shortOwner target.name source.valueType)

instance : BEq (Mapping σ τ) where
  beq a b := a.target == b.target && a.source == b.source && a.plan == b.plan

/-- What tells mappings apart. -/
def fingerprint (m : Mapping σ τ) : List Token :=
  m.target.fingerprint ++ m.source.fingerprint ++ m.plan.fingerprint

/-- What tells lists of mappings apart. -/
def fingerprints (ms : List (Mapping σ τ)) : List Token :=
  .count ms.length :: ms.flatMap fingerprint

/-- The value for the target member: the plan is run on what the computation gives, unless it is
the identity. -/
def produce (m : Mapping σ τ) (s : σ) : Except AccessError Value :=
  if m.plan.isIdentity then m.source.eval s
  else (m.source.eval s).bind m.plan.apply

/-- To leave out the identity makes no difference, neither to a value nor to a failure. -/
theorem produce_eq_bind (m : Mapping σ τ) (s : σ) :
    m.produce s = (m.source.eval s).bind m.plan.apply := by
  rw [produce]
  split
  · next hplan =>
    rw [Coercion.isIdentity_iff.mp hplan]
    cases m.source.eval s <;> rfl
  · rfl

/-- The mapping in diagnostics. -/
def display (m : Mapping σ τ) : String :=
  m.source.display ++ " -> " ++ m.target.display ++
    (if m.plan.isIdentity then "" else " [" ++ m.plan.display ++ "]")

end Mapping

end Crosswalk
