import Crosswalk.Coercion
import Crosswalk.Member
import Crosswalk.MappingError

/-!
# Expressions

An expression computes a value from source members, constants and functions. `Expr` names
the members; `Expr.bind` looks them up and checks every argument against its parameter,
which gives a `SourceExpr`. Evaluation coerces each argument into the type of its parameter
and stops at the first failure, from left to right.
-/

namespace Crosswalk

/-- A function of values with declared parameter and output types. Functions are told apart
by their identities. -/
structure Function where
  identity : Nat
  name : String
  params : List ValueType
  output : ValueType
  body : List Value → Except AccessError Value

namespace Function

/-- The element that the next argument stands for; a missing one is absent. -/
def takeArg (c : Carrier) : List Value → Except AccessError (c.Elem × List Value)
  | [] => (c.ofValue .null).map (·, [])
  | v :: vs => (c.ofValue v).map (·, vs)

/-- A function of one element. -/
def unary (identity : Nat) (name : String) (a r : Carrier) (f : a.Elem → r.Elem) : Function where
  identity := identity
  name := name
  params := [a.valueType]
  output := r.valueType
  body args := do
    let (x, _) ← takeArg a args
    return r.toValue (f x)

/-- A function of two elements. -/
def binary (identity : Nat) (name : String) (a b r : Carrier)
    (f : a.Elem → b.Elem → r.Elem) : Function where
  identity := identity
  name := name
  params := [a.valueType, b.valueType]
  output := r.valueType
  body args := do
    let (x, rest) ← takeArg a args
    let (y, _) ← takeArg b rest
    return r.toValue (f x y)

end Function

/-! ## Expressions by name -/

/-- An expression over the names of source members. -/
inductive Expr where
  | member (name : String)
  /-- A constant of the given type. -/
  | const (v : Value) (t : ValueType)
  | call (f : Function) (args : List Expr)

namespace Expr

/-- The constant of an element. -/
def ofElem (c : Carrier) (x : c.Elem) : Expr := const (c.toValue x) c.valueType

mutual

/-- The names read after those of `names`, each where it is first read. -/
def collectReads : Expr → List String → List String
  | member name, names => if names.contains name then names else names ++ [name]
  | const _ _, names => names
  | call _ args, names => collectReadsAll args names

/-- The names read by expressions from left to right after those of `names`. -/
def collectReadsAll : List Expr → List String → List String
  | [], names => names
  | e :: es, names => collectReadsAll es (collectReads e names)

end

/-- The names of the members read, each once, in the order of their first reading. -/
def reads (e : Expr) : List String := e.collectReads []

end Expr

/-! ## Bound expressions -/

mutual

/-- An expression over the members of a source. -/
inductive SourceExpr (σ : Type) where
  | member (m : Member σ)
  | const (v : Value) (t : ValueType)
  | call (f : Function) (args : SourceArgs σ)

/-- Arguments, each with the plan into the type of its parameter. -/
inductive SourceArgs (σ : Type) where
  | nil
  | cons (arg : SourceExpr σ) (plan : Coercion) (rest : SourceArgs σ)

end

section

variable {σ : Type}

/-- The declared type of the value. -/
def SourceExpr.valueType : SourceExpr σ → ValueType
  | .member m => m.type
  | .const _ t => t
  | .call f _ => f.output

mutual

/-- The members read, from left to right. -/
def SourceExpr.members : SourceExpr σ → List (Member σ)
  | .member m => [m]
  | .const _ _ => []
  | .call _ args => args.members

/-- The members read by arguments, from left to right. -/
def SourceArgs.members : SourceArgs σ → List (Member σ)
  | .nil => []
  | .cons arg _ rest => arg.members ++ rest.members

end

mutual

/-- The value of the expression on a source. -/
def SourceExpr.eval (s : σ) : SourceExpr σ → Except AccessError Value
  | .member m => m.read s
  | .const v _ => .ok v
  | .call f args => (args.eval s).bind f.body

/-- The coerced values of the arguments on a source. -/
def SourceArgs.eval (s : σ) : SourceArgs σ → Except AccessError (List Value)
  | .nil => .ok []
  | .cons arg plan rest =>
    ((arg.eval s).bind plan.apply).bind fun v => (rest.eval s).map fun vs => v :: vs

end

mutual

/-- The expressions are the same: equal members, identical constants of equal types, or the
same function on the same arguments. -/
def SourceExpr.same : SourceExpr σ → SourceExpr σ → Bool
  | .member a, .member b => a == b
  | .const v t, .const w u => t == u && v.identical w
  | .call f xs, .call g ys => f.identity == g.identity && xs.same ys
  | _, _ => false

/-- The arguments and their plans are the same. -/
def SourceArgs.same : SourceArgs σ → SourceArgs σ → Bool
  | .nil, .nil => true
  | .cons x p xs, .cons y q ys => x.same y && p == q && xs.same ys
  | _, _ => false

end

/-- The number of arguments. -/
def SourceArgs.size : SourceArgs σ → Nat
  | .nil => 0
  | .cons _ _ rest => rest.size + 1

mutual

/-- What tells expressions apart. -/
def SourceExpr.fingerprint : SourceExpr σ → List Token
  | .member m => .tag 0 :: m.fingerprint
  | .const v t => .tag 1 :: v.fingerprint ++ t.fingerprint
  | .call f args => .tag 2 :: .identity f.identity :: .count args.size :: args.fingerprint

/-- What tells as many arguments apart. -/
def SourceArgs.fingerprint : SourceArgs σ → List Token
  | .nil => []
  | .cons arg plan rest => arg.fingerprint ++ plan.fingerprint ++ rest.fingerprint

end

mutual

/-- The expression in diagnostics. -/
def SourceExpr.display : SourceExpr σ → String
  | .member m => m.display
  | .const (.str s) _ => Text.quoted s
  | .const v _ => v.display
  | .call f args => f.name ++ "(" ++ ", ".intercalate args.displays ++ ")"

/-- The arguments in diagnostics. -/
def SourceArgs.displays : SourceArgs σ → List String
  | .nil => []
  | .cons arg _ rest => arg.display :: rest.displays

end

/-! ## Binding -/

mutual

/-- The expression with the members that `lookup` finds. A call needs as many arguments as
parameters, and a plan into the type of each; defaults stay present in them. -/
def Expr.bind (sourceType : String) (lookup : String → Except MappingError (Member σ)) :
    Expr → Except MappingError (SourceExpr σ)
  | .member name => (lookup name).map .member
  | .const v t => .ok (.const v t)
  | .call f args =>
    if args.length = f.params.length then
      (bindArgs sourceType lookup f.name 0 args f.params).map (.call f)
    else .error (.arityMismatch f.name f.params.length args.length)

/-- The arguments from position `i` on, with their plans. -/
def Expr.bindArgs (sourceType : String) (lookup : String → Except MappingError (Member σ))
    (function : String) (i : Nat) :
    List Expr → List ValueType → Except MappingError (SourceArgs σ)
  | e :: es, t :: ts =>
    (bind sourceType lookup e).bind fun arg =>
      match Coercion.resolve arg.valueType t .assignDefaultAsIs with
      | .ok plan =>
        (bindArgs sourceType lookup function (i + 1) es ts).map fun rest => .cons arg plan rest
      | .error _ =>
        .error (.incompatible
          ⟨Text.shortTypeName sourceType, arg.display, arg.valueType⟩
          ⟨function, "#" ++ toString i, t⟩)
  | _, _ => .ok .nil

end

end

end Crosswalk
