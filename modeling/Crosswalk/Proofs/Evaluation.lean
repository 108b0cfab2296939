import Crosswalk.Proofs.Binding
import Crosswalk.Proofs.CoercionSoundness
import Crosswalk.Proofs.Providers
import Mathlib.Data.List.Forall2

/-!
# Evaluation of expressions

A well-typed expression (`Expr.WellTyped`) has constants of their types and functions that
take every list of conforming arguments to a conforming result. Bound over members that read
as values of their types, or fail on data, it evaluates to a value of its type or fails on
data (`Expr.Binds.gives_eval`). Expressions built from typed functions are well typed
(`Expr.Built.wellTyped`).
-/

namespace Crosswalk

variable {σ : Type}

/-! ## Failures of data -/

/-- Data without a counterpart, or a stored value of some member that is not of its type. -/
inductive DataFault (ms : List (Member σ)) (s : σ) : AccessError → Prop
  | conversion (v : String) (t : ValueType) : DataFault ms s (.conversion v t)
  | unknownVariant (enumName v : String) : DataFault ms s (.unknownVariant enumName v)
  | misstored {m e} (hm : m ∈ ms) (h : m.Misstored s e) : DataFault ms s e

/-- A result that is a value of the type, or fails on data. -/
abbrev GivesType (ms : List (Member σ)) (s : σ) (t : ValueType) : Except AccessError Value → Prop :=
  Except.Gives (fun v => v.conforms t = true) (DataFault ms s)

variable {ms : List (Member σ)} {s : σ} {t u : ValueType} {x : Except AccessError Value}

/-- No member is ever missing an ability. -/
theorem DataFault.ne_unsupported {e : AccessError} (he : DataFault ms s e) (owner member : String)
    (op : Operation) : e ≠ .unsupported owner member op := by
  cases he with
  | conversion | unknownVariant => exact AccessError.noConfusion
  | misstored _ he => cases he <;> exact AccessError.noConfusion

theorem Coercion.Outcome.givesType {p : Coercion} (h : p.Outcome t x) : GivesType ms s t x := by
  cases h with
  | value hw => exact hw
  | conversion _ v u => exact .conversion v u
  | unknownVariant _ enumName v => exact .unknownVariant enumName v

/-- A plan that leads from the type adds failures on data only. -/
theorem GivesType.coerce {p : Coercion} (h : GivesType ms s t x) (hp : p.Leads t u)
    (hu : u.HasVariants) : GivesType ms s u (x.bind p.apply) :=
  Except.Gives.bind h fun _ hv => (hp.outcome hu hv).givesType

/-- Reading a member of a provider gives a value of its type, or fails on what is stored. -/
theorem Member.Provided.givesType {m : Member σ} (h : m.Provided) (s : σ) (hm : m ∈ ms) :
    GivesType ms s m.type (m.read s) :=
  (h.read s).mono (fun _ hv => hv) fun _ he => .misstored hm he

/-! ## Well-typed expressions -/

/-- The values conform to the types, one by one. -/
abbrev ConformAll (vs : List Value) (ts : List ValueType) : Prop :=
  List.Forall₂ (fun v t => v.conforms t = true) vs ts

/-- Conforming arguments have a conforming result. -/
def Function.Typed (f : Function) : Prop :=
  ∀ vs, ConformAll vs f.params → ∃ w, f.body vs = .ok w ∧ w.conforms f.output = true

namespace Expr

/-- The constants and the functions keep to their types. -/
inductive WellTyped : Expr → Prop
  | member (name : String) : WellTyped (.member name)
  | const {v t} (h : v.conforms t = true) : WellTyped (.const v t)
  | call {f args} (hf : f.Typed) (hparams : ∀ t ∈ f.params, t.HasVariants)
      (hargs : ∀ e ∈ args, WellTyped e) : WellTyped (.call f args)

variable {lookup : String → Except MappingError (Member σ)}

mutual

/-- A well-typed expression gives a value of its type, or fails on data. -/
theorem Binds.gives_eval {e : Expr} {bound : SourceExpr σ} (h : Binds lookup e bound)
    (hw : e.WellTyped) (hread : ∀ m ∈ bound.members, GivesType ms s m.type (m.read s)) :
    GivesType ms s bound.valueType (bound.eval s) := by
  cases h with
  | member h => exact hread _ (List.mem_singleton.mpr rfl)
  | const v t =>
    cases hw with
    | const hv => exact hv
  | call h =>
    cases hw with
    | call hf hparams hargs =>
      refine Except.Gives.bind (BindsArgs.gives_eval h hargs hparams hread) fun vs hvs => ?_
      obtain ⟨w, hw, hconforms⟩ := hf vs hvs
      rw [hw]
      exact hconforms

/-- Bound arguments give a conforming value each, one for each parameter, or the failure of one. -/
theorem BindsArgs.gives_eval {es : List Expr} {ts : List ValueType} {bound : SourceArgs σ}
    (h : BindsArgs lookup es ts bound) (hw : ∀ e ∈ es, e.WellTyped)
    (hts : ∀ t ∈ ts, t.HasVariants)
    (hread : ∀ m ∈ bound.members, GivesType ms s m.type (m.read s)) :
    Except.Gives (ConformAll · ts) (DataFault ms s) (bound.eval s) := by
  cases h with
  | nil => exact List.Forall₂.nil
  | cons h hplan hrest =>
    obtain ⟨he, hes⟩ := List.forall_mem_cons.mp hw
    obtain ⟨ht, hts⟩ := List.forall_mem_cons.mp hts
    obtain ⟨hhead, htail⟩ := List.forall_mem_append.mp hread
    have hfirst := (Binds.gives_eval h he hhead).coerce (Coercion.leads_of_resolve hplan) ht
    refine Except.Gives.bind hfirst fun v hv => ?_
    exact (BindsArgs.gives_eval hrest hes hts htail).map fun vs hvs => List.Forall₂.cons hv hvs

end

end Expr

/-! ## Typed functions -/

namespace Function

/-- A function takes an argument of the type of its parameter. -/
theorem exists_takeArg {c : Carrier} {v : Value} (hv : v.conforms c.valueType = true)
    (vs : List Value) : ∃ x, takeArg c (v :: vs) = .ok (x, vs) := by
  obtain ⟨x, hx⟩ := Carrier.exists_ofValue hv
  exact ⟨x, by rw [takeArg, hx, Except.map]⟩

theorem typed_unary (identity : Nat) (name : String) {a r : Carrier} (f : a.Elem → r.Elem) :
    (unary identity name a r f).Typed := by
  intro vs hvs
  obtain ⟨v, rest, hv, hrest, rfl⟩ := List.forall₂_cons_right_iff.mp hvs
  obtain rfl := List.forall₂_nil_right_iff.mp hrest
  obtain ⟨x, hx⟩ := exists_takeArg hv []
  refine ⟨r.toValue (f x), ?_, Carrier.conforms_toValue _ _⟩
  simp only [unary, hx, bind, Except.bind, pure, Except.pure]

theorem typed_binary (identity : Nat) (name : String) {a b r : Carrier}
    (f : a.Elem → b.Elem → r.Elem) : (binary identity name a b r f).Typed := by
  intro vs hvs
  obtain ⟨v, rest, hv, hrest, rfl⟩ := List.forall₂_cons_right_iff.mp hvs
  obtain ⟨w, rest', hw, hrest', rfl⟩ := List.forall₂_cons_right_iff.mp hrest
  obtain rfl := List.forall₂_nil_right_iff.mp hrest'
  obtain ⟨x, hx⟩ := exists_takeArg hv [w]
  obtain ⟨y, hy⟩ := exists_takeArg hw []
  refine ⟨r.toValue (f x y), ?_, Carrier.conforms_toValue _ _⟩
  simp only [binary, hx, hy, bind, Except.bind, pure, Except.pure]

end Function

/-- The expression is built from members, elements and typed functions, with parameters whose
enumerations have variants. -/
inductive Expr.Built : Expr → Prop
  | member (name : String) : Built (.member name)
  | ofElem (c : Carrier) (x : c.Elem) : Built (.ofElem c x)
  | unary {identity name a r f e} (ha : a.valueType.HasVariants) (he : Built e) :
      Built (.call (.unary identity name a r f) [e])
  | binary {identity name a b r f e d} (ha : a.valueType.HasVariants)
      (hb : b.valueType.HasVariants) (he : Built e) (hd : Built d) :
      Built (.call (.binary identity name a b r f) [e, d])

theorem Expr.Built.wellTyped {e : Expr} (h : e.Built) : e.WellTyped := by
  induction h with
  | member name => exact .member name
  | ofElem c x => exact .const (c.conforms_toValue x)
  | unary ha _ ih =>
    refine .call (Function.typed_unary _ _ _) ?_ ?_
    · exact List.forall_mem_singleton.mpr ha
    · exact List.forall_mem_singleton.mpr ih
  | binary ha hb _ _ ihe ihd =>
    refine .call (Function.typed_binary _ _ _) ?_ ?_
    · exact List.forall_mem_cons.mpr ⟨ha, List.forall_mem_singleton.mpr hb⟩
    · exact List.forall_mem_cons.mpr ⟨ihe, List.forall_mem_singleton.mpr ihd⟩

end Crosswalk
