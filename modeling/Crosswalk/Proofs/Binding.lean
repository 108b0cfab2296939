import Crosswalk.Proofs.NamedMembers
import Crosswalk.Proofs.Results

/-!
# Bound expressions

`Expr.Binds` says which bound expression stands for an expression by name: each member is
the one that the name leads to, and each argument has a plan into the type of its parameter.
Whatever `Expr.bind` gives is bound in this sense (`Expr.binds_of_bind`), so what a bound
expression reads was looked up (`Expr.Binds.exists_name`), and a resolved binding reads
source members only (`Configuration.mem_of_resolveBinding`).
-/

namespace Crosswalk

variable {σ τ : Type} {lookup : String → Except MappingError (Member σ)} {sourceType : String}

namespace Expr

mutual

/-- The bound expression of an expression, with the members that `lookup` gives. -/
inductive Binds (lookup : String → Except MappingError (Member σ)) :
    Expr → SourceExpr σ → Prop
  | member {name m} (h : lookup name = .ok m) : Binds lookup (.member name) (.member m)
  | const (v : Value) (t : ValueType) : Binds lookup (.const v t) (.const v t)
  | call {f args bound} (h : BindsArgs lookup args f.params bound) :
      Binds lookup (.call f args) (.call f bound)

/-- Each argument with a plan into the type of its parameter. -/
inductive BindsArgs (lookup : String → Except MappingError (Member σ)) :
    List Expr → List ValueType → SourceArgs σ → Prop
  | nil : BindsArgs lookup [] [] .nil
  | cons {e arg t plan es ts rest} (h : Binds lookup e arg)
      (hplan : Coercion.resolve arg.valueType t .assignDefaultAsIs = .ok plan)
      (hrest : BindsArgs lookup es ts rest) :
      BindsArgs lookup (e :: es) (t :: ts) (.cons arg plan rest)

end

mutual

/-- A bound expression is made of the expression by looking up its names. -/
theorem binds_of_bind : ∀ {e : Expr} {bound : SourceExpr σ},
    e.bind sourceType lookup = .ok bound → Binds lookup e bound
  | .member name, bound, h => by
    obtain ⟨m, hm, rfl⟩ := Except.map_eq_ok_iff.mp h
    exact .member hm
  | .const v t, bound, h => by
    cases h
    exact .const v t
  | .call f args, bound, h => by
    unfold bind at h
    split at h
    · next hlength =>
      obtain ⟨bound', hargs, rfl⟩ := Except.map_eq_ok_iff.mp h
      exact .call (bindsArgs_of_bindArgs hlength hargs)
    · cases h

theorem bindsArgs_of_bindArgs : ∀ {es : List Expr} {ts : List ValueType} {bound : SourceArgs σ}
    {function : String} {i : Nat}, es.length = ts.length →
      bindArgs sourceType lookup function i es ts = .ok bound → BindsArgs lookup es ts bound
  | [], [], _, _, _, _, h => by
    unfold bindArgs at h
    cases h
    exact .nil
  | [], _ :: _, _, _, _, hlength, _ | _ :: _, [], _, _, _, hlength, _ => nomatch hlength
  | e :: es, t :: ts, bound, function, i, hlength, h => by
    unfold bindArgs at h
    obtain ⟨arg, harg, h⟩ := Except.bind_eq_ok_iff.mp h
    split at h
    · next plan hplan =>
      obtain ⟨rest, hrest, rfl⟩ := Except.map_eq_ok_iff.mp h
      exact .cons (binds_of_bind harg) hplan (bindsArgs_of_bindArgs (Nat.succ.inj hlength) hrest)
    · cases h

end

mutual

/-- A member read was looked up under some name. -/
theorem Binds.exists_name {e : Expr} {bound : SourceExpr σ} (h : Binds lookup e bound)
    {m : Member σ} (hm : m ∈ bound.members) : ∃ name, lookup name = .ok m := by
  cases h with
  | member h =>
    rw [SourceExpr.members, List.mem_singleton] at hm
    exact ⟨_, hm ▸ h⟩
  | const v t => cases hm
  | call h => exact BindsArgs.exists_name h hm

theorem BindsArgs.exists_name {es : List Expr} {ts : List ValueType} {bound : SourceArgs σ}
    (h : BindsArgs lookup es ts bound) {m : Member σ} (hm : m ∈ bound.members) :
    ∃ name, lookup name = .ok m := by
  cases h with
  | nil => cases hm
  | cons h _ hrest =>
    rcases List.mem_append.mp hm with hm | hm
    · exact Binds.exists_name h hm
    · exact BindsArgs.exists_name hrest hm

end

end Expr

namespace Configuration

variable {c : Configuration σ τ}

/-- What a name leads to is a listed member. -/
theorem mem_of_findSource {name : String} {m : Member σ} (h : c.findSource name = .ok m) :
    m ∈ c.sourceMembers := by
  obtain ⟨p, hp, rfl⟩ := Except.map_eq_ok_iff.mp h
  exact List.mem_of_getElem? (mem_positioned.mp (findMember_eq_ok hp).1)

/-- What an override is known to read is a source member. -/
theorem mem_of_resolveBinding {b : Binding σ} {source : Computation σ}
    (h : c.resolveBinding b = .ok source) {m : Member σ} (hm : m ∈ source.reads) :
    m ∈ c.sourceMembers := by
  cases b with
  | member name =>
    obtain ⟨m', hm', rfl⟩ := Except.map_eq_ok_iff.mp h
    rw [Computation.reads, List.mem_singleton] at hm
    exact hm ▸ mem_of_findSource hm'
  | expression e =>
    obtain ⟨bound, hbound, rfl⟩ := Except.map_eq_ok_iff.mp h
    obtain ⟨name, hname⟩ := (Expr.binds_of_bind hbound).exists_name hm
    exact mem_of_findSource hname
  | delegate d =>
    cases h
    cases hm

end Configuration

end Crosswalk
