import Crosswalk.Proofs.CoercionChoice
import Crosswalk.Proofs.Conformance

/-!
# Soundness of coercion plans

`Coercion.Leads` says which plans lead from one type to another, one rule for each way a
plan is built; every plan that `Coercion.resolve` chooses leads from its source to its
target (`Coercion.leads_of_resolve`). A plan that leads to a type gives, on every value of
its source, a value of that type or says that the data has no counterpart there
(`Coercion.Leads.outcome`): a mismatch of types never comes up. Which of the two failures
can come up is read off the step under the nullable layers (`Coercion.core`).
-/

namespace Crosswalk

namespace Coercion

/-! ## The step under the nullable layers -/

/-- The plan without its nullable layers. -/
def core : Coercion → Coercion
  | wrap inner _ => inner.core
  | unwrap inner _ => inner.core
  | lift inner => inner.core
  | p => p

/-- The plan contains a scalar conversion or takes the number of a variant. -/
def converts (p : Coercion) : Bool :=
  match p.core with
  | convert _ | enumToIntegral _ => true
  | _ => false

/-- The plan contains a search for a variant by name or number. -/
def seeksVariant (p : Coercion) : Bool :=
  match p.core with
  | parseEnum _ | integralToEnum _ => true
  | _ => false

/-- What a plan into `t` may give: a value of `t`, or a failure of its own step. -/
inductive Outcome (p : Coercion) (t : ValueType) : Except AccessError Value → Prop
  | value {w : Value} (h : w.conforms t = true) : Outcome p t (.ok w)
  | conversion (h : p.converts = true) (v : String) (u : ValueType) :
      Outcome p t (.error (.conversion v u))
  | unknownVariant (h : p.seeksVariant = true) (enumName v : String) :
      Outcome p t (.error (.unknownVariant enumName v))

namespace Outcome

variable {p q : Coercion} {t : ValueType} {x : Except AccessError Value}

/-- A layer keeps the outcome of the step under it, where its type takes the same values. -/
theorem layer {u : ValueType} (hcore : q.core = p.core)
    (hu : ∀ w : Value, w.conforms t = true → w.conforms u = true) (h : p.Outcome t x) :
    q.Outcome u x := by
  cases h with
  | value hw => exact .value (hu _ hw)
  | conversion hp v u => exact .conversion (by rwa [converts, hcore]) v u
  | unknownVariant hp e v => exact .unknownVariant (by rwa [seeksVariant, hcore]) e v

/-- A plan that neither converts nor seeks a variant gives a value. -/
theorem exists_ok (h : p.Outcome t x) (hc : p.converts = false) (hs : p.seeksVariant = false) :
    ∃ w, x = .ok w ∧ w.conforms t = true := by
  cases h with
  | value hw => exact ⟨_, rfl, hw⟩
  | conversion hp => exact absurd (hp.symm.trans hc) Bool.noConfusion
  | unknownVariant hp => exact absurd (hp.symm.trans hs) Bool.noConfusion

end Outcome

/-! ## Plans that lead from one type to another -/

/-- The plan leads from the values of one type to those of another. -/
inductive Leads : Coercion → ValueType → ValueType → Prop
  | identity (t : ValueType) : Leads identity t t
  | wrap {p : Coercion} {s t : ValueType} (h : Leads p s t) (d : Option ValueType) :
      Leads (wrap p d) s (.nullable t)
  | unwrap {p : Coercion} {s t : ValueType} (h : Leads p s t) :
      Leads (unwrap p t) (.nullable s) t
  | lift {p : Coercion} {s t : ValueType} (h : Leads p s t) :
      Leads (lift p) (.nullable s) (.nullable t)
  | parseEnum (e : EnumType) : Leads (parseEnum e) .string (.enum e)
  | integralToEnum (k : IntKind) (e : EnumType) : Leads (integralToEnum e) (.int k) (.enum e)
  | enumToString (e : EnumType) : Leads (enumToString e) (.enum e) .string
  | enumToIntegral (e : EnumType) (k : IntKind) :
      Leads (enumToIntegral (.int k)) (.enum e) (.int k)
  | convert {s t : ValueType} (h : isConvertible s t = true) : Leads (convert t) s t

/-- Each step of the table leads from its source type to its target type. -/
theorem Step.leads {s t : ValueType} {p : Coercion} (h : Step s t p) : p.Leads s t := by
  cases h with
  | identity => exact .identity s
  | parseEnum e => exact .parseEnum e
  | integralToEnum k e => exact .integralToEnum k e
  | enumToString e => exact .enumToString e
  | enumToIntegral e k => exact .enumToIntegral e k
  | convert _ h => exact .convert h

/-- The layer of two types leads from the one to the other around what leads between those
within. -/
theorem Leads.of_layer {s t : ValueType} {behavior : NullableBehavior} {p q : Coercion}
    (h : p.Leads s.underlying t.underlying) (hq : layer s t behavior p = .ok q) :
    q.Leads s t := by
  rcases layer_eq_ok hq with ⟨hs, ht, rfl⟩ | ⟨hs, ht, rfl⟩ | ⟨hs, ht, hwrap⟩ | ⟨hs, ht, rfl⟩
  · rw [ValueType.eq_nullable hs, ValueType.eq_nullable ht]
    exact .lift h
  · rw [ValueType.underlying_of_not_nullable ht] at h
    rw [ValueType.eq_nullable hs]
    exact .unwrap h
  · obtain ⟨d, rfl⟩ := wrapUnder_eq_ok hwrap
    rw [ValueType.underlying_of_not_nullable hs] at h
    rw [ValueType.eq_nullable ht]
    exact .wrap h d
  · rwa [ValueType.underlying_of_not_nullable hs, ValueType.underlying_of_not_nullable ht] at h

/-- A chosen plan leads from its source type to its target type. -/
theorem leads_of_resolve {s t : ValueType} {behavior : NullableBehavior} {p : Coercion}
    (h : resolve s t behavior = .ok p) : p.Leads s t := by
  by_cases heq : s = t
  · subst heq
    rw [resolve_self] at h
    cases h
    exact .identity s
  · rw [resolve_of_ne heq] at h
    obtain ⟨inner, hinner, hlayer⟩ := Except.bind_eq_ok_iff.mp h
    exact (step_of_resolvePlain hinner).leads.of_layer hlayer

/-! ## Running a plan -/

variable {p : Coercion} {t : ValueType} {v : Value}

/-- Only a null tells an unwrapping plan from the one inside. -/
theorem apply_unwrap (hv : v ≠ .null) : (unwrap p t).apply v = p.apply v := by
  cases v <;> first | rfl | exact absurd rfl hv

theorem apply_lift (hv : v ≠ .null) : (lift p).apply v = p.apply v := by
  cases v <;> first | rfl | exact absurd rfl hv

/-- A name is that of a variant, or the failure says that no variant has it. -/
theorem outcome_parseEnum (e : EnumType) (s : String) :
    (parseEnum e).Outcome (.enum e) ((parseEnum e).apply (.str s)) := by
  simp only [apply, applyParse]
  cases h : e.parse? s with
  | none => exact .unknownVariant rfl _ _
  | some d => exact .value (e.contains_of_parse? h)

theorem outcome_integralToEnum (e : EnumType) (v : Value) :
    (integralToEnum e).Outcome (.enum e) ((integralToEnum e).apply v) := by
  simp only [apply, applyVariant]
  cases h : (v.integral?.bind (IntKind.ofInt? .i64)).filter e.contains with
  | none => exact .unknownVariant rfl _ _
  | some d => exact .value (Option.filter_eq_some_iff.mp h).2

/-- A discriminant of the enumeration always has a name. -/
theorem outcome_enumToString {e : EnumType} {d : Discriminant} (hd : e.contains d = true) :
    (enumToString e).Outcome .string ((enumToString e).apply (.enum d)) := by
  obtain ⟨name, hname⟩ := EnumType.exists_nameOf? hd
  simp only [apply, applyName, hname]
  exact .value rfl

/-- A conversion gives a value of its type or fails as one, whatever plan it is part of. -/
theorem outcome_applyConvert (hp : p.converts = true) (t : ValueType) (v : Value) :
    p.Outcome t (applyConvert t v) := by
  unfold applyConvert
  cases h : v.convert? t with
  | none => exact .conversion hp _ _
  | some w => exact .value (Value.conforms_convert? h)

/-- On a value of its source, a plan gives a value of its target or a failure of its own
step. -/
theorem Leads.outcome {s : ValueType} (h : p.Leads s t) (ht : t.HasVariants)
    (hv : v.conforms s = true) : p.Outcome t (p.apply v) := by
  induction h with
  | identity t => exact .value hv
  | @wrap p s t h d ih =>
    have hinner : (Coercion.wrap p d).Outcome (.nullable t) (p.apply v) :=
      (ih ht hv).layer (by rfl) fun w hw => Value.conforms_nullable_iff.mpr (Or.inr hw)
    cases d with
    | none => exact hinner
    | some u =>
      unfold apply
      split
      · exact .value rfl
      · exact hinner
  | @unwrap p s t h ih =>
    by_cases hnull : v = .null
    · subst hnull
      exact .value (ValueType.conforms_default ht)
    · rw [apply_unwrap hnull]
      have hs := (Value.conforms_nullable_iff.mp hv).resolve_left hnull
      exact (ih ht hs).layer (by rfl) fun w hw => hw
  | @lift p s t h ih =>
    by_cases hnull : v = .null
    · subst hnull
      exact .value rfl
    · rw [apply_lift hnull]
      have hs := (Value.conforms_nullable_iff.mp hv).resolve_left hnull
      exact (ih ht hs).layer (by rfl) fun w hw => Value.conforms_nullable_iff.mpr (Or.inr hw)
  | parseEnum e =>
    obtain ⟨s, rfl⟩ := Value.exists_str_of_conforms hv
    exact outcome_parseEnum e s
  | integralToEnum k e => exact outcome_integralToEnum e v
  | enumToString e =>
    obtain ⟨d, rfl, hd⟩ := Value.exists_enum_of_conforms hv
    exact outcome_enumToString hd
  | enumToIntegral e k =>
    obtain ⟨d, rfl, -⟩ := Value.exists_enum_of_conforms hv
    exact outcome_applyConvert rfl _ _
  | convert h => exact outcome_applyConvert rfl _ _

/-- A chosen plan gives, on every value of the source type, a value of the target type, a
failed conversion where it converts, or an unknown variant where it seeks one. A plan that
passes values on or names variants never fails. -/
theorem outcome_of_resolve {s : ValueType} {behavior : NullableBehavior} (ht : t.HasVariants)
    (h : resolve s t behavior = .ok p) (hv : v.conforms s = true) :
    p.Outcome t (p.apply v) ∧
      (p.core = identity ∨ (∃ e, p.core = enumToString e) →
        ∃ w, p.apply v = .ok w ∧ w.conforms t = true) := by
  have hout := (leads_of_resolve h).outcome ht hv
  refine ⟨hout, fun hcore => hout.exists_ok ?_ ?_⟩
  · rcases hcore with hcore | ⟨e, hcore⟩ <;> simp only [converts, hcore]
  · rcases hcore with hcore | ⟨e, hcore⟩ <;> simp only [seeksVariant, hcore]

/-- Two shades, neither of number zero. -/
def shades : EnumType := ⟨"Shade", [("Light", ⟨1, by decide⟩), ("Dark", ⟨5, by decide⟩)]⟩

/-- A shade that may be absent has a name. -/
theorem outcome_of_resolve_shade :
    ValueType.string.HasVariants ∧
      resolve (.nullable (.enum shades)) .string .error =
        .ok (unwrap (enumToString shades) .string) ∧
      (Value.enum ⟨5, by decide⟩).conforms (.nullable (.enum shades)) = true ∧
      (unwrap (enumToString shades) .string).Outcome .string
        ((unwrap (enumToString shades) .string).apply (.enum ⟨5, by decide⟩)) ∧
      ∃ w, (unwrap (enumToString shades) .string).apply (.enum ⟨5, by decide⟩) = .ok w ∧
        w.conforms .string = true :=
  have ht : ValueType.string.HasVariants := trivial
  have hplan : resolve (.nullable (.enum shades)) .string .error =
      .ok (unwrap (enumToString shades) .string) := rfl
  have hv : (Value.enum ⟨5, by decide⟩).conforms (.nullable (.enum shades)) = true := by decide
  have h := outcome_of_resolve ht hplan hv
  ⟨ht, hplan, hv, h.1, h.2 (Or.inr ⟨shades, rfl⟩)⟩

end Coercion

end Crosswalk
