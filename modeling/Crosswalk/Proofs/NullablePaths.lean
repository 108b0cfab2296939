import Crosswalk.Proofs.CoercionSoundness

/-!
# Plans between nullable types

From the plan between two types that are not nullable come four plans in which one of them is or
both are (`Coercion.Extends`, `Coercion.Step.extends`). On values that are present each does
what the plan between the types themselves does, with the same value or the same failure; the only
exception is a default that becomes absent. A step never makes a present value absent
(`Coercion.Step.apply_ne_null`), so an absent result always says that the default was meant.
-/

namespace Crosswalk

namespace Coercion

variable {s t : ValueType} {p : Coercion} {v w : Value} {behavior : NullableBehavior}

/-! ## Steps on present values -/

theorem orElse_eq_ok_iff {x : Option Value} {e : AccessError} :
    orElse x e = .ok w ↔ x = some w := by
  cases x <;> simp [orElse]

theorem orElse_eq_error_iff {x : Option Value} {e e' : AccessError} :
    orElse x e = .error e' ↔ e' = e ∧ x = none := by
  cases x <;> simp [orElse, eq_comm]

theorem orElse_map_eq_ok_iff {α : Type} {x : Option α} {f : α → Value} {e : AccessError} :
    orElse (x.map f) e = .ok w ↔ ∃ a, x = some a ∧ f a = w := by
  rw [orElse_eq_ok_iff, Option.map_eq_some_iff]

theorem orElse_map_ne_null {α : Type} {x : Option α} {f : α → Value} {e : AccessError}
    (hf : ∀ a, f a ≠ .null) : orElse (x.map f) e ≠ .ok .null := by
  intro h
  obtain ⟨a, -, ha⟩ := orElse_map_eq_ok_iff.mp h
  exact hf a ha

/-- A conversion into a type that is not nullable never gives null. -/
theorem applyConvert_ne_null (ht : t.isNullable = false) (v : Value) :
    applyConvert t v ≠ .ok .null := by
  intro h
  have hconforms := Value.conforms_convert? (orElse_eq_ok_iff.mp h)
  cases t with
  | nullable u => cases ht
  | _ => cases hconforms

/-- A step makes no present value absent, whether the value conforms or not. -/
theorem Step.apply_ne_null (h : Step s t p) (ht : t.isNullable = false) (hv : v ≠ .null) :
    p.apply v ≠ .ok .null := by
  cases h with
  | identity => exact fun h => hv (Except.ok.inj h)
  | parseEnum e =>
    cases v with
    | null => exact absurd rfl hv
    | str name => exact orElse_map_ne_null fun _ => nofun
    | _ => nofun
  | integralToEnum k e => exact orElse_map_ne_null fun _ => nofun
  | enumToString e =>
    cases v with
    | enum d => exact orElse_map_ne_null fun _ => nofun
    | _ => nofun
  | enumToIntegral e k =>
    cases v with
    | enum d => exact applyConvert_ne_null rfl _
    | _ => nofun
  | convert _ _ => exact applyConvert_ne_null ht v

/-! ## Plans around a step -/

/-- The plans in which `s`, or `t`, or both are made nullable do on present values what `p` does. -/
structure Extends (p : Coercion) (s t : ValueType) : Prop where
  lifted (behavior : NullableBehavior) : ∃ q, resolve (.nullable s) (.nullable t) behavior = .ok q ∧
    q.apply .null = .ok .null ∧ ∀ v, v ≠ .null → q.apply v = p.apply v
  unwrapped (behavior : NullableBehavior) : ∃ q, resolve (.nullable s) t behavior = .ok q ∧
    q.apply .null = .ok t.default ∧ ∀ v, v ≠ .null → q.apply v = p.apply v
  asIs : ∃ q, resolve s (.nullable t) .assignDefaultAsIs = .ok q ∧ ∀ v, q.apply v = p.apply v
  /-- Only the default of `s` becomes absent. -/
  nulled : ∃ q, resolve s (.nullable t) .defaultMapsToNull = .ok q ∧ ∀ v, v ≠ .null →
    (q.apply v = .ok .null ↔ v.sameNumber s.default = true) ∧
      (v.sameNumber s.default = false → q.apply v = p.apply v)
  /-- An absent name stands for the variant that the search by name takes it for. -/
  absentName (e : EnumType) (hs : s = .string) (ht : t = .enum e) (behavior : NullableBehavior) :
    p = .parseEnum e ∧ ∃ q, resolve (.nullable s) t behavior = .ok q ∧ q.apply .null = p.apply .null

/-- Between the nullable types, null goes to null and a present value takes the step. -/
theorem Step.exists_lift (h : Step s t p) (behavior : NullableBehavior) :
    ∃ q, resolve (.nullable s) (.nullable t) behavior = .ok q ∧
      q.apply .null = .ok .null ∧ ∀ v, v ≠ .null → q.apply v = p.apply v := by
  by_cases heq : s = t
  · subst heq
    have hp : p = .identity := by
      cases h with
      | identity => rfl
      | convert hne _ => exact absurd rfl hne
    exact ⟨.identity, resolve_self _ _, rfl, fun v _ => by rw [hp]⟩
  · have hne : ValueType.nullable s ≠ .nullable t := fun h => heq (ValueType.nullable.inj h)
    refine ⟨lift p, ?_, rfl, fun v hv => apply_lift hv⟩
    rw [resolve_of_ne hne, ValueType.underlying, ValueType.underlying, h.resolvePlain_eq]
    rfl

/-- Out of a nullable type the step is unwrapped, whatever the behavior. -/
theorem Step.resolve_out_of_nullable (h : Step s t p) (ht : t.isNullable = false)
    (behavior : NullableBehavior) : resolve (.nullable s) t behavior = .ok (unwrap p t) := by
  have hne : ValueType.nullable s ≠ t := (ValueType.isNullable_eq_false_iff.mp ht s).symm
  rw [resolve_of_ne hne, ValueType.underlying_of_not_nullable ht, ValueType.underlying,
    h.resolvePlain_eq, Except.bind]
  unfold layer
  rw [ht, ValueType.isNullable]

/-- A step between types that are not nullable is the plan that the nullable ones extend. -/
theorem Step.extends (h : Step s t p) (hs : s.isNullable = false) (ht : t.isNullable = false) :
    p.Extends s t where
  lifted := h.exists_lift
  unwrapped behavior := ⟨_, h.resolve_out_of_nullable ht behavior, rfl, fun v hv => apply_unwrap hv⟩
  asIs := by
    refine ⟨wrap p none, ?_, fun v => rfl⟩
    rw [resolve_into_nullable hs, h.resolvePlain_eq]
    rfl
  nulled := by
    refine ⟨wrap p (some s), ?_, fun v hv => ?_⟩
    · rw [resolve_into_nullable hs, h.resolvePlain_eq]
      rfl
    · cases hdefault : v.sameNumber s.default with
      | true => simp [apply, hdefault]
      | false => simp [apply, hdefault, h.apply_ne_null ht hv]
  absentName := by
    rintro e rfl rfl behavior
    cases h with
    | parseEnum => exact ⟨rfl, _, (Step.parseEnum e).resolve_out_of_nullable ht behavior, rfl⟩
    | convert _ h => cases h

/-- The plan between two types that are not nullable is followed where they are made so. -/
theorem extends_of_resolve (hs : s.isNullable = false) (ht : t.isNullable = false)
    (h : resolve s t behavior = .ok p) : p.Extends s t := by
  rw [resolve_of_not_nullable hs ht] at h
  exact (step_of_resolvePlain h).extends hs ht

/-- Names of shades: the empty name is no shade, and stands for the absent one. -/
theorem extends_of_resolve_shade :
    ValueType.string.isNullable = false ∧ (ValueType.enum shades).isNullable = false ∧
      resolve .string (.enum shades) .error = .ok (.parseEnum shades) ∧
      (parseEnum shades).Extends .string (.enum shades) ∧
      (parseEnum shades).apply (.str "") = .error (.unknownVariant "Shade" "") ∧
      ∃ q, resolve .string (.nullable (.enum shades)) .defaultMapsToNull = .ok q ∧
        q.apply (.str "") = .ok .null ∧ q.apply (.str "Dark") = .ok (.enum ⟨5, by decide⟩) := by
  have hplan : resolve .string (.enum shades) .error = .ok (.parseEnum shades) := rfl
  have hextends := extends_of_resolve (s := .string) (t := .enum shades) rfl rfl hplan
  obtain ⟨q, hq, hnull⟩ := hextends.nulled
  refine ⟨rfl, rfl, hplan, hextends, rfl, q, hq, ?_, ?_⟩
  · exact (hnull (.str "") nofun).1.mpr rfl
  · exact (hnull (.str "Dark") nofun).2 rfl

end Coercion

end Crosswalk
