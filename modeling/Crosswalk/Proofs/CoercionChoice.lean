import Crosswalk.Coercion
import Crosswalk.Proofs.Results

/-!
# How plans are chosen

Nullable types aside, a plan is a single step, and `Coercion.Step` has one rule for each kind of
step (`Coercion.resolvePlain_eq_ok_iff`). From one type to an unequal one, the plan is the step
between the types without their absent values, in the layer that these ask for
(`Coercion.resolve_of_ne`). Every fact about which plan is chosen, and when, is read off these two.
-/

namespace Crosswalk

namespace ValueType

variable {t : ValueType}

theorem isNullable_eq_false_iff : t.isNullable = false ↔ ∀ u, t ≠ nullable u := by
  cases t <;> simp [isNullable]

/-- A type without an absent value is below itself. -/
theorem underlying_of_not_nullable (h : t.isNullable = false) : t.underlying = t := by
  cases t with
  | nullable u => cases h
  | _ => rfl

/-- A nullable type is the nullable one of what is below it. -/
theorem eq_nullable (h : t.isNullable = true) : t = nullable t.underlying := by
  cases t with
  | nullable u => rfl
  | _ => cases h

end ValueType

namespace Coercion

variable {s t : ValueType} {p inner : Coercion} {failure : CoercionFailure}
  {behavior : NullableBehavior}

/-! ## Steps -/

/-- The plan is the step from the one type to the other. -/
inductive Step : ValueType → ValueType → Coercion → Prop
  | identity (t : ValueType) : Step t t identity
  | parseEnum (e : EnumType) : Step .string (.enum e) (parseEnum e)
  | integralToEnum (k : IntKind) (e : EnumType) : Step (.int k) (.enum e) (integralToEnum e)
  | enumToString (e : EnumType) : Step (.enum e) .string (enumToString e)
  | enumToIntegral (e : EnumType) (k : IntKind) :
      Step (.enum e) (.int k) (enumToIntegral (.int k))
  | convert {s t : ValueType} (hne : s ≠ t) (h : isConvertible s t = true) :
      Step s t (convert t)

/-- A plain plan comes of some rule. -/
theorem step_of_resolvePlain (h : resolvePlain s t = .ok p) : Step s t p := by
  unfold resolvePlain at h
  split at h
  · next heq =>
    cases h
    exact heq ▸ .identity s
  · next hne =>
    split at h
    · cases h
      exact .parseEnum _
    · cases h
      exact .integralToEnum _ _
    · cases h
      exact .enumToString _
    · cases h
      exact .enumToIntegral _ _
    · split at h
      · next hconv =>
        cases h
        exact .convert hne hconv
      · cases h

/-- A rule gives the plain plan: no other rule comes before it. -/
theorem Step.resolvePlain_eq (h : Step s t p) : resolvePlain s t = .ok p := by
  cases h with
  | identity => exact if_pos rfl
  | convert hne h =>
    unfold resolvePlain
    rw [if_neg hne]
    -- Conversion does not lead to or from an enumeration, so no arm before the last applies.
    split <;> first | cases h | exact if_pos h
  | _ => simp [resolvePlain]

/-- The rules are what plain resolution does. -/
theorem resolvePlain_eq_ok_iff : resolvePlain s t = .ok p ↔ Step s t p :=
  ⟨step_of_resolvePlain, Step.resolvePlain_eq⟩

/-- Plain resolution fails in one way only. -/
theorem eq_incompatible_of_resolvePlain (h : resolvePlain s t = .error failure) :
    failure = .incompatible := by
  unfold resolvePlain at h
  split at h
  · cases h
  · split at h
    case h_5 =>
      split at h
      · cases h
      · cases h
        rfl
    all_goals cases h

/-- Plain resolution fails just where no rule applies. -/
theorem resolvePlain_eq_error_iff : resolvePlain s t = .error failure ↔
    failure = .incompatible ∧ ¬∃ p, Step s t p := by
  simp only [← resolvePlain_eq_ok_iff, ← Except.exists_error_iff]
  constructor
  · intro h
    exact ⟨eq_incompatible_of_resolvePlain h, failure, h⟩
  · rintro ⟨rfl, e, he⟩
    rwa [eq_incompatible_of_resolvePlain he] at he

/-! ## Layers -/

/-- The plan into a nullable type under a behaviour, around that into the type within. -/
def wrapUnder (source : ValueType) (inner : Coercion) :
    NullableBehavior → Except CoercionFailure Coercion
  | .defaultMapsToNull => .ok (wrap inner (some source))
  | .assignDefaultAsIs => .ok (wrap inner none)
  | .error => .error .nullableDisallowed

/-- The plan around a step, as the one type or the other is nullable. -/
def layer (s t : ValueType) (behavior : NullableBehavior) (inner : Coercion) :
    Except CoercionFailure Coercion :=
  match s.isNullable, t.isNullable with
  | true, true => .ok (lift inner)
  | true, false => .ok (unwrap inner t)
  | false, true => wrapUnder s inner behavior
  | false, false => .ok inner

/-- What is put around a plain plan goes by which of the two types are nullable. -/
theorem layer_eq_ok (h : layer s t behavior inner = .ok p) :
    s.isNullable = true ∧ t.isNullable = true ∧ p = lift inner ∨
      s.isNullable = true ∧ t.isNullable = false ∧ p = unwrap inner t ∨
      s.isNullable = false ∧ t.isNullable = true ∧ wrapUnder s inner behavior = .ok p ∨
      s.isNullable = false ∧ t.isNullable = false ∧ p = inner := by
  unfold layer at h
  cases hs : s.isNullable <;> cases ht : t.isNullable <;> rw [hs, ht] at h
  · exact .inr (.inr (.inr ⟨rfl, rfl, (Except.ok.inj h).symm⟩))
  · exact .inr (.inr (.inl ⟨rfl, rfl, h⟩))
  · exact .inr (.inl ⟨rfl, rfl, (Except.ok.inj h).symm⟩)
  · exact .inl ⟨rfl, rfl, (Except.ok.inj h).symm⟩

theorem layer_into_nullable (hs : s.isNullable = false) (ht : t.isNullable = true)
    (behavior : NullableBehavior) :
    layer s t behavior = fun inner => wrapUnder s inner behavior := by
  unfold layer
  rw [hs, ht]

/-- The behaviour matters to a type that is not nullable before one that is. -/
theorem layer_eq_layer (h : ¬(s.isNullable = false ∧ t.isNullable = true))
    (b b' : NullableBehavior) : layer s t b = layer s t b' := by
  funext inner
  unfold layer
  cases hs : s.isNullable <;> cases ht : t.isNullable
  · rfl
  · exact absurd ⟨hs, ht⟩ h
  · rfl
  · rfl

/-- What wraps a plan keeps it inside, whatever becomes of defaults. -/
theorem wrapUnder_eq_ok (h : wrapUnder s inner behavior = .ok p) : ∃ d, p = wrap inner d := by
  cases behavior <;> cases h <;> exact ⟨_, rfl⟩

/-- A type leads to itself by the identity, nullable or not. -/
theorem resolve_self (t : ValueType) (behavior : NullableBehavior) :
    resolve t t behavior = .ok identity := by
  unfold resolve
  exact if_pos rfl

/-- Between different types, the plan between the types below is resolved first. -/
theorem resolve_of_ne (h : s ≠ t) (behavior : NullableBehavior) : resolve s t behavior =
    (resolvePlain s.underlying t.underlying).bind (layer s t behavior) := by
  unfold resolve layer
  rw [if_neg h]
  split
  · next s t =>
    dsimp only [ValueType.underlying, ValueType.isNullable]
    cases resolvePlain s t <;> rfl
  · next s ht =>
    have ht : t.isNullable = false := ValueType.isNullable_eq_false_iff.mpr ht
    rw [ht, ValueType.underlying_of_not_nullable ht]
    dsimp only [ValueType.underlying, ValueType.isNullable]
    cases resolvePlain s t <;> rfl
  · next t hs =>
    have hs : s.isNullable = false := ValueType.isNullable_eq_false_iff.mpr hs
    rw [hs, ValueType.underlying_of_not_nullable hs]
    dsimp only [ValueType.underlying, ValueType.isNullable]
    cases resolvePlain s t <;> cases behavior <;> rfl
  · next hs ht _ =>
    have hs : s.isNullable = false := ValueType.isNullable_eq_false_iff.mpr hs
    have ht : t.isNullable = false := ValueType.isNullable_eq_false_iff.mpr ht
    rw [hs, ht, ValueType.underlying_of_not_nullable hs, ValueType.underlying_of_not_nullable ht]
    cases resolvePlain s t <;> rfl

theorem resolve_into_nullable (hs : s.isNullable = false) (t : ValueType)
    (behavior : NullableBehavior) : resolve s (.nullable t) behavior =
      (resolvePlain s t).bind fun inner => wrapUnder s inner behavior := by
  have hne : s ≠ .nullable t := ValueType.isNullable_eq_false_iff.mp hs t
  rw [resolve_of_ne hne, layer_into_nullable hs rfl, ValueType.underlying_of_not_nullable hs,
    ValueType.underlying]

/-- Between types without absent values, there is nothing to put around the plain plan. -/
theorem resolve_of_not_nullable (hs : s.isNullable = false) (ht : t.isNullable = false)
    (behavior : NullableBehavior) : resolve s t behavior = resolvePlain s t := by
  by_cases h : s = t
  · subst h
    rw [resolve_self, (Step.identity s).resolvePlain_eq]
  · rw [resolve_of_ne h, ValueType.underlying_of_not_nullable hs,
      ValueType.underlying_of_not_nullable ht]
    unfold layer
    rw [hs, ht]
    cases resolvePlain s t <;> rfl

/-- The plan from the one type to the other is the same under every behaviour. -/
def Chosen (s t : ValueType) (p : Coercion) : Prop :=
  ∀ behavior, resolve s t behavior = .ok p

/-- A rule between types without absent values is chosen under every behaviour. -/
theorem Step.chosen (h : Step s t p) (hs : s.isNullable = false) (ht : t.isNullable = false) :
    Chosen s t p := by
  intro behavior
  rw [resolve_of_not_nullable hs ht, h.resolvePlain_eq]

end Coercion

end Crosswalk
