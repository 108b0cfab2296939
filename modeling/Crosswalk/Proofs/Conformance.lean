import Crosswalk.Carrier
import Crosswalk.Coercion

/-!
# Conforming values

A nullable type takes the absent value and the values of the type below it
(`Value.conforms_nullable_iff`). The values that the library makes of a type conform to
it: the elements of a carrier (`Carrier.conforms_toValue`), the default of a type whose
enumerations have variants (`ValueType.conforms_default`) and what a scalar conversion
gives (`Value.conforms_convert?`). A carrier takes back whatever conforms to its type
(`Carrier.exists_ofValue`).
-/

namespace Crosswalk

/-! ## Enumerations with variants -/

/-- Every enumeration in the type has a variant. -/
def ValueType.HasVariants : ValueType → Prop
  | .enum e => e.variants ≠ []
  | .nullable t => t.HasVariants
  | _ => True

instance ValueType.decidableHasVariants : (t : ValueType) → Decidable t.HasVariants
  | .enum e => inferInstanceAs (Decidable (e.variants ≠ []))
  | .nullable t => decidableHasVariants t
  | .bool => isTrue trivial
  | .char => isTrue trivial
  | .int _ => isTrue trivial
  | .float _ => isTrue trivial
  | .string => isTrue trivial

/-- Each discriminant of a variant has a name, that of the first such variant. -/
theorem EnumType.exists_nameOf? {e : EnumType} {d : Discriminant} (h : e.contains d = true) :
    ∃ name, e.nameOf? d = some name := by
  obtain ⟨v, hv, hd⟩ := e.contains_iff.mp h
  have hsome : (e.variants.find? fun v => v.2 == d).isSome = true := by
    rw [List.find?_isSome]
    exact ⟨v, hv, by simp [hd]⟩
  obtain ⟨w, hw⟩ := Option.isSome_iff_exists.mp hsome
  exact ⟨w.1, by rw [nameOf?, hw, Option.map_some]⟩

/-! ## Types and their values -/

namespace Value

variable {v : Value} {t : ValueType}

theorem conforms_nullable_iff :
    v.conforms (.nullable t) = true ↔ v = null ∨ v.conforms t = true := by
  cases v <;> simp [conforms]

/-- A second layer of nullability lets in no more values. -/
theorem conforms_orNull : v.conforms t.orNull = v.conforms (.nullable t) := by
  cases t with
  | nullable u => cases v <;> simp [ValueType.orNull, conforms]
  | _ => rfl

theorem exists_str_of_conforms (h : v.conforms .string = true) : ∃ s, v = str s := by
  cases v <;> simp [conforms] at h ⊢

theorem exists_enum_of_conforms {e : EnumType} (h : v.conforms (.enum e) = true) :
    ∃ d, v = enum d ∧ e.contains d = true := by
  cases v <;> simp [conforms] at h ⊢
  exact h

/-- What is converted into a type is of that type. -/
theorem conforms_convert? {w : Value} (h : v.convert? t = some w) : w.conforms t = true := by
  cases t <;> simp only [convert?, Option.map_eq_some_iff, reduceCtorEq] at h
  all_goals
    obtain ⟨x, -, rfl⟩ := h
    simp [conforms]

end Value

/-- The default conforms, where enumerations have variants to take it from. -/
theorem ValueType.conforms_default {t : ValueType} (h : t.HasVariants) :
    t.default.conforms t = true := by
  cases t with
  | enum e => exact e.contains_zero h
  | _ => simp [default, Value.conforms]

/-! ## Carriers -/

namespace Carrier

/-- An element of a carrier stands as a value of the type of the carrier. -/
theorem conforms_toValue : ∀ (c : Carrier) (x : c.Elem), (c.toValue x).conforms c.valueType = true
  | .bool, _ | .char, _ | .string, _ => rfl
  | .int k, _ | .float k, _ => beq_self_eq_true k
  | .enum _, d => d.2
  | .option c, none => by
    rw [valueType, toValue, Value.conforms_orNull, Value.conforms_nullable_iff]
    exact Or.inl rfl
  | .option c, some x => by
    rw [valueType, toValue, Value.conforms_orNull, Value.conforms_nullable_iff]
    exact Or.inr (c.conforms_toValue x)

/-- A value that conforms to the type of the carrier stands for an element. -/
theorem exists_ofValue {v : Value} :
    ∀ {c : Carrier}, v.conforms c.valueType = true → ∃ x, c.ofValue v = .ok x
  | .bool, h => by
    cases v with
    | bool b => exact ⟨b, rfl⟩
    | _ => cases h
  | .char, h => by
    cases v with
    | char c => exact ⟨c, rfl⟩
    | _ => cases h
  | .int k, h => by
    cases v with
    | int k' n =>
      obtain rfl : k' = k := eq_of_beq h
      exact ⟨n, dif_pos rfl⟩
    | _ => cases h
  | .float k, h => by
    cases v with
    | float k' w =>
      obtain rfl : k' = k := eq_of_beq h
      exact ⟨w, dif_pos rfl⟩
    | _ => cases h
  | .string, h => by
    obtain ⟨s, rfl⟩ := Value.exists_str_of_conforms h
    exact ⟨s, rfl⟩
  | .enum e, h => by
    obtain ⟨d, rfl, hd⟩ := Value.exists_enum_of_conforms h
    exact ⟨⟨d, hd⟩, by simp [ofValue, hd]⟩
  | .option c, h => by
    rw [valueType, Value.conforms_orNull, Value.conforms_nullable_iff] at h
    rcases h with rfl | h
    · exact ⟨none, rfl⟩
    · obtain ⟨x, hx⟩ := exists_ofValue h
      cases v with
      | null => exact ⟨none, rfl⟩
      | _ => exact ⟨some x, by simp [ofValue, hx, Except.map]⟩

end Carrier

end Crosswalk
