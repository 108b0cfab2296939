import Crosswalk.Proofs.CoercionDomain
import Crosswalk.Proofs.Storage

/-!
# Elements and their values

The declared type of a carrier says all about which values have elements: those that conform to it
(`Carrier.exists_ofValue_iff`), of which each goes back to the very value. The type is no more
than once nullable, however often options nest, so that an absent option of an option and an absent
inner one share a value. Carriers without such options have every element back
(`Carrier.ofValue_toValue`), and no others do. `Carrier.bridged` collects this for every carrier.
-/

namespace Crosswalk

theorem ValueType.not_nests_orNull {t : ValueType} (h : ¬t.Nests) : ¬t.orNull.Nests := by
  rw [nests_iff] at h ⊢
  cases t with
  | nullable u => exact h
  | _ => exact Bool.false_ne_true

namespace Carrier

variable {c : Carrier} {v : Value}

/-- No option is applied directly to an option. -/
def IsFlat : Carrier → Prop
  | option (option _) => False
  | option c => c.IsFlat
  | _ => True

/-- What is below a flat option is flat. -/
theorem IsFlat.of_option (h : (option c).IsFlat) : c.IsFlat := by
  cases c with
  | option c => exact h.elim
  | _ => exact h

/-- A carrier is flat unless it is an option of an option. -/
theorem exists_of_not_isFlat (h : ¬c.IsFlat) : ∃ c', c = option (option c') := by
  cases c with
  | option c =>
    cases c with
    | option c => exact ⟨c, rfl⟩
    | _ => exact absurd trivial h
  | _ => exact absurd trivial h

/-! ## Declared types -/

/-- Just the values of the declared type have elements. -/
theorem exists_ofValue_iff : (∃ x, c.ofValue v = .ok x) ↔ v.conforms c.valueType = true := by
  constructor
  · rintro ⟨x, hx⟩
    rw [← toValue_of_ofValue hx]
    exact c.conforms_toValue x
  · exact exists_ofValue

/-- The declared type of a carrier has one absent value at most. -/
theorem not_nests_valueType : ∀ c : Carrier, ¬c.valueType.Nests
  | bool | char | int _ | float _ | string | enum _ => by
    rw [ValueType.nests_iff]
    exact Bool.false_ne_true
  | option c => ValueType.not_nests_orNull c.not_nests_valueType

/-! ## Elements -/

/-- An element of what is no option is present. -/
theorem toValue_ne_null (hc : ∀ c', c ≠ option c') (x : c.Elem) : c.toValue x ≠ .null := by
  cases c with
  | option c => exact absurd rfl (hc c)
  | _ => exact nofun

theorem ofValue_option (hv : v ≠ .null) : (option c).ofValue v = (c.ofValue v).map some := by
  cases v with
  | null => exact absurd rfl hv
  | _ => rfl

/-- Without options of options, an element is had back from its value. -/
theorem ofValue_toValue : ∀ {c : Carrier}, c.IsFlat → ∀ x : c.Elem, c.ofValue (c.toValue x) = .ok x
  | .bool, _, _ | .char, _, _ | .string, _, _ => rfl
  | .int _, _, _ | .float _, _, _ => dif_pos rfl
  | .enum _, _, d => dif_pos d.2
  | .option _, _, none => rfl
  | .option c, h, some x => by
    have hc : ∀ c', c ≠ option c' := by
      rintro c' rfl
      exact h
    rw [toValue, ofValue_option (toValue_ne_null hc x), ofValue_toValue h.of_option x]
    rfl

/-- The absent element of the inner option has the value of the outer one. -/
theorem ofValue_toValue_some_none (c : Carrier) :
    (option (option c)).ofValue ((option (option c)).toValue (some none)) = .ok none :=
  rfl

/-- A carrier and its declared type go together. -/
structure Bridged (c : Carrier) : Prop where
  accepts : ∀ v, (∃ x, c.ofValue v = .ok x) ↔ v.conforms c.valueType = true
  /-- The element of a value is the element of no other. -/
  identical : ∀ v x, c.ofValue v = .ok x → (c.toValue x).identical v = true
  conforms : ∀ x, (c.toValue x).conforms c.valueType = true
  flat : ¬c.valueType.Nests
  /-- Every element is had back just where no option is applied to an option. -/
  back : (∀ x, c.ofValue (c.toValue x) = .ok x) ↔ c.IsFlat

/-- Every carrier is bridged, by induction on the options around it. -/
theorem bridged (c : Carrier) : c.Bridged where
  accepts _ := exists_ofValue_iff
  identical _ _ h := Value.identical_iff.mpr (toValue_of_ofValue h)
  conforms := c.conforms_toValue
  flat := c.not_nests_valueType
  back := by
    refine ⟨fun hback => ?_, ofValue_toValue⟩
    by_contra hnested
    obtain ⟨c', rfl⟩ := exists_of_not_isFlat hnested
    cases (ofValue_toValue_some_none c').symm.trans (hback (some none))

end Carrier

end Crosswalk
