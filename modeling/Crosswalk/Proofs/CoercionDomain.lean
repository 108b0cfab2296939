import Crosswalk.Proofs.CoercionChoice

/-!
# Which types have a plan between them

A step leads from one type to another where they are equal, or where one of the kinds of
conversion joins them, in either direction (`Coercion.Akin`, `Coercion.exists_step_iff`). Between
unequal types neither of which is nullable twice, that is asked of the types without their absent
values, and where it holds only the behaviour that refuses stands in the way of a plan, into a
nullable type from one that is not (`Coercion.decided`).
-/

namespace Crosswalk

namespace ValueType

/-- A nullable type within a nullable type. -/
def Nests (t : ValueType) : Prop := ∃ u, t = .nullable (.nullable u)

/-- A type of truth values, numbers or texts. -/
def IsBasic : ValueType → Prop
  | bool | int _ | float _ | string => True
  | char | enum _ | nullable _ => False

/-- A type of what stands for characters and variants: integers or texts. -/
def IsCode : ValueType → Prop
  | int _ | string => True
  | bool | char | float _ | enum _ | nullable _ => False

variable {t u : ValueType}

/-- A type nests just when what is below it is nullable. -/
theorem nests_iff : t.Nests ↔ t.underlying.isNullable = true := by
  cases t with
  | nullable u => cases u <;> simp [Nests, underlying, isNullable]
  | _ => simp [Nests, underlying, isNullable]

theorem IsBasic.not_nullable (h : t.IsBasic) : t.isNullable = false := by
  cases t with
  | nullable u => exact h.elim
  | _ => rfl

theorem IsCode.not_nullable (h : t.IsCode) : t.isNullable = false := by
  cases t with
  | nullable u => exact h.elim
  | _ => rfl

/-- Only one type has the type within of one that nests. -/
theorem Nests.eq_of_underlying_eq (h : t.Nests) (heq : t.underlying = u.underlying) : t = u := by
  obtain ⟨v, rfl⟩ := h
  cases u with
  | nullable w => exact congrArg nullable heq
  | _ => cases heq

/-- With and without its absent value, a type that does not nest has the same type within. -/
theorem underlying_of_mem_layers (ht : ¬t.Nests) (hu : u ∈ [t.orNull, t.underlying]) :
    u.underlying = t.underlying := by
  rw [nests_iff, Bool.not_eq_true] at ht
  simp only [List.mem_cons, List.not_mem_nil, or_false] at hu
  rcases hu with rfl | rfl
  · cases t <;> rfl
  · exact underlying_of_not_nullable ht

end ValueType

namespace Coercion

variable {s t : ValueType} {p : Coercion} {behavior : NullableBehavior}

/-! ## Types that steps join -/

/-- A kind of conversion joins the types, from the first to the second and back. -/
inductive Joined : ValueType → ValueType → Prop
  | basic {s t : ValueType} (hs : s.IsBasic) (ht : t.IsBasic) : Joined s t
  | char {t : ValueType} (ht : t.IsCode) : Joined .char t
  | enum (e : EnumType) {t : ValueType} (ht : t.IsCode) : Joined (.enum e) t

/-- The types are equal, or joined one way round or the other. -/
def Akin (s t : ValueType) : Prop := s = t ∨ Joined s t ∨ Joined t s

/-- Being akin goes both ways. -/
theorem akin_comm : Akin s t ↔ Akin t s := by
  unfold Akin
  rw [eq_comm, or_comm (a := Joined s t)]

/-- Types that are joined have no absent values. -/
theorem Joined.not_nullable (h : Joined s t) : s.isNullable = false ∧ t.isNullable = false := by
  cases h with
  | basic hs ht => exact ⟨hs.not_nullable, ht.not_nullable⟩
  | char ht => exact ⟨rfl, ht.not_nullable⟩
  | enum e ht => exact ⟨rfl, ht.not_nullable⟩

/-- Only equal types are akin where one of them is nullable. -/
theorem Akin.not_nullable (h : Akin s t) (hne : s ≠ t) :
    s.isNullable = false ∧ t.isNullable = false := by
  rcases h with h | h | h
  · exact absurd h hne
  · exact h.not_nullable
  · exact h.not_nullable.symm

/-- Conversion is between basic types, and between characters and their codes. -/
theorem isConvertible_iff : isConvertible s t = true ↔
    s.IsBasic ∧ t.IsBasic ∨ s = .char ∧ t.IsCode ∨ s.IsCode ∧ t = .char := by
  cases s <;> cases t <;>
    simp [isConvertible, isScalar, ValueType.isIntegral, ValueType.IsBasic, ValueType.IsCode]

/-- A rule applies to types that are akin only. -/
theorem Step.akin (h : Step s t p) : Akin s t := by
  cases h with
  | identity => exact .inl rfl
  | parseEnum e => exact .inr (.inr (.enum e trivial))
  | integralToEnum k e => exact .inr (.inr (.enum e trivial))
  | enumToString e => exact .inr (.inl (.enum e trivial))
  | enumToIntegral e k => exact .inr (.inl (.enum e trivial))
  | convert _ h =>
    rcases isConvertible_iff.mp h with ⟨hs, ht⟩ | ⟨rfl, ht⟩ | ⟨hs, rfl⟩
    · exact .inr (.inl (.basic hs ht))
    · exact .inr (.inl (.char ht))
    · exact .inr (.inr (.char hs))

/-- Convertible types are under a rule. -/
theorem exists_step_of_isConvertible (h : isConvertible s t = true) : ∃ p, Step s t p := by
  by_cases heq : s = t
  · subst heq
    exact ⟨_, .identity s⟩
  · exact ⟨_, .convert heq h⟩

/-- Types that are joined have a step either way. -/
theorem Joined.exists_step (h : Joined s t) : (∃ p, Step s t p) ∧ ∃ p, Step t s p := by
  cases h with
  | basic hs ht =>
    exact ⟨exists_step_of_isConvertible (isConvertible_iff.mpr (.inl ⟨hs, ht⟩)),
      exists_step_of_isConvertible (isConvertible_iff.mpr (.inl ⟨ht, hs⟩))⟩
  | char ht =>
    exact ⟨exists_step_of_isConvertible (isConvertible_iff.mpr (.inr (.inl ⟨rfl, ht⟩))),
      exists_step_of_isConvertible (isConvertible_iff.mpr (.inr (.inr ⟨ht, rfl⟩)))⟩
  | enum e ht =>
    cases t with
    | int k => exact ⟨⟨_, .enumToIntegral e k⟩, _, .integralToEnum k e⟩
    | string => exact ⟨⟨_, .enumToString e⟩, _, .parseEnum e⟩
    | _ => exact ht.elim

/-- A step leads from one type to another just when they are akin. -/
theorem exists_step_iff : (∃ p, Step s t p) ↔ Akin s t := by
  constructor
  · rintro ⟨p, h⟩
    exact h.akin
  · rintro (rfl | h | h)
    · exact ⟨_, .identity s⟩
    · exact h.exists_step.1
    · exact h.exists_step.2

/-! ## Types that plans join -/

/-- The behaviour forbids to make values of the one type nullable. -/
def Refused (s t : ValueType) (behavior : NullableBehavior) : Prop :=
  s.isNullable = false ∧ t.isNullable = true ∧ behavior = .error

/-- A plan cannot be put around a plain one just where the behaviour refuses. -/
theorem layer_eq_error_iff {failure : CoercionFailure} :
    layer s t behavior p = .error failure ↔
      failure = .nullableDisallowed ∧ Refused s t behavior := by
  unfold layer Refused
  cases s.isNullable <;> cases t.isNullable <;> cases behavior <;> simp [wrapUnder, eq_comm]

/-- No conversion leads from the one type to the other, whatever the behaviour. -/
def Foreign (s t : ValueType) : Prop :=
  s.Nests ∨ t.Nests ∨ ¬Akin s.underlying t.underlying

/-- No type within a type that nests is akin to that within another type. -/
theorem not_akin_of_nests (hne : s ≠ t) (hs : s.Nests) : ¬Akin s.underlying t.underlying := by
  intro h
  have hnullable := ValueType.nests_iff.mp hs
  by_cases heq : s.underlying = t.underlying
  · exact hne (hs.eq_of_underlying_eq heq)
  · rw [(h.not_nullable heq).1] at hnullable
    cases hnullable

/-- Different types are foreign just when the types below them are not akin. -/
theorem foreign_iff (hne : s ≠ t) : Foreign s t ↔ ¬Akin s.underlying t.underlying := by
  constructor
  · rintro (hs | ht | h)
    · exact not_akin_of_nests hne hs
    · rw [akin_comm]
      exact not_akin_of_nests hne.symm ht
    · exact h
  · intro h
    exact .inr (.inr h)

/-- Types are incompatible just when they differ and are foreign. -/
theorem resolve_eq_incompatible_iff :
    resolve s t behavior = .error .incompatible ↔ s ≠ t ∧ Foreign s t := by
  by_cases h : s = t
  · subst h
    simp [resolve_self]
  · rw [resolve_of_ne h, Except.bind_eq_error_iff, foreign_iff h]
    simp [resolvePlain_eq_error_iff, layer_eq_error_iff, exists_step_iff, h]

/-- A refusal is reported only where the types are not foreign. -/
theorem resolve_eq_nullableDisallowed_iff : resolve s t behavior = .error .nullableDisallowed ↔
    s ≠ t ∧ ¬Foreign s t ∧ Refused s t behavior := by
  by_cases h : s = t
  · subst h
    simp [resolve_self]
  · rw [resolve_of_ne h, Except.bind_eq_error_iff, foreign_iff h]
    simp [resolvePlain_eq_error_iff, resolvePlain_eq_ok_iff, layer_eq_error_iff, exists_step_iff, h]

/-- Only the same type leads to a type by the identity. -/
theorem resolve_eq_identity_iff : resolve s t behavior = .ok identity ↔ s = t := by
  constructor
  · intro h
    by_cases heq : s = t
    · exact heq
    · rw [resolve_of_ne heq] at h
      obtain ⟨inner, hstep, hlayer⟩ := Except.bind_eq_ok_iff.mp h
      rcases layer_eq_ok hlayer with ⟨-, -, hp⟩ | ⟨-, -, hp⟩ | ⟨-, -, hp⟩ | ⟨hs, ht, rfl⟩
      · cases hp
      · cases hp
      · obtain ⟨d, hd⟩ := wrapUnder_eq_ok hp
        cases hd
      · rw [ValueType.underlying_of_not_nullable hs,
          ValueType.underlying_of_not_nullable ht] at hstep
        cases step_of_resolvePlain hstep
        rfl
  · rintro rfl
    exact resolve_self s behavior

theorem exists_resolve_iff : (∃ p, resolve s t behavior = .ok p) ↔
    s = t ∨ ¬Foreign s t ∧ ¬Refused s t behavior := by
  by_cases h : s = t
  · subst h
    simp [resolve_self]
  · have hfails : (∃ failure, resolve s t behavior = .error failure) ↔
        Foreign s t ∨ Refused s t behavior := by
      constructor
      · rintro ⟨_ | _, he⟩
        · exact .inl (resolve_eq_incompatible_iff.mp he).2
        · exact .inr (resolve_eq_nullableDisallowed_iff.mp he).2.2
      · intro hbars
        by_cases hforeign : Foreign s t
        · exact ⟨_, resolve_eq_incompatible_iff.mpr ⟨h, hforeign⟩⟩
        · have hrefused := hbars.resolve_left hforeign
          exact ⟨_, resolve_eq_nullableDisallowed_iff.mpr ⟨h, hforeign, hrefused⟩⟩
    rw [← not_or, ← hfails, Except.exists_error_iff, Classical.not_not]
    simp only [h, false_or]

/-- Under a behaviour that refuses nothing, only what is within the types matters. -/
theorem exists_resolve_iff_akin (hb : behavior ≠ .error) :
    (∃ p, resolve s t behavior = .ok p) ↔ Akin s.underlying t.underlying := by
  have hrefused : ¬Refused s t behavior := fun h => hb h.2.2
  rw [exists_resolve_iff]
  by_cases h : s = t
  · subst h
    simp [Akin]
  · simp [h, hrefused, foreign_iff h]

/-- What decides which types have a plan between them. -/
structure Decided (s t : ValueType) (behavior : NullableBehavior) : Prop where
  identity : resolve s t behavior = .ok identity ↔ s = t
  incompatible : resolve s t behavior = .error .incompatible ↔ s ≠ t ∧ Foreign s t
  nullableDisallowed : resolve s t behavior = .error .nullableDisallowed ↔
    s ≠ t ∧ ¬Foreign s t ∧ Refused s t behavior
  resolved : (∃ p, resolve s t behavior = .ok p) ↔ s = t ∨ ¬Foreign s t ∧ ¬Refused s t behavior
  /-- Where nothing is refused, types have a plan either way or none. -/
  symmetric : behavior ≠ .error →
    ((∃ p, resolve t s behavior = .ok p) ↔ ∃ p, resolve s t behavior = .ok p)
  /-- Where nothing is refused, the absent value of either type makes no difference. -/
  layers : behavior ≠ .error → ¬s.Nests → ¬t.Nests → ∀ s' ∈ [s.orNull, s.underlying],
    ∀ t' ∈ [t.orNull, t.underlying],
      ((∃ p, resolve s' t' behavior = .ok p) ↔ ∃ p, resolve s t behavior = .ok p)

/-- Which types have a plan between them, and which failure the others have. -/
theorem decided (s t : ValueType) (behavior : NullableBehavior) : Decided s t behavior where
  identity := resolve_eq_identity_iff
  incompatible := resolve_eq_incompatible_iff
  nullableDisallowed := resolve_eq_nullableDisallowed_iff
  resolved := exists_resolve_iff
  symmetric hb := by rw [exists_resolve_iff_akin hb, exists_resolve_iff_akin hb, akin_comm]
  layers hb hs ht s' hs' t' ht' := by
    rw [exists_resolve_iff_akin hb, exists_resolve_iff_akin hb,
      ValueType.underlying_of_mem_layers hs hs', ValueType.underlying_of_mem_layers ht ht']

end Coercion

end Crosswalk
