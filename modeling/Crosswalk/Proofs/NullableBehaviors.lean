import Crosswalk.Proofs.CoercionChoice
import Crosswalk.Proofs.Variants

/-!
# What the nullable behaviour decides

The nullable behaviour matters to one kind of plan only, that of a value which cannot be absent
into a nullable member (`Coercion.resolve_cases`). Two behaviours wrap the value, and differ in
whether its default becomes absent; the third refuses. What validates under one of the two hence
validates under the other to the same list but for that difference, and under the third if
nothing in the list is wrapped (`Configuration.validate_withNullableBehavior`). The arguments of
functions have a behaviour of their own, which no configuration changes.
-/

namespace Crosswalk

variable {σ τ : Type}

namespace Coercion

/-- The plan puts values into a nullable type. -/
def wraps : Coercion → Bool
  | wrap _ _ => true
  | _ => false

/-- The plan with the default of `source` absent, if it puts values into a nullable type. -/
def nulling (source : ValueType) : Coercion → Coercion
  | wrap inner _ => wrap inner (some source)
  | plan => plan

/-- Only a plan that wraps is changed. -/
theorem nulling_of_not_wraps {plan : Coercion} (h : plan.wraps = false) (source : ValueType) :
    plan.nulling source = plan := by
  cases plan with
  | wrap => cases h
  | _ => rfl

theorem Step.not_wraps {source target : ValueType} {plan : Coercion}
    (h : Step source target plan) : plan.wraps = false := by
  cases h <;> rfl

/-- Either the behaviour does not matter, and no plan wraps, or it decides the wrapping. -/
theorem resolve_cases (source target : ValueType) :
    (∃ x, (∀ behavior, resolve source target behavior = x) ∧
      ∀ plan, x = .ok plan → plan.wraps = false) ∨
    ∃ x, ∀ behavior, resolve source target behavior =
      Except.bind x fun inner => wrapUnder source inner behavior := by
  by_cases heq : source = target
  · refine .inl ⟨.ok identity, fun _ => if_pos heq, ?_⟩
    rintro plan ⟨⟩
    rfl
  · by_cases hwrap : source.isNullable = false ∧ target.isNullable = true
    · refine .inr ⟨resolvePlain source.underlying target.underlying, fun behavior => ?_⟩
      rw [resolve_of_ne heq, layer_into_nullable hwrap.1 hwrap.2]
    · refine .inl ⟨resolve source target .error, fun behavior => ?_, fun plan hplan => ?_⟩
      · rw [resolve_of_ne heq, resolve_of_ne heq, layer_eq_layer hwrap]
      · rw [resolve_of_ne heq] at hplan
        obtain ⟨inner, hinner, hlayer⟩ := Except.bind_eq_ok_iff.mp hplan
        rcases layer_eq_ok hlayer with ⟨-, -, rfl⟩ | ⟨-, -, rfl⟩ | ⟨hs, ht, -⟩ | ⟨-, -, rfl⟩
        · rfl
        · rfl
        · exact absurd ⟨hs, ht⟩ hwrap
        · exact (step_of_resolvePlain hinner).not_wraps

/-- The two behaviours that wrap choose alike, but for the default that becomes absent. -/
theorem resolve_defaultMapsToNull (source target : ValueType) :
    resolve source target .defaultMapsToNull =
      (resolve source target .assignDefaultAsIs).map (nulling source) := by
  rcases resolve_cases source target with ⟨x, hx, hplain⟩ | ⟨x, hx⟩
  · rw [hx, hx]
    cases x with
    | error failure => rfl
    | ok plan => rw [Except.map, nulling_of_not_wraps (hplain plan rfl)]
  · rw [hx, hx]
    cases x <;> rfl

/-- The behaviour that refuses chooses the plans of another that do not wrap. -/
theorem resolve_error_eq_ok_iff {behavior : NullableBehavior} (hb : behavior ≠ .error)
    {source target : ValueType} {plan : Coercion} : resolve source target .error = .ok plan ↔
      resolve source target behavior = .ok plan ∧ plan.wraps = false := by
  rcases resolve_cases source target with ⟨x, hx, hplain⟩ | ⟨x, hx⟩
  · rw [hx, hx]
    exact (and_iff_left_of_imp (hplain plan)).symm
  · have hrefused : resolve source target .error ≠ .ok plan := by
      rw [hx]
      cases x <;> nofun
    refine iff_of_false hrefused fun ⟨hplan, hwraps⟩ => ?_
    rw [hx] at hplan
    obtain ⟨inner, -, hplan⟩ := Except.bind_eq_ok_iff.mp hplan
    cases behavior with
    | error => exact hb rfl
    | defaultMapsToNull | assignDefaultAsIs =>
      cases hplan
      cases hwraps

end Coercion

/-! ## Mappings -/

/-- The mapping with the default of its source absent, if it fills a nullable member. -/
def Mapping.nulling (m : Mapping σ τ) : Mapping σ τ :=
  { m with plan := m.plan.nulling m.source.valueType }

namespace Configuration

variable {c : Configuration σ τ} {behavior : NullableBehavior}

theorem sameMembers_withNullableBehavior (c : Configuration σ τ) (b b' : NullableBehavior) :
    (c.withNullableBehavior b).SameMembers (c.withNullableBehavior b') := ⟨rfl, rfl, rfl, rfl, rfl⟩

/-- Mapping defaults to null changes the plan of a mapping, and nothing else of it. -/
theorem makeMapping_defaultMapsToNull (source : Computation σ) (t : Member τ) :
    (c.withNullableBehavior .defaultMapsToNull).makeMapping source t =
      ((c.withNullableBehavior .assignDefaultAsIs).makeMapping source t).map Mapping.nulling := by
  simp only [makeMapping, withNullableBehavior, Mapping.make, Coercion.resolve_defaultMapsToNull]
  split
  · rfl
  · split
    · rfl
    · cases Coercion.resolve source.valueType t.type .assignDefaultAsIs with
      | ok plan => rfl
      | error failure => cases failure <;> rfl

/-- The behaviour that refuses makes the mappings of another that do not wrap. -/
theorem makeMapping_error_eq_ok_iff (hb : behavior ≠ .error) {m : Mapping σ τ} :
    (c.withNullableBehavior .error).makeMapping m.source m.target = .ok m ↔
      (c.withNullableBehavior behavior).makeMapping m.source m.target = .ok m ∧
        m.plan.wraps = false := by
  constructor
  · intro h
    obtain ⟨-, -, hwrite, hread, hplan⟩ := makeMapping_eq_ok h
    obtain ⟨hplan, hwraps⟩ := (Coercion.resolve_error_eq_ok_iff hb).mp hplan
    exact ⟨makeMapping_of_resolve hwrite hread hplan, hwraps⟩
  · rintro ⟨h, hwraps⟩
    obtain ⟨-, -, hwrite, hread, hplan⟩ := makeMapping_eq_ok h
    refine makeMapping_of_resolve hwrite hread ?_
    exact (Coercion.resolve_error_eq_ok_iff hb).mpr ⟨hplan, hwraps⟩

/-! ## Validated lists -/

/-- The behaviour that refuses accepts what another accepts, where no mapping wraps. -/
theorem validate_error_eq_ok_iff (hb : behavior ≠ .error) {ms : List (Mapping σ τ)} :
    (c.withNullableBehavior .error).validate = .ok ms ↔
      (c.withNullableBehavior behavior).validate = .ok ms ∧ ∀ m ∈ ms, m.plan.wraps = false := by
  constructor
  · intro h
    have hallowed := fun m hm => (makeMapping_error_eq_ok_iff hb).mp (allowed_of_validate h m hm)
    refine ⟨?_, fun m hm => (hallowed m hm).2⟩
    exact (c.sameMembers_withNullableBehavior behavior .error).validate_eq_ok rfl (.refl _) h
      fun m hm => (hallowed m hm).1
  · rintro ⟨h, hwraps⟩
    refine (c.sameMembers_withNullableBehavior .error behavior).validate_eq_ok rfl (.refl _) h
      fun m hm => ?_
    exact (makeMapping_error_eq_ok_iff hb).mpr ⟨allowed_of_validate h m hm, hwraps m hm⟩

/-- The behaviour decides the wrapping only. The two behaviours that wrap fail alike, and their
lists differ in the defaults that become absent; the third accepts what each of them accepts
without wrapping, with the same list. No behaviour changes what overrides compute. -/
theorem validate_withNullableBehavior (c : Configuration σ τ) :
    (c.withNullableBehavior .defaultMapsToNull).validate =
      (c.withNullableBehavior .assignDefaultAsIs).validate.map (List.map Mapping.nulling) ∧
    (∀ behavior, behavior ≠ .error → ∀ ms, (c.withNullableBehavior .error).validate = .ok ms ↔
      (c.withNullableBehavior behavior).validate = .ok ms ∧ ∀ m ∈ ms, m.plan.wraps = false) ∧
    ∀ behavior b, (c.withNullableBehavior behavior).resolveBinding b = c.resolveBinding b := by
  have hsame := c.sameMembers_withNullableBehavior .defaultMapsToNull .assignDefaultAsIs
  refine ⟨hsame.validate_eq_map rfl rfl makeMapping_defaultMapsToNull,
    fun behavior hb ms => validate_error_eq_ok_iff hb, fun behavior b => ?_⟩
  exact (c.sameMembers_withNullableBehavior behavior c.options.nullableBehavior).resolveBinding_eq b

/-- Forms to patients: the age, which patients may be without, and a group by age. -/
def intake : Configuration Record Record :=
  let form : RecordSchema := ⟨"Form", [⟨"Age", .int .i32⟩]⟩
  let patient : RecordSchema := ⟨"Patient", [⟨"Age", .nullable (.int .i32)⟩, ⟨"Group", .string⟩]⟩
  let group : Function :=
    .unary 1 "group" (.option (.int .i32)) .string fun age => if age.isSome then "A" else "B"
  (new "Form" "Patient" form.members patient.members).mapExpr "Group"
    (.call group [.member "Age"])

/-- The behaviour that refuses minds the age, and not the argument of the function. -/
theorem validate_withNullableBehavior_intake : ∃ ms,
    (intake.withNullableBehavior .assignDefaultAsIs).validate = .ok ms ∧
    ms.map Mapping.plan = [.wrap .identity none, .identity] ∧
    (intake.withNullableBehavior .defaultMapsToNull).validate = .ok (ms.map Mapping.nulling) ∧
    (ms.map Mapping.nulling).map Mapping.plan = [.wrap .identity (some (.int .i32)), .identity] ∧
    (¬∃ ms', (intake.withNullableBehavior .error).validate = .ok ms') ∧
    ∃ ms', ((intake.ignoreTarget "Age").withNullableBehavior .error).validate = .ok ms' ∧
      ms'.map Mapping.plan = [.identity] := by
  have hms : ∃ ms, (intake.withNullableBehavior .assignDefaultAsIs).validate = .ok ms ∧
      ms.map Mapping.plan = [.wrap .identity none, .identity] ∧
      (ms.map Mapping.nulling).map Mapping.plan =
        [.wrap .identity (some (.int .i32)), .identity] := ⟨_, rfl, rfl, rfl⟩
  have hrest : ∃ ms', ((intake.ignoreTarget "Age").withNullableBehavior .assignDefaultAsIs).validate
      = .ok ms' ∧ ms'.map Mapping.plan = [.identity] := ⟨_, rfl, rfl⟩
  obtain ⟨ms, hms, hplans, hnulled⟩ := hms
  obtain ⟨ms', hms', hplans'⟩ := hrest
  obtain ⟨hdefault, hrefuses, -⟩ := validate_withNullableBehavior intake
  obtain ⟨-, haccepts, -⟩ := validate_withNullableBehavior (intake.ignoreTarget "Age")
  rw [hms, Except.map] at hdefault
  refine ⟨ms, hms, hplans, hdefault, hnulled, ?_, ms', ?_, hplans'⟩
  · rintro ⟨ms₂, hms₂⟩
    obtain ⟨hsame, hplain⟩ := (hrefuses .assignDefaultAsIs nofun ms₂).mp hms₂
    obtain rfl := Except.ok.inj (hms.symm.trans hsame)
    have hwraps : ∀ plan ∈ ms.map Mapping.plan, plan.wraps = false :=
      List.forall_mem_map.mpr hplain
    rw [hplans] at hwraps
    cases hwraps _ List.mem_cons_self
  · refine (haccepts .assignDefaultAsIs nofun ms').mpr ⟨hms', ?_⟩
    have hwraps : ∀ plan ∈ ms'.map Mapping.plan, plan.wraps = false := by
      rw [hplans']
      exact List.forall_mem_singleton.mpr rfl
    exact List.forall_mem_map.mp hwraps

end Configuration

end Crosswalk
