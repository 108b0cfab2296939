import Crosswalk.Proofs.Phases

/-!
# Where a transformation stops

A transformation ends in one of three ways (`Ends`). A mapping fails to read or to coerce: the
first such is blamed, and the target stays as it was. All mappings yield values, and some write
fails: the first such is blamed, and the target is what that write left of it after the writes
before. Or every value is written. Nothing is asked of the mappings, whose members, functions and
computations may do anything. Each phase blames the first element of its list that fails
(`readAll_eq_error_iff`, `writeAll_eq_error_iff`).
-/

namespace Crosswalk

variable {σ τ : Type}

/-! ## Readings and writings -/

namespace Mapping

variable {m : Mapping σ τ} {s : σ} {v : Value} {cause : AccessError}

/-- The computation of the mapping has a value on the source, and the plan makes `v` of it. -/
def Yields (m : Mapping σ τ) (s : σ) (v : Value) : Prop :=
  ∃ u, m.source.eval s = .ok u ∧ m.plan.apply u = .ok v

/-- The computation of the mapping fails on the source, or the plan on the value of it. -/
inductive Misses (m : Mapping σ τ) (s : σ) (cause : AccessError) : Prop
  | reading (h : m.source.eval s = .error cause)
  | coercing (u : Value) (hu : m.source.eval s = .ok u) (h : m.plan.apply u = .error cause)

theorem produce_eq_ok_iff : m.produce s = .ok v ↔ m.Yields s v := by
  rw [produce_eq_bind, Except.bind_eq_ok_iff, Yields]

theorem produce_eq_error_iff : m.produce s = .error cause ↔ m.Misses s cause := by
  rw [produce_eq_bind, Except.bind_eq_error_iff]
  constructor
  · rintro (h | ⟨u, hu, h⟩)
    · exact .reading h
    · exact .coercing u hu h
  · rintro (h | ⟨u, hu, h⟩)
    · exact .inl h
    · exact .inr ⟨u, hu, h⟩

end Mapping

/-- Each mapping yields its value. -/
abbrev AllYield (s : σ) (ms : List (Mapping σ τ)) (vs : List Value) : Prop :=
  List.Forall₂ (fun m v => m.Yields s v) ms vs

/-- Writing the values to the targets of their mappings, one after the other, makes of the one
target the other. -/
inductive Writes : List (Mapping σ τ × Value) → τ → τ → Prop
  | nil (t : τ) : Writes [] t t
  | cons {m : Mapping σ τ} {v : Value} {rest : List (Mapping σ τ × Value)} {t t₁ t₂ : τ}
      (h : m.target.write v t = (.ok (), t₁)) (hrest : Writes rest t₁ t₂) :
      Writes ((m, v) :: rest) t t₂

/-- How a transformation of `t` by the mappings ends: its result, and the target it leaves. -/
inductive Ends (ms : List (Mapping σ τ)) (s : σ) (t : τ) : Except MappingError Unit × τ → Prop
  /-- A mapping misses, and none before it does. -/
  | unread {before after : List (Mapping σ τ)} {m : Mapping σ τ} {cause : AccessError}
      (hms : ms = before ++ m :: after) (hbefore : ∀ n ∈ before, ∃ v, n.Yields s v)
      (hm : m.Misses s cause) :
      Ends ms s t (.error (.transform m.target.shortOwner m.target.name cause), t)
  /-- No mapping misses, and a write fails after those before it. -/
  | unwritten {vs : List Value} {before after : List (Mapping σ τ × Value)} {m : Mapping σ τ}
      {v : Value} {t₁ t₂ : τ} {cause : AccessError} (hvs : AllYield s ms vs)
      (hplace : ms.zip vs = before ++ (m, v) :: after) (hbefore : Writes before t t₁)
      (hm : m.target.write v t₁ = (.error cause, t₂)) :
      Ends ms s t (.error (.transform m.target.shortOwner m.target.name cause), t₂)
  /-- No mapping misses, and no write fails. -/
  | written {vs : List Value} {t' : τ} (hvs : AllYield s ms vs) (h : Writes (ms.zip vs) t t') :
      Ends ms s t (.ok (), t')

/-! ## The first that fails -/

/-- A place in a list is that of its head, or one in its tail. -/
theorem exists_place_cons_iff {α : Type} {P : List α → α → List α → Prop} {a : α}
    {as : List α} : (∃ before b after, a :: as = before ++ b :: after ∧ P before b after) ↔
      P [] a as ∨ ∃ before b after, as = before ++ b :: after ∧ P (a :: before) b after := by
  constructor
  · rintro ⟨before, b, after, has, h⟩
    rcases List.cons_eq_append_iff.mp has with ⟨rfl, hb⟩ | ⟨before, rfl, rfl⟩
    · obtain ⟨rfl, rfl⟩ := List.cons.inj hb
      exact .inl h
    · exact .inr ⟨before, b, after, rfl, h⟩
  · rintro (h | ⟨before, b, after, rfl, h⟩)
    · exact ⟨[], a, as, rfl, h⟩
    · exact ⟨a :: before, b, after, rfl, h⟩

section

variable {m : Mapping σ τ} {ms : List (Mapping σ τ)} {v : Value} {vs : List Value}
  {rest : List (Mapping σ τ × Value)} {s : σ} {t t' : τ} {e : MappingError}

theorem allYield_iff : AllYield s ms vs ↔ readAll s ms = .ok vs := by
  simp only [readAll_eq_ok_iff, Produced, Mapping.produce_eq_ok_iff]

/-- Reading fails by the first mapping that misses. -/
theorem readAll_eq_error_iff : readAll s ms = .error e ↔
    ∃ before m after, ms = before ++ m :: after ∧ (∀ n ∈ before, ∃ v, n.Yields s v) ∧
      ∃ cause, m.Misses s cause ∧ m.failure cause = e := by
  induction ms with
  | nil => simp [readAll]
  | cons m ms ih =>
    rw [exists_place_cons_iff, readAll]
    simp only [← Mapping.produce_eq_ok_iff, ← Mapping.produce_eq_error_iff] at ih ⊢
    cases hm : m.produce s with
    | error cause => simp [hm]
    | ok v => simp [hm, Except.map_eq_error_iff, ih]

theorem writes_nil_iff : Writes ([] : List (Mapping σ τ × Value)) t t' ↔ t = t' := by
  constructor
  · rintro ⟨⟩
    rfl
  · rintro rfl
    exact .nil t

theorem writes_cons_iff : Writes ((m, v) :: rest) t t' ↔
    ∃ t₁, m.target.write v t = (.ok (), t₁) ∧ Writes rest t₁ t' := by
  constructor
  · rintro ⟨⟩
    exact ⟨_, ‹_›, ‹_›⟩
  · rintro ⟨t₁, h, hrest⟩
    exact .cons h hrest

/-- The writes of a run succeed just when they can be made one after the other. -/
theorem writes_zip_iff : Writes (ms.zip vs) t t' ↔ writeAll ms vs t = (.ok (), t') := by
  induction ms generalizing vs t with
  | nil => simp [writeAll, writes_nil_iff]
  | cons m ms ih =>
    cases vs with
    | nil => simp [writeAll, writes_nil_iff]
    | cons v vs => simp only [List.zip_cons_cons, writes_cons_iff, writeAll_cons_eq_ok_iff, ih]

/-- Writing fails by the first write that fails. -/
theorem writeAll_eq_error_iff : writeAll ms vs t = (.error e, t') ↔
    ∃ before p after, ms.zip vs = before ++ p :: after ∧ ∃ t₁, Writes before t t₁ ∧
      ∃ cause, p.1.target.write p.2 t₁ = (.error cause, t') ∧ p.1.failure cause = e := by
  induction ms generalizing vs t with
  | nil => simp [writeAll]
  | cons m ms ih =>
    cases vs with
    | nil => simp [writeAll]
    | cons v vs =>
      rw [List.zip_cons_cons, exists_place_cons_iff, writeAll_cons_eq_error_iff]
      simp only [writes_nil_iff, writes_cons_iff, ih, exists_eq_left']
      refine or_congr_right ?_
      constructor
      · rintro ⟨t₁, h, before, p, after, hplace, t₂, hbefore, hp⟩
        exact ⟨before, p, after, hplace, t₂, ⟨t₁, h, hbefore⟩, hp⟩
      · rintro ⟨before, p, after, hplace, t₂, ⟨t₁, h, hbefore⟩, hp⟩
        exact ⟨t₁, h, before, p, after, hplace, t₂, hbefore, hp⟩

/-! ## Endings -/

/-- Every run ends in one of the ways. -/
theorem ends_transform (ms : List (Mapping σ τ)) (s : σ) (t : τ) :
    Ends ms s t (transform ms s t) := by
  unfold transform
  cases hread : readAll s ms with
  | error e =>
    obtain ⟨before, m, after, hms, hbefore, cause, hm, rfl⟩ := readAll_eq_error_iff.mp hread
    exact .unread hms hbefore hm
  | ok vs =>
    have hvs : AllYield s ms vs := allYield_iff.mpr hread
    show Ends ms s t (writeAll ms vs t)
    cases hwrite : writeAll ms vs t with
    | mk r t' =>
      cases r with
      | ok u => exact .written hvs (writes_zip_iff.mpr hwrite)
      | error e =>
        obtain ⟨before, ⟨m, v⟩, after, hplace, t₁, hbefore, cause, hm, rfl⟩ :=
          writeAll_eq_error_iff.mp hwrite
        exact .unwritten hvs hplace hbefore hm

/-- The way a run ends determines its result and what it leaves. -/
theorem Ends.transform_eq {x : Except MappingError Unit × τ} (h : Ends ms s t x) :
    transform ms s t = x := by
  unfold transform
  cases h with
  | unread hms hbefore hm =>
    rw [readAll_eq_error_iff.mpr ⟨_, _, _, hms, hbefore, _, hm, rfl⟩]
    rfl
  | unwritten hvs hplace hbefore hm =>
    rw [allYield_iff.mp hvs]
    exact writeAll_eq_error_iff.mpr ⟨_, _, _, hplace, _, hbefore, _, hm, rfl⟩
  | written hvs h =>
    rw [allYield_iff.mp hvs]
    exact writes_zip_iff.mp h

/-- A failed transformation names the target member of one of its mappings. -/
theorem failure_of_transform (h : (transform ms s t).1 = .error e) :
    ∃ m ∈ ms, ∃ cause, e = m.failure cause := by
  have hends := ends_transform ms s t
  generalize transform ms s t = x at h hends
  cases hends with
  | @unread before after m cause hms =>
    cases h
    exact ⟨m, by simp [hms], cause, rfl⟩
  | @unwritten vs before after m v _ _ cause _ hplace =>
    cases h
    have hmem : (m, v) ∈ ms.zip vs := by simp [hplace]
    exact ⟨m, (List.of_mem_zip hmem).1, cause, rfl⟩
  | written => cases h

/-- A transformation ends in just one way: it blames the first mapping that misses and leaves
the target as it was, or blames the first write that fails after the writes before it, or writes
all values. What it blames are always the target and the cause of one of its mappings. -/
theorem transform_eq_iff_ends (ms : List (Mapping σ τ)) (s : σ) (t : τ) :
    (∀ x, transform ms s t = x ↔ Ends ms s t x) ∧
      ∀ e, (transform ms s t).1 = .error e →
        ∃ m ∈ ms, ∃ cause, e = .transform m.target.shortOwner m.target.name cause := by
  refine ⟨fun x => ⟨?_, Ends.transform_eq⟩, fun e => failure_of_transform⟩
  rintro rfl
  exact ends_transform ms s t

end

end Crosswalk
