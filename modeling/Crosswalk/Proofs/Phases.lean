import Crosswalk.Proofs.Results
import Crosswalk.Transform
import Mathlib.Data.List.Forall2

/-!
# The two phases of a transformation

A transformation that succeeds has read a value for each mapping and written the values one
after the other (`transform_eq_ok_iff`). What no single write breaks, it does not break
(`transform_induction`). An owner holds a value in a member when writing it again changes
nothing (`Member.Holds`). Where members retain what is written to them and no mapping writes
over what another one wrote, every target member holds its value in the end
(`holds_of_transform`), and the same transformation changes nothing any more
(`transform_of_holds`).
-/

namespace Crosswalk

variable {σ τ : Type}

/-! ## Reading -/

/-- The values that the mappings give, one by one. -/
abbrev Produced (s : σ) (ms : List (Mapping σ τ)) (vs : List Value) : Prop :=
  List.Forall₂ (fun m v => m.produce s = .ok v) ms vs

theorem readAll_eq_ok_iff {s : σ} {ms : List (Mapping σ τ)} {vs : List Value} :
    readAll s ms = .ok vs ↔ Produced s ms vs := by
  induction ms generalizing vs with
  | nil => simp [readAll, eq_comm]
  | cons m ms ih =>
    unfold readAll
    rw [Produced, List.forall₂_cons_left_iff]
    cases hm : m.produce s with
    | error cause => simp
    | ok v =>
      simp only [Except.map_eq_ok_iff, ih, Except.ok.injEq]
      constructor
      · rintro ⟨vs, hvs, rfl⟩
        exact ⟨v, vs, rfl, hvs, rfl⟩
      · rintro ⟨_, vs, rfl, hvs, rfl⟩
        exact ⟨vs, hvs, rfl⟩

theorem exists_readAll {s : σ} {ms : List (Mapping σ τ)}
    (h : ∀ m ∈ ms, ∃ v, m.produce s = .ok v) : ∃ vs, Produced s ms vs := by
  induction ms with
  | nil => exact ⟨[], .nil⟩
  | cons m ms ih =>
    obtain ⟨⟨v, hv⟩, hms⟩ := List.forall_mem_cons.mp h
    obtain ⟨vs, hvs⟩ := ih hms
    exact ⟨v :: vs, .cons hv hvs⟩

/-! ## Writing -/

section

variable {m : Mapping σ τ} {ms : List (Mapping σ τ)} {v : Value} {vs : List Value} {t t' : τ}

theorem writeAll_cons_eq_ok_iff : writeAll (m :: ms) (v :: vs) t = (.ok (), t') ↔
    ∃ t₁, m.target.write v t = (.ok (), t₁) ∧ writeAll ms vs t₁ = (.ok (), t') := by
  rw [writeAll, Update.andThen_eq_ok_iff]
  simp only [Update.mapError_eq_ok_iff]

theorem writeAll_cons_eq_error_iff {e : MappingError} :
    writeAll (m :: ms) (v :: vs) t = (.error e, t') ↔
      (∃ cause, m.target.write v t = (.error cause, t') ∧ m.failure cause = e) ∨
        ∃ t₁, m.target.write v t = (.ok (), t₁) ∧ writeAll ms vs t₁ = (.error e, t') := by
  rw [writeAll, Update.andThen_eq_error_iff]
  simp only [Update.mapError_eq_ok_iff, Update.mapError_eq_error_iff]

/-- The values are of the types of the targets, one by one. -/
abbrev FitTargets (ms : List (Mapping σ τ)) (vs : List Value) : Prop :=
  List.Forall₂ (fun m v => v.conforms m.target.type = true) ms vs

/-- The member takes every value of its type. -/
def Member.Accepting (m : Member σ) : Prop :=
  ∀ v, v.conforms m.type = true → ∀ s, ∃ s', m.write v s = (.ok (), s')

/-- Values of the types of the targets are all written. -/
theorem exists_writeAll (hvs : FitTargets ms vs) (h : ∀ m ∈ ms, m.target.Accepting) (t : τ) :
    ∃ t', writeAll ms vs t = (.ok (), t') := by
  induction hvs generalizing t with
  | nil => exact ⟨t, rfl⟩
  | cons hv _ ih =>
    obtain ⟨hm, hms⟩ := List.forall_mem_cons.mp h
    obtain ⟨t₁, h₁⟩ := hm _ hv t
    obtain ⟨t₂, h₂⟩ := ih hms t₁
    exact ⟨t₂, writeAll_cons_eq_ok_iff.mpr ⟨t₁, h₁, h₂⟩⟩

/-- A transformation succeeds if all is read, and then all is written. -/
theorem transform_eq_ok_iff {s : σ} : transform ms s t = (.ok (), t') ↔
    ∃ vs, Produced s ms vs ∧ writeAll ms vs t = (.ok (), t') := by
  unfold transform
  cases hread : readAll s ms with
  | error e =>
    have hnone : ∀ vs, ¬Produced s ms vs := by
      intro vs hvs
      rw [readAll_eq_ok_iff.mpr hvs] at hread
      cases hread
    simp [Update.fail, hnone]
  | ok vs =>
    have hvs := readAll_eq_ok_iff.mp hread
    constructor
    · intro h
      exact ⟨vs, hvs, h⟩
    · rintro ⟨vs', hvs', h⟩
      rw [readAll_eq_ok_iff.mpr hvs'] at hread
      rwa [← Except.ok.inj hread]

/-- Where each mapping gives a value of the type of its target, all values are written. -/
theorem exists_transform {s : σ}
    (h : ∀ m ∈ ms, ∃ v, m.produce s = .ok v ∧ v.conforms m.target.type = true)
    (haccepting : ∀ m ∈ ms, m.target.Accepting) (t : τ) :
    ∃ t', transform ms s t = (.ok (), t') := by
  obtain ⟨vs, hvs⟩ := exists_readAll fun m hm => (h m hm).imp fun _ => And.left
  have hfit : FitTargets ms vs := by
    refine ((List.forall₂_and_left _ _).mpr ⟨h, hvs⟩).imp ?_
    rintro m v ⟨⟨w, hw, hconforms⟩, hv⟩
    obtain rfl := Except.ok.inj (hw.symm.trans hv)
    exact hconforms
  obtain ⟨t', hwrite⟩ := exists_writeAll hfit haccepting t
  exact ⟨t', transform_eq_ok_iff.mpr ⟨vs, hvs, hwrite⟩⟩

/-- What no write of the mappings breaks, the writing phase does not break. -/
theorem writeAll_induction {s : σ} {P : τ → Prop} (hvs : Produced s ms vs)
    (hstep : ∀ m ∈ ms, ∀ v, m.produce s = .ok v → ∀ t t', m.target.write v t = (.ok (), t') →
      P t → P t')
    (h : writeAll ms vs t = (.ok (), t')) (ht : P t) : P t' := by
  induction hvs generalizing t with
  | nil =>
    obtain rfl : t = t' := congrArg Prod.snd h
    exact ht
  | cons hv _ ih =>
    obtain ⟨hm, hms⟩ := List.forall_mem_cons.mp hstep
    obtain ⟨t₁, h₁, h₂⟩ := writeAll_cons_eq_ok_iff.mp h
    exact ih hms h₂ (hm _ hv t t₁ h₁ ht)

/-- What each write keeps holds after a transformation that succeeds. -/
theorem transform_induction {s : σ} {P : τ → Prop}
    (hstep : ∀ m ∈ ms, ∀ v, m.produce s = .ok v → ∀ t t', m.target.write v t = (.ok (), t') →
      P t → P t')
    (h : transform ms s t = (.ok (), t')) (ht : P t) : P t' := by
  obtain ⟨vs, hvs, hwrite⟩ := transform_eq_ok_iff.mp h
  exact writeAll_induction hvs hstep hwrite ht

end

/-! ## Values that stay -/

namespace Member

/-- The owner holds the value in the member: writing it changes nothing. -/
def Holds (m : Member σ) (v : Value) (s : σ) : Prop := m.write v s = (.ok (), s)

/-- Writing the value to the one member leaves the other value in the other member. -/
def Keeps (a : Member σ) (v : Value) (b : Member σ) (w : Value) : Prop :=
  ∀ s s', a.write v s = (.ok (), s') → b.Holds w s → b.Holds w s'

/-- A value once written is held, and a value held is what reading gives. -/
structure Retains (m : Member σ) : Prop where
  holds : ∀ {v s s'}, m.write v s = (.ok (), s') → m.Holds v s'
  read : ∀ {v s}, m.Holds v s → m.read s = .ok v

/-- Writing the same value again leaves it. -/
theorem Retains.keeps_self {m : Member σ} (h : m.Retains) (v : Value) : m.Keeps v m v :=
  fun _ _ hwrite _ => h.holds hwrite

end Member

section

variable {s : σ} {ms : List (Mapping σ τ)} {vs : List Value} {t t' : τ}

/-- After all writes, each target holds the value of its mapping. -/
theorem holds_of_writeAll (hvs : Produced s ms vs) (hretains : ∀ m ∈ ms, m.target.Retains)
    (hkeeps : ∀ m ∈ ms, ∀ n ∈ ms, ∀ v w, m.produce s = .ok v → n.produce s = .ok w →
      n.target.Keeps w m.target v)
    (h : writeAll ms vs t = (.ok (), t')) :
    ∀ m ∈ ms, ∃ v, m.produce s = .ok v ∧ m.target.Holds v t' := by
  induction hvs generalizing t with
  | nil =>
    intro m hm
    cases hm
  | @cons m v ms vs hv hvs ih =>
    simp only [List.forall_mem_cons] at hretains hkeeps ⊢
    obtain ⟨t₁, h₁, h₂⟩ := writeAll_cons_eq_ok_iff.mp h
    constructor
    · -- The first value is there after its own write, and the other writes leave it.
      have hheld : m.target.Holds v t₁ := hretains.1.holds h₁
      refine ⟨v, hv, writeAll_induction hvs ?_ h₂ hheld⟩
      intro n hn w hw
      exact hkeeps.1.2 n hn v w hv hw
    · exact ih hretains.2 (fun m hm => (hkeeps.2 m hm).2) h₂

/-- In the end every target member holds the value of its mapping. -/
theorem holds_of_transform (hretains : ∀ m ∈ ms, m.target.Retains)
    (hkeeps : ∀ m ∈ ms, ∀ n ∈ ms, ∀ v w, m.produce s = .ok v → n.produce s = .ok w →
      n.target.Keeps w m.target v)
    (h : transform ms s t = (.ok (), t')) :
    ∀ m ∈ ms, ∃ v, m.produce s = .ok v ∧ m.target.Holds v t' := by
  obtain ⟨vs, hvs, hwrite⟩ := transform_eq_ok_iff.mp h
  exact holds_of_writeAll hvs hretains hkeeps hwrite

/-- A target that holds all values is left as it is. -/
theorem transform_of_holds (h : ∀ m ∈ ms, ∃ v, m.produce s = .ok v ∧ m.target.Holds v t) :
    transform ms s t = (.ok (), t) := by
  obtain ⟨vs, hvs⟩ := exists_readAll fun m hm => (h m hm).imp fun _ => And.left
  refine transform_eq_ok_iff.mpr ⟨vs, hvs, ?_⟩
  induction hvs with
  | nil => rfl
  | cons hv _ ih =>
    obtain ⟨⟨w, hw, hheld⟩, hms⟩ := List.forall_mem_cons.mp h
    obtain rfl := Except.ok.inj (hv.symm.trans hw)
    exact writeAll_cons_eq_ok_iff.mpr ⟨t, hheld, ih hms⟩

end

end Crosswalk
