import Crosswalk.Update
import Mathlib.Data.List.Nodup

/-!
# Results that may fail

When a sequence of two steps, or a step with its result changed, succeeds: the first step
succeeds, and so does the second on its result. It fails where one of the two does. Changing
the result may be put off to the second step or taken into it.
`Except.collect` is a pass over a list, which succeeds just when each of its steps does
(`Except.exists_collect_iff`). `Except.Gives` says what a result is, whether it is a success or
a failure, and passes along such sequences. A search of a list by a key finds what has the key,
and where no two elements share a key it finds each of them (`find?_of_nodup_map`).
-/

namespace Crosswalk

variable {ε α β γ : Type}

/-- Two steps succeed if the first does, and the second on its value. -/
theorem Except.bind_eq_ok_iff {x : Except ε α} {f : α → Except ε β} {b : β} :
    x.bind f = .ok b ↔ ∃ a, x = .ok a ∧ f a = .ok b := by
  cases x <;> simp [Except.bind]

theorem Except.map_eq_ok_iff {x : Except ε α} {f : α → β} {b : β} :
    x.map f = .ok b ↔ ∃ a, x = .ok a ∧ f a = b := by
  cases x <;> simp [Except.map]

/-- Two steps fail by the first, or by the second on the value of the first. -/
theorem Except.bind_eq_error_iff {x : Except ε α} {f : α → Except ε β} {e : ε} :
    x.bind f = .error e ↔ x = .error e ∨ ∃ a, x = .ok a ∧ f a = .error e := by
  cases x <;> simp [Except.bind]

theorem Except.map_eq_error_iff {x : Except ε α} {f : α → β} {e : ε} :
    x.map f = .error e ↔ x = .error e := by
  cases x <;> simp [Except.map]

theorem Except.exists_error_iff {x : Except ε α} : (∃ e, x = .error e) ↔ ¬∃ a, x = .ok a := by
  cases x <;> simp

/-- It does not matter where a run of three steps is parted. -/
theorem Except.bind_bind {x : Except ε α} {f : α → Except ε β} {g : β → Except ε γ} :
    (x.bind f).bind g = x.bind fun a => (f a).bind g := by
  cases x <;> rfl

theorem Except.map_bind {x : Except ε α} {f : α → Except ε β} {g : β → γ} :
    (x.bind f).map g = x.bind fun a => (f a).map g := by
  cases x <;> rfl

theorem Except.bind_map {x : Except ε α} {f : α → β} {g : β → Except ε γ} :
    (x.map f).bind g = x.bind fun a => g (f a) := by
  cases x <;> rfl

theorem Except.map_map {x : Except ε α} {f : α → β} {g : β → γ} :
    (x.map f).map g = x.map fun a => g (f a) := by
  cases x <;> rfl

/-- Renaming failures keeps what succeeds. -/
theorem Except.mapError_eq_ok_iff {ε' : Type} {x : Except ε α} {f : ε → ε'} {a : α} :
    x.mapError f = .ok a ↔ x = .ok a := by
  cases x with
  | ok b => exact ⟨fun h => by cases h; rfl, fun h => by cases h; rfl⟩
  | error e => exact ⟨nofun, nofun⟩

theorem Except.mapError_eq_error_iff {ε' : Type} {x : Except ε α} {f : ε → ε'} {e' : ε'} :
    x.mapError f = .error e' ↔ ∃ e, x = .error e ∧ f e = e' := by
  cases x with
  | ok b => exact ⟨nofun, nofun⟩
  | error e =>
    constructor
    · intro h
      cases h
      exact ⟨e, rfl, rfl⟩
    · rintro ⟨e₁, h, rfl⟩
      cases h
      rfl

/-- Renaming the failures of two steps is renaming those of each. -/
theorem Except.mapError_bind {ε' : Type} {x : Except ε α} {f : α → Except ε β} {g : ε → ε'} :
    (x.bind f).mapError g = (x.mapError g).bind fun a => (f a).mapError g := by
  cases x <;> rfl

theorem Except.mapError_map {ε' : Type} {x : Except ε α} {f : α → β} {g : ε → ε'} :
    (x.map f).mapError g = (x.mapError g).map f := by
  cases x <;> rfl

/-- Two updates succeed if the first does, and the second on what it leaves. -/
theorem Update.andThen_eq_ok_iff {σ : Type} {u v : Update ε σ} {s s' : σ} :
    u.andThen v s = (.ok (), s') ↔ ∃ s₁, u s = (.ok (), s₁) ∧ v s₁ = (.ok (), s') := by
  unfold andThen
  split
  · next s₁ h => simp [h]
  · next e s₁ h => simp [h]

theorem Update.mapError_eq_ok_iff {ε' σ : Type} {f : ε → ε'} {u : Update ε σ} {s s' : σ} :
    u.mapError f s = (.ok (), s') ↔ u s = (.ok (), s') := by
  unfold mapError
  split
  · next s₁ h => simp [h]
  · next e s₁ h => simp [h]

/-- Two updates fail by the first, or by the second on what the first leaves. -/
theorem Update.andThen_eq_error_iff {σ : Type} {u v : Update ε σ} {s s' : σ} {e : ε} :
    u.andThen v s = (.error e, s') ↔
      u s = (.error e, s') ∨ ∃ s₁, u s = (.ok (), s₁) ∧ v s₁ = (.error e, s') := by
  unfold andThen
  split
  · next s₁ h => simp [h]
  · next e₁ s₁ h => simp [h]

/-- Renaming failures keeps what a failed update leaves. -/
theorem Update.mapError_eq_error_iff {ε' σ : Type} {f : ε → ε'} {u : Update ε σ} {s s' : σ}
    {e' : ε'} : u.mapError f s = (.error e', s') ↔ ∃ e, u s = (.error e, s') ∧ f e = e' := by
  unfold mapError
  split
  · next s₁ h => simp [h]
  · next e s₁ h => simp [h, and_assoc, and_comm (a := f e = e')]

/-- What a step gives for the elements in turn, or its first failure. -/
def Except.collect (f : α → Except ε (Option β)) : List α → Except ε (List β)
  | [] => .ok []
  | a :: as => (f a).bind fun b => (collect f as).map fun bs => b.toList ++ bs

/-- A loop is the same by functions that agree on its items. -/
theorem Except.collect_congr {f g : α → Except ε (Option β)} {as : List α}
    (h : ∀ a ∈ as, f a = g a) : collect f as = collect g as := by
  induction as with
  | nil => rfl
  | cons a as ih =>
    rw [collect, collect, h a List.mem_cons_self, ih fun b hb => h b (List.mem_cons_of_mem _ hb)]

/-- A pass over a list succeeds just when each step does. -/
theorem Except.exists_collect_iff {f : α → Except ε (Option β)} {as : List α} :
    (∃ bs, collect f as = .ok bs) ↔ ∀ a ∈ as, ∃ b, f a = .ok b := by
  induction as with
  | nil => simp [collect]
  | cons a as ih =>
    simp only [collect, bind_eq_ok_iff, map_eq_ok_iff, List.forall_mem_cons, ← ih]
    constructor
    · rintro ⟨_, b, hb, bs, hbs, -⟩
      exact ⟨⟨b, hb⟩, bs, hbs⟩
    · rintro ⟨⟨b, hb⟩, bs, hbs⟩
      exact ⟨_, b, hb, bs, hbs, rfl⟩

/-- What a pass gives is what its steps give. -/
theorem Except.mem_collect_iff {f : α → Except ε (Option β)} {as : List α} {bs : List β}
    (h : collect f as = .ok bs) {b : β} : b ∈ bs ↔ ∃ a ∈ as, f a = .ok (some b) := by
  induction as generalizing bs with
  | nil =>
    cases h
    simp
  | cons a as ih =>
    obtain ⟨b', hb', h⟩ := bind_eq_ok_iff.mp h
    obtain ⟨bs', hbs', rfl⟩ := map_eq_ok_iff.mp h
    simp only [List.mem_append, ih hbs', List.mem_cons, exists_eq_or_imp, hb', Option.mem_toList,
      Except.ok.injEq]

/-- What holds between elements in their order holds between what the steps give for them. -/
theorem Except.pairwise_collect {f : α → Except ε (Option β)} {as : List α} {bs : List β}
    {R : α → α → Prop} {S : β → β → Prop} (h : collect f as = .ok bs) (hR : as.Pairwise R)
    (hS : ∀ a a' b b', f a = .ok (some b) → f a' = .ok (some b') → R a a' → S b b') :
    bs.Pairwise S := by
  induction as generalizing bs with
  | nil =>
    cases h
    exact .nil
  | cons a as ih =>
    obtain ⟨b?, hb, h⟩ := bind_eq_ok_iff.mp h
    obtain ⟨bs, hbs, rfl⟩ := map_eq_ok_iff.mp h
    rw [List.pairwise_cons] at hR
    cases b? with
    | none => exact ih hbs hR.2
    | some b =>
      refine List.pairwise_cons.mpr ⟨fun b' hb' => ?_, ih hbs hR.2⟩
      obtain ⟨a', ha', hfa'⟩ := (mem_collect_iff hbs).mp hb'
      exact hS a a' b b' hb hfa' (hR.1 a' ha')

/-- Renaming the failures of each item renames that of the loop. -/
theorem Except.mapError_collect {ε' : Type} (f : α → Except ε (Option β)) (g : ε → ε')
    (as : List α) : (collect f as).mapError g = collect (fun a => (f a).mapError g) as := by
  induction as with
  | nil => rfl
  | cons a as ih => simp only [collect, mapError_bind, mapError_map, ih]

/-- A success is of the one kind, a failure of the other. -/
def Except.Gives (good : α → Prop) (bad : ε → Prop) : Except ε α → Prop
  | .ok a => good a
  | .error e => bad e

namespace Except.Gives

variable {good good' : α → Prop} {after : β → Prop} {bad bad' : ε → Prop} {x : Except ε α}

theorem of_ok {a : α} (h : Except.Gives good bad x) (hx : x = .ok a) : good a := by
  subst hx
  exact h

theorem of_error {e : ε} (h : Except.Gives good bad x) (hx : x = .error e) : bad e := by
  subst hx
  exact h

/-- A second step that fails in the same way keeps the kind of failure. -/
theorem bind {f : α → Except ε β} (h : Except.Gives good bad x)
    (hf : ∀ a, good a → Except.Gives after bad (f a)) : Except.Gives after bad (x.bind f) := by
  cases x with
  | ok a => exact hf a h
  | error e => exact h

/-- A function that keeps what is good can be put behind. -/
theorem map {f : α → β} (h : Except.Gives good bad x) (hf : ∀ a, good a → after (f a)) :
    Except.Gives after bad (x.map f) := by
  cases x with
  | ok a => exact hf a h
  | error e => exact h

/-- What a result gives can be said more weakly. -/
theorem mono (h : Except.Gives good bad x) (hgood : ∀ a, good a → good' a)
    (hbad : ∀ e, bad e → bad' e) : Except.Gives good' bad' x := by
  cases x with
  | ok a => exact hgood a h
  | error e => exact hbad e h

end Except.Gives

/-- A search by a key that no two elements share finds the element. -/
theorem find?_of_nodup_map {α κ : Type} [BEq κ] [LawfulBEq κ] {key : α → κ} {as : List α} {a : α}
    (h : (as.map key).Nodup) (ha : a ∈ as) : as.find? (fun b => key b == key a) = some a := by
  have hfound : (as.find? fun b => key b == key a).isSome = true :=
    List.find?_isSome.mpr ⟨a, ha, beq_self_eq_true (key a)⟩
  obtain ⟨b, hb⟩ := Option.isSome_iff_exists.mp hfound
  have hkey := List.find?_some hb
  rw [hb, List.inj_on_of_nodup_map h (List.mem_of_find?_eq_some hb) ha (eq_of_beq hkey)]

/-- What is found by a key belongs to an element of that key. -/
theorem exists_of_find?_map {α β κ : Type} [BEq κ] [LawfulBEq κ] {key : α → κ} {val : α → β}
    {as : List α} {k : κ} {b : β} (h : (as.find? fun a => key a == k).map val = some b) :
    ∃ a ∈ as, key a = k ∧ val a = b := by
  obtain ⟨a, ha, hb⟩ := Option.map_eq_some_iff.mp h
  have hkey := List.find?_some ha
  exact ⟨a, List.mem_of_find?_eq_some ha, eq_of_beq hkey, hb⟩

end Crosswalk
