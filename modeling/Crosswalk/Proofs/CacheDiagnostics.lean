import Crosswalk.Proofs.CacheTransparency
import Crosswalk.Proofs.FirstFailure

/-!
# Owner labels from a cache

`==` compares neither the owner labels of members nor the names of functions
(`Mapping.labels`); mappings that are equal and have the same labels display alike
(`Mapping.display_eq_of_beq`). A cache answers with the first of the equal lists asked for
since its last clear. The answer displays as that list does, and its failures carry the owner
labels of that list with the member names of the one asked for
(`Cache.diagnostics_of_validate`), so a configuration may display and fail under the owner of
another (`Cache.beta_fails_as_alpha`).
-/

namespace Crosswalk

variable {σ τ : Type}

/-! ## Labels -/

mutual

/-- The labels of an expression, from left to right. -/
def SourceExpr.labels : SourceExpr σ → List String
  | .member m => [m.shortOwner]
  | .const _ _ => []
  | .call f args => f.name :: args.labels

/-- The labels of arguments, from left to right. -/
def SourceArgs.labels : SourceArgs σ → List String
  | .nil => []
  | .cons arg _ rest => arg.labels ++ rest.labels

end

/-- The labels that a computation shows. Of a delegate only the type is shown. -/
def Computation.labels : Computation σ → List String
  | .member m => [m.shortOwner]
  | .expression e => e.labels
  | .delegate _ => []

/-- The labels that a mapping shows, that of its target member first. -/
def Mapping.labels (m : Mapping σ τ) : List String := m.target.shortOwner :: m.source.labels

mutual

/-- Expressions that are taken for one show as many labels. -/
theorem SourceExpr.length_labels_of_same (x y : SourceExpr σ) (h : x.same y = true) :
    x.labels.length = y.labels.length := by
  cases SourceExpr.Same.of_same h with
  | member _ => rfl
  | const _ _ => rfl
  | @call f g xs ys _ hargs =>
    rw [SourceExpr.labels, SourceExpr.labels, List.length_cons, List.length_cons,
      xs.length_labels_of_same ys hargs]

theorem SourceArgs.length_labels_of_same (xs ys : SourceArgs σ) (h : xs.same ys = true) :
    xs.labels.length = ys.labels.length := by
  cases SourceArgs.Same.of_same h with
  | nil => rfl
  | @cons x y xs ys _ hfirst hrest =>
    rw [SourceArgs.labels, SourceArgs.labels, List.length_append, List.length_append,
      x.length_labels_of_same y hfirst, xs.length_labels_of_same ys hrest]

end

/-- Equal members are shown alike if their owners are. -/
theorem Member.display_eq_of_beq {a b : Member σ} (h : (a == b) = true)
    (howner : a.shortOwner = b.shortOwner) : a.display = b.display := by
  rw [display, display, howner, name_eq_of_beq h]

mutual

/-- Expressions that are taken for one are shown alike, if they show the same labels. -/
theorem SourceExpr.display_eq_of_same (x y : SourceExpr σ) (h : x.same y = true)
    (hlabels : x.labels = y.labels) : x.display = y.display := by
  cases SourceExpr.Same.of_same h with
  | member hab => exact Member.display_eq_of_beq hab (List.cons.inj hlabels).1
  | const _ _ => rfl
  | @call f g xs ys _ hargs =>
    obtain ⟨hname, hrest⟩ := List.cons.inj hlabels
    rw [SourceExpr.display, SourceExpr.display, hname, xs.displays_eq_of_same ys hargs hrest]

theorem SourceArgs.displays_eq_of_same (xs ys : SourceArgs σ) (h : xs.same ys = true)
    (hlabels : xs.labels = ys.labels) : xs.displays = ys.displays := by
  cases SourceArgs.Same.of_same h with
  | nil => rfl
  | @cons x y xs ys _ hfirst hrest =>
    -- Equal expressions have as many labels, so the labels split where the arguments do.
    obtain ⟨hlabel, hothers⟩ := List.append_inj hlabels (x.length_labels_of_same y hfirst)
    rw [SourceArgs.displays, SourceArgs.displays, x.display_eq_of_same y hfirst hlabel,
      xs.displays_eq_of_same ys hrest hothers]

end

/-- Equal computations are shown alike, if they show the same labels. -/
theorem Computation.display_eq_of_beq {x y : Computation σ} (h : (x == y) = true)
    (hlabels : x.labels = y.labels) : x.display = y.display := by
  cases same_of_beq h with
  | member hab => exact Member.display_eq_of_beq hab (List.cons.inj hlabels).1
  | expression hxy => exact SourceExpr.display_eq_of_same _ _ hxy hlabels
  | delegate hde => rw [display, display, (Delegate.beq_iff.mp hde).1]

/-- Equal mappings display differently by their labels only. -/
theorem Mapping.display_eq_of_beq {m n : Mapping σ τ} (h : (m == n) = true)
    (hlabels : m.labels = n.labels) : m.display = n.display := by
  obtain ⟨htarget, hsource, hplan⟩ := Mapping.beq_iff.mp h
  obtain ⟨howner, hsources⟩ := List.cons.inj hlabels
  rw [display, display, Computation.display_eq_of_beq hsource hsources,
    Member.display_eq_of_beq htarget howner, hplan]

/-! ## Answers -/

theorem exists_mem_zip {α β : Type} {R : α → β → Prop} {xs : List α} {ys : List β}
    (h : List.Forall₂ R xs ys) {x : α} (hx : x ∈ xs) : ∃ y, (x, y) ∈ xs.zip ys ∧ R x y := by
  induction h with
  | nil => cases hx
  | @cons a b as bs hab _ ih =>
    rcases List.mem_cons.mp hx with rfl | hx
    · exact ⟨b, List.mem_cons_self, hab⟩
    · obtain ⟨y, hy, hxy⟩ := ih hx
      exact ⟨y, List.mem_cons_of_mem _ hy, hxy⟩

namespace Cache

variable {C : Catalog} {s t : C.Key} {ms : List (Mapping (C.Owner s) (C.Owner t))}

/-- What is answered for a validated configuration displays as the first equal list asked for
since the last clear, and fails with the owner labels of that list. -/
theorem diagnostics_of_validate (identity : Nat) (calls : List (Call C)) {a : Ask C s t}
    {k : Configuration (C.Owner s) (C.Owner t)} (ha : a.list = .ok ms) (hk : k.validate = .ok ms) :
    ∃ p, (((empty C identity).after calls).answer a).1 = .ok p ∧
      (Call.requests (calls ++ [.ask s t a])).find? (· == ⟨s, t, ms⟩) =
        some ⟨s, t, p.mappings⟩ ∧
      p.mappings.length = ms.length ∧
      (∀ pair ∈ p.mappings.zip ms, pair.1.labels = pair.2.labels →
        pair.1.display = pair.2.display) ∧
      ∀ u x y e, (p.run u x y).1.1 = .error e →
        ∃ pair ∈ p.mappings.zip ms, pair.2.target ∈ k.targetMembers ∧ ∃ cause,
          e = .transform pair.1.target.shortOwner pair.2.target.name cause := by
  obtain ⟨p, hp, hsame, hfirst⟩ := exists_first identity calls ha
  have hpairs := forall₂_of_beq hsame
  obtain ⟨hlength, hzip⟩ := List.forall₂_iff_zip.mp hpairs
  refine ⟨p, hp, hfirst, hlength, fun pair hpair => Mapping.display_eq_of_beq (hzip hpair), ?_⟩
  intro u x y e he
  obtain ⟨m, hm, cause, rfl⟩ := failure_of_transform he
  obtain ⟨n, hn, hmn⟩ := exists_mem_zip hpairs hm
  have hname : m.target.name = n.target.name :=
    Member.name_eq_of_beq (Mapping.beq_iff.mp hmn).1
  refine ⟨(m, n), hn, (Configuration.able_of_validate hk n (List.of_mem_zip hn).2).2, cause, ?_⟩
  rw [Mapping.failure, hname]

theorem diagnostics_of_validate_counted : ∃ ms p, (counted "Beta").validate = .ok ms ∧
    (((empty records 0).after alphaBuilt).answer betaAsked).1 = .ok p ∧
    (Call.requests (alphaBuilt ++ [.ask () () betaAsked])).find? (· == ⟨(), (), ms⟩) =
      some ⟨(), (), p.mappings⟩ ∧
    ∀ u x y e, (p.run u x y).1.1 = .error e →
      ∃ pair ∈ p.mappings.zip ms, pair.2.target ∈ (counted "Beta").targetMembers ∧ ∃ cause,
        e = .transform pair.1.target.shortOwner pair.2.target.name cause := by
  obtain ⟨ms, hms⟩ : ∃ ms, (counted "Beta").validate = .ok ms := ⟨_, rfl⟩
  obtain ⟨p, hp, hfirst, -, -, hfails⟩ :=
    diagnostics_of_validate 0 alphaBuilt (a := betaAsked) hms hms
  exact ⟨ms, p, hms, hp, hfirst, hfails⟩

/-- A line whose count is no number. -/
def uncounted : Record := Record.empty.set "Count" (.str "x")

/-- The answer for one schema displays and fails as the other, built before it. -/
theorem beta_fails_as_alpha : ∃ ms p cause, (counted "Beta").validate = .ok ms ∧
    (((empty records 0).after alphaBuilt).answer betaAsked).1 = .ok p ∧
    (p.run .none uncounted .empty).1.1 = .error (.transform "Alpha" "Count" cause) ∧
    (∀ m ∈ (counted "Beta").targetMembers, m.shortOwner = "Beta") ∧
    p.mappings.map Mapping.display = ["Line.Count -> Alpha.Count [convert to i32]"] ∧
    ms.map Mapping.display = ["Line.Count -> Beta.Count [convert to i32]"] := by
  refine ⟨_, _, _, rfl, rfl, rfl, ?_, by decide, by decide⟩
  intro m hm
  obtain rfl := List.mem_singleton.mp hm
  decide

end Cache

end Crosswalk
