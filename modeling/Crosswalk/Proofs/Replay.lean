import Crosswalk.Proofs.NamedMembers
import Crosswalk.Proofs.Results

/-!
# Invariants of the replay

What every directive keeps, every replay keeps (`Replay.run_induction`). A replay of the
directives leaves a regular state (`Configuration.regular_of_replay`): no ignored target member
is overridden, an override stands at a first listing and comes from a directive, and source
members of one name are ignored together. Ignored target members and overrides are kept apart
from each other, so each directive that writes to the one has to take away from the other
(`Replay.Regular.ignoreTargets`, `Replay.Regular.override`).
-/

namespace Crosswalk

variable {σ τ : Type}

/-! ## What is held of a target position -/

/-- What the ignored positions and the overrides hold of one target position. It may be ignored
and overridden at once: the type does not tell them apart, the directives do. -/
structure Treatment (σ : Type) where
  isIgnored : Bool
  override? : Option (Binding σ)

namespace Treatment

/-- The member is to be paired by name. -/
def auto : Treatment σ := ⟨false, none⟩

/-- The member is passed over. -/
def ignored : Treatment σ := ⟨true, none⟩

/-- The member is filled by the override. -/
def overridden (b : Binding σ) : Treatment σ := ⟨false, some b⟩

/-- What is ignored is not overridden. -/
def Exclusive (t : Treatment σ) : Prop := t.isIgnored = true → t.override? = none

variable {t : Treatment σ} {b : Binding σ}

/-- An overridden member is not ignored. -/
theorem Exclusive.isIgnored_eq_false (h : t.Exclusive) (hb : t.override? = some b) :
    t.isIgnored = false := by
  rw [Bool.eq_false_iff]
  intro hignored
  rw [h hignored] at hb
  cases hb

/-- An override says all of how the member is treated. -/
theorem Exclusive.eq_overridden (h : t.Exclusive) (hb : t.override? = some b) :
    t = overridden b := by
  cases t
  exact congrArg₂ Treatment.mk (h.isIgnored_eq_false hb) hb

/-- Without an override, a member that is not ignored is left to its name. -/
theorem eq_auto (h : t.override? = none) (hopen : t.isIgnored = false) : t = auto := by
  cases t
  exact congrArg₂ Treatment.mk hopen h

end Treatment

/-- What the replay holds of a target position. -/
def Replay.treatment (r : Replay σ) (i : Nat) : Treatment σ := ⟨r.ignoresTarget i, r.override? i⟩

/-- What holds of the state after any replay. -/
structure Replay.Regular (c : Configuration σ τ) (r : Replay σ) : Prop where
  exclusive : ∀ i, (r.treatment i).Exclusive
  /-- No member before an overridden one has its name. -/
  first : ∀ i b, r.override? i = some b → ∃ t, c.targetMembers[i]? = some t ∧
    ∀ j u, c.targetMembers[j]? = some u → u.name = t.name → i ≤ j
  given : ∀ i b, r.override? i = some b → ∃ name, .bind name b ∈ c.directives
  /-- Source members of equal names are ignored together. -/
  byName : ∀ i j a b, c.sourceMembers[i]? = some a → c.sourceMembers[j]? = some b →
    a.name = b.name → r.ignoresSource i = r.ignoresSource j

namespace Replay

variable {c : Configuration σ τ} {r r' : Replay σ} {ps : List Nat} {p i : Nat} {b : Binding σ}

/-! ## Writing to the collections -/

@[simp] theorem ignoresSource_ignoreSources (r : Replay σ) (ps : List Nat) (i : Nat) :
    (r.ignoreSources ps).ignoresSource i = (decide (i ∈ ps) || r.ignoresSource i) := by
  simp only [ignoreSources, List.contains_eq_mem]

@[simp] theorem ignoresSource_admitSources (r : Replay σ) (ps : List Nat) (i : Nat) :
    (r.admitSources ps).ignoresSource i = (!decide (i ∈ ps) && r.ignoresSource i) := by
  simp only [admitSources, List.contains_eq_mem]

@[simp] theorem ignoresTarget_ignoreTargets (r : Replay σ) (ps : List Nat) (i : Nat) :
    (r.ignoreTargets ps).ignoresTarget i = (decide (i ∈ ps) || r.ignoresTarget i) := by
  simp only [ignoreTargets, List.contains_eq_mem]

@[simp] theorem ignoresTarget_admitTargets (r : Replay σ) (ps : List Nat) (i : Nat) :
    (r.admitTargets ps).ignoresTarget i = (!decide (i ∈ ps) && r.ignoresTarget i) := by
  simp only [admitTargets, List.contains_eq_mem]

@[simp] theorem override?_dropOverrides (r : Replay σ) (ps : List Nat) (i : Nat) :
    (r.dropOverrides ps).override? i = if i ∈ ps then none else r.override? i := by
  simp only [dropOverrides, List.contains_iff_mem]

@[simp] theorem override?_override (r : Replay σ) (p : Nat) (b : Binding σ) (i : Nat) :
    (r.override p b).override? i = if i = p then some b else r.override? i := by
  simp only [override, beq_iff_eq]

/-- A position is treated alike where both collections hold the same of it. -/
theorem treatment_eq_iff : r'.treatment i = r.treatment i ↔
    r'.ignoresTarget i = r.ignoresTarget i ∧ r'.override? i = r.override? i := by
  simp only [treatment, Treatment.mk.injEq]

/-- What is ignored with its override dropped is ignored, and nothing else is changed. -/
theorem treatment_ignore (r : Replay σ) (ps : List Nat) (i : Nat) :
    ((r.dropOverrides ps).ignoreTargets ps).treatment i =
      if i ∈ ps then .ignored else r.treatment i := by
  have hover : ((r.dropOverrides ps).ignoreTargets ps).override? i =
      if i ∈ ps then none else r.override? i := override?_dropOverrides r ps i
  rw [treatment, ignoresTarget_ignoreTargets, hover]
  split
  · next hmem => rw [decide_eq_true hmem, Bool.true_or, Treatment.ignored]
  · next hmem =>
    rw [decide_eq_false hmem, Bool.false_or]
    rfl

/-- What is admitted with its override dropped is neither ignored nor overridden. -/
theorem treatment_reset (r : Replay σ) (ps : List Nat) (i : Nat) :
    ((r.admitTargets ps).dropOverrides ps).treatment i =
      if i ∈ ps then .auto else r.treatment i := by
  have hignored : ((r.admitTargets ps).dropOverrides ps).ignoresTarget i =
      (!decide (i ∈ ps) && r.ignoresTarget i) := ignoresTarget_admitTargets r ps i
  rw [treatment, override?_dropOverrides, hignored]
  split
  · next hmem => rw [decide_eq_true hmem, Bool.not_true, Bool.false_and, Treatment.auto]
  · next hmem =>
    rw [decide_eq_false hmem, Bool.not_false, Bool.true_and]
    rfl

/-- What is admitted and overridden is not ignored. -/
theorem treatment_override (r : Replay σ) (p : Nat) (b : Binding σ) (i : Nat) :
    ((r.admitTargets [p]).override p b).treatment i =
      if i = p then .overridden b else r.treatment i := by
  have hignored : ((r.admitTargets [p]).override p b).ignoresTarget i =
      (!decide (i ∈ [p]) && r.ignoresTarget i) := ignoresTarget_admitTargets r [p] i
  rw [treatment, override?_override, hignored]
  simp only [List.mem_singleton]
  split
  · next heq => rw [decide_eq_true heq, Bool.not_true, Bool.false_and, Treatment.overridden]
  · next heq =>
    rw [decide_eq_false heq, Bool.not_false, Bool.true_and]
    rfl

/-! ## Runs -/

/-- Directives can be replayed in two parts. -/
theorem run_append (r : Replay σ) (ds es : List (Directive σ)) :
    run c r (ds ++ es) = (run c r ds).bind fun r' => run c r' es := by
  induction ds generalizing r with
  | nil => rfl
  | cons d ds ih =>
    simp only [List.cons_append, run, ih]
    cases r.step c d <;> rfl

/-- What each of the directives keeps holds after all of them. -/
theorem run_induction {I : Replay σ → Prop} :
    ∀ {ds : List (Directive σ)} {r : Replay σ}, I r →
      (∀ d ∈ ds, ∀ r r', I r → r.step c d = .ok r' → I r') → run c r ds = .ok r' → I r'
  | [], r, hr, _, h => by
    cases h
    exact hr
  | d :: ds, r, hr, hstep, h => by
    obtain ⟨r₁, h₁, h₂⟩ := Except.bind_eq_ok_iff.mp h
    exact run_induction (hstep d (by simp) r r₁ hr h₁) (fun d' hd' => hstep d' (by simp [hd'])) h₂

/-- Before the first directive nothing is ignored or overridden. -/
theorem regular_start (c : Configuration σ τ) : (start : Replay σ).Regular c where
  exclusive _ h := nomatch h
  first _ _ h := nomatch h
  given _ _ h := nomatch h
  byName _ _ _ _ _ _ _ := rfl

/-- Fewer overrides keep the state regular. -/
theorem Regular.dropOverrides (h : r.Regular c) (ps : List Nat) :
    (r.dropOverrides ps).Regular c := by
  have hkept : ∀ {i b}, (r.dropOverrides ps).override? i = some b → r.override? i = some b := by
    intro i b hi
    rw [override?_dropOverrides] at hi
    split at hi
    · cases hi
    · exact hi
  refine ⟨fun i hignored => ?_, fun i b hi => h.first i b (hkept hi),
    fun i b hi => h.given i b (hkept hi), h.byName⟩
  have hnone : r.override? i = none := h.exclusive i hignored
  show (r.dropOverrides ps).override? i = none
  rw [override?_dropOverrides, hnone, ite_self]

/-- Target members without overrides can be ignored. -/
theorem Regular.ignoreTargets (h : r.Regular c) (hps : ∀ i ∈ ps, r.override? i = none) :
    (r.ignoreTargets ps).Regular c where
  exclusive i hignored := by
    have hsome : (decide (i ∈ ps) || r.ignoresTarget i) = true :=
      (ignoresTarget_ignoreTargets r ps i).symm.trans hignored
    rw [Bool.or_eq_true, decide_eq_true_eq] at hsome
    exact hsome.elim (hps i) (h.exclusive i)
  first := h.first
  given := h.given
  byName := h.byName

/-- Fewer ignored target members keep the state regular. -/
theorem Regular.admitTargets (h : r.Regular c) (ps : List Nat) : (r.admitTargets ps).Regular c where
  exclusive i hignored := by
    have hboth : (!decide (i ∈ ps) && r.ignoresTarget i) = true :=
      (ignoresTarget_admitTargets r ps i).symm.trans hignored
    exact h.exclusive i (Bool.and_eq_true_iff.mp hboth).2
  first := h.first
  given := h.given
  byName := h.byName

/-- Ignoring source members by a name is the same for all of one name. -/
theorem Regular.ignoreSources (h : r.Regular c) (name : String) :
    (r.ignoreSources (c.sourcePositions name)).Regular c where
  exclusive := h.exclusive
  first := h.first
  given := h.given
  byName i j a b ha hb hab := by
    have hmem := mem_positionsOf_iff_of_name_eq c.options.nameComparer name ha hb hab
    simp only [ignoresSource_ignoreSources, Configuration.sourcePositions,
      h.byName i j a b ha hb hab, hmem]

/-- Admitting source members by a name is the same for all of one name. -/
theorem Regular.admitSources (h : r.Regular c) (name : String) :
    (r.admitSources (c.sourcePositions name)).Regular c where
  exclusive := h.exclusive
  first := h.first
  given := h.given
  byName i j a b ha hb hab := by
    have hmem := mem_positionsOf_iff_of_name_eq c.options.nameComparer name ha hb hab
    simp only [ignoresSource_admitSources, Configuration.sourcePositions,
      h.byName i j a b ha hb hab, hmem]

/-- The member found can be overridden, if it is not ignored. -/
theorem Regular.override (h : r.Regular c) {name : String} {p : Positioned τ}
    (hd : .bind name b ∈ c.directives)
    (hp : findMember c.targetType c.options.nameComparer c.targetMembers name = .ok p)
    (hopen : r.ignoresTarget p.1 = false) : (r.override p.1 b).Regular c where
  exclusive i hignored := by
    have hne : i ≠ p.1 := by
      rintro rfl
      cases hopen.symm.trans hignored
    exact (if_neg (by simpa using hne)).trans (h.exclusive i hignored)
  first i b' hi := by
    by_cases heq : i = p.1
    · obtain ⟨hmem, hfirst⟩ := findMember_eq_ok hp
      subst heq
      refine ⟨p.2, mem_positioned.mp hmem, fun j u hu hname => ?_⟩
      exact (hfirst (j, u) (mem_positioned.mpr hu) hname).1
    · exact h.first i b' (by simpa [heq] using hi)
  given i b' hi := by
    by_cases heq : i = p.1
    · obtain rfl : b = b' := by simpa [heq] using hi
      exact ⟨name, hd⟩
    · exact h.given i b' (by simpa [heq] using hi)
  byName := h.byName

/-- Every directive keeps the state regular: it drops the overrides of what it ignores, and admits
what it overrides. -/
theorem Regular.step (h : r.Regular c) {d : Directive σ} (hd : d ∈ c.directives)
    (hstep : r.step c d = .ok r') : r'.Regular c := by
  cases d with
  | ignoreSource name =>
    cases hstep
    exact h.ignoreSources name
  | ignoreTarget name =>
    cases hstep
    refine (h.dropOverrides _).ignoreTargets fun i hi => ?_
    rw [override?_dropOverrides, if_pos hi]
  | bind name b =>
    obtain ⟨p, hp, rfl⟩ := Except.map_eq_ok_iff.mp hstep
    refine (h.admitTargets [p.1]).override hd hp ?_
    rw [ignoresTarget_admitTargets, decide_eq_true (List.mem_singleton.mpr rfl), Bool.not_true,
      Bool.false_and]
  | reset name =>
    cases hstep
    exact ((h.admitSources name).admitTargets _).dropOverrides _

end Replay

/-- Every replay is regular, by induction on the directives. -/
theorem Configuration.regular_of_replay {c : Configuration σ τ} {r : Replay σ}
    (h : c.replay = .ok r) : r.Regular c :=
  Replay.run_induction (Replay.regular_start c) (fun _ hd _ _ hr hstep => hr.step hd hstep) h

end Crosswalk
