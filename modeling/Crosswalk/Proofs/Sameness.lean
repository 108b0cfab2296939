import Crosswalk.Mapping
import Crosswalk.Proofs.NamedMembers
import Mathlib.Data.List.Forall2

/-!
# Sameness of mappings

`==` on computations, mappings and lists of them is an equivalence, though equal things need
not be one thing: members are compared without their procedures and owner labels, functions
and delegates by their identities. Each relation is reflexive, and what is equal may replace
each other on the left of `==` (`EquivBEq.of_congr`). For expressions both are proved along
the tree (`SourceExpr.same_self`, `SourceExpr.same_congr`), by what equal nodes have in common
(`SourceExpr.Same`, `SourceArgs.Same`).
-/

namespace Crosswalk

variable {α σ τ : Type}

/-- A reflexive equality that tells nothing apart from its equals is an equivalence. -/
theorem EquivBEq.of_congr [BEq α] (self : ∀ a : α, (a == a) = true)
    (congr : ∀ {a b : α}, (a == b) = true → ∀ c, (a == c) = (b == c)) : EquivBEq α where
  rfl := self _
  symm {a b} h := by rw [← congr h, self]
  trans h h' := by rw [congr h, h']

/-! ## Expressions -/

mutual

@[simp]
theorem SourceExpr.same_self : ∀ e : SourceExpr σ, e.same e = true
  | .member m => by
    rw [SourceExpr.same]
    exact BEq.rfl
  | .const v t => by simp [SourceExpr.same]
  | .call f args => by simp [SourceExpr.same, args.same_self]

@[simp]
theorem SourceArgs.same_self : ∀ args : SourceArgs σ, args.same args = true
  | .nil => rfl
  | .cons arg plan rest => by simp [SourceArgs.same, arg.same_self, rest.same_self]

end

/-- Equal expressions are of one kind, with equal parts. -/
inductive SourceExpr.Same : SourceExpr σ → SourceExpr σ → Prop
  | member {a b} (h : (a == b) = true) : Same (.member a) (.member b)
  | const (v t) : Same (.const v t) (.const v t)
  | call {f g xs ys} (hcallee : f.identity = g.identity) (hargs : xs.same ys = true) :
      Same (.call f xs) (.call g ys)

/-- Equal arguments have equal expressions and the same plans, one by one. -/
inductive SourceArgs.Same : SourceArgs σ → SourceArgs σ → Prop
  | nil : Same .nil .nil
  | cons {x y xs ys} (plan) (hfirst : x.same y = true) (hrest : xs.same ys = true) :
      Same (.cons x plan xs) (.cons y plan ys)

/-- What the test takes for one is built alike. -/
theorem SourceExpr.Same.of_same {x y : SourceExpr σ} (h : x.same y = true) : x.Same y := by
  cases x <;> cases y
  case member.member a b => exact .member h
  case const.const v t w u =>
    simp only [SourceExpr.same, Bool.and_eq_true, beq_iff_eq, Value.identical_iff] at h
    obtain ⟨rfl, rfl⟩ := h
    exact .const v t
  case call.call f xs g ys =>
    simp only [SourceExpr.same, Bool.and_eq_true, beq_iff_eq] at h
    exact .call h.1 h.2
  all_goals simp [SourceExpr.same] at h

theorem SourceArgs.Same.of_same {xs ys : SourceArgs σ} (h : xs.same ys = true) : xs.Same ys := by
  cases xs <;> cases ys
  case nil.nil => exact .nil
  case cons.cons x p xs y q ys =>
    simp only [SourceArgs.same, Bool.and_eq_true, beq_iff_eq] at h
    obtain ⟨⟨hfirst, rfl⟩, hrest⟩ := h
    exact .cons p hfirst hrest
  all_goals simp [SourceArgs.same] at h

mutual

/-- Expressions that are taken for one are taken for the same others. -/
theorem SourceExpr.same_congr (x y : SourceExpr σ) (h : x.same y = true) (z : SourceExpr σ) :
    x.same z = y.same z := by
  cases SourceExpr.Same.of_same h with
  | @member a b hab =>
    cases z with
    | member c => exact BEq.congr_left (c := c) hab
    | _ => rfl
  | const _ _ => rfl
  | @call f g xs ys hcallee hargs =>
    cases z with
    | call k zs => rw [SourceExpr.same, SourceExpr.same, hcallee, xs.same_congr ys hargs]
    | _ => rfl

theorem SourceArgs.same_congr (xs ys : SourceArgs σ) (h : xs.same ys = true)
    (zs : SourceArgs σ) : xs.same zs = ys.same zs := by
  cases SourceArgs.Same.of_same h with
  | nil => rfl
  | @cons x y xs ys _ hfirst hrest =>
    cases zs with
    | nil => rfl
    | cons z r zs =>
      rw [SourceArgs.same, SourceArgs.same, x.same_congr y hfirst, xs.same_congr ys hrest]

end

mutual

/-- Equal expressions read equal members, one by one. -/
theorem SourceExpr.members_of_same (x y : SourceExpr σ) (h : x.same y = true) :
    List.Forall₂ (fun a b => (a == b) = true) x.members y.members := by
  cases SourceExpr.Same.of_same h with
  | member hab => exact .cons hab .nil
  | const _ _ => exact .nil
  | call _ hargs => exact SourceArgs.members_of_same _ _ hargs

/-- Arguments that are taken for one read equal members in the same order. -/
theorem SourceArgs.members_of_same (xs ys : SourceArgs σ) (h : xs.same ys = true) :
    List.Forall₂ (fun a b => (a == b) = true) xs.members ys.members := by
  cases SourceArgs.Same.of_same h with
  | nil => exact .nil
  | @cons x y xs ys _ hfirst hrest =>
    exact List.rel_append (x.members_of_same y hfirst) (xs.members_of_same ys hrest)

end

/-! ## Computations and mappings -/

theorem Delegate.beq_iff {d e : Delegate σ} :
    (d == e) = true ↔ d.output = e.output ∧ d.identity = e.identity := by
  show (d.output == e.output && d.identity == e.identity) = true ↔ _
  simp only [Bool.and_eq_true, beq_iff_eq]

instance : EquivBEq (Delegate σ) where
  rfl := Delegate.beq_iff.mpr ⟨rfl, rfl⟩
  symm h := by
    obtain ⟨ho, hi⟩ := Delegate.beq_iff.mp h
    exact Delegate.beq_iff.mpr ⟨ho.symm, hi.symm⟩
  trans h h' := by
    obtain ⟨ho, hi⟩ := Delegate.beq_iff.mp h
    obtain ⟨ho', hi'⟩ := Delegate.beq_iff.mp h'
    exact Delegate.beq_iff.mpr ⟨ho.trans ho', hi.trans hi'⟩

/-- Equal computations are of one kind, with equal parts. -/
inductive Computation.Same : Computation σ → Computation σ → Prop
  | member {a b} (h : (a == b) = true) : Same (.member a) (.member b)
  | expression {x y} (h : x.same y = true) : Same (.expression x) (.expression y)
  | delegate {d e} (h : (d == e) = true) : Same (.delegate d) (.delegate e)

/-- Equal computations are of one form, with equal parts. -/
theorem Computation.same_of_beq {a b : Computation σ} (h : (a == b) = true) : a.Same b := by
  cases a <;> cases b
  case member.member a b => exact .member h
  case expression.expression x y => exact .expression h
  case delegate.delegate d e => exact .delegate h
  all_goals cases h

/-- Equal computations read equal members, one by one. -/
theorem Computation.reads_of_beq {a b : Computation σ} (h : (a == b) = true) :
    List.Forall₂ (fun m n => (m == n) = true) a.reads b.reads := by
  cases same_of_beq h with
  | member hab => exact .cons hab .nil
  | expression hxy => exact SourceExpr.members_of_same _ _ hxy
  | delegate _ => exact .nil

theorem Computation.beq_congr {a b : Computation σ} (h : (a == b) = true) (c : Computation σ) :
    (a == c) = (b == c) := by
  cases same_of_beq h with
  | member hab =>
    cases c with
    | member m => exact BEq.congr_left (c := m) hab
    | _ => rfl
  | expression hxy =>
    cases c with
    | expression z => exact SourceExpr.same_congr _ _ hxy z
    | _ => rfl
  | delegate hde =>
    cases c with
    | delegate f => exact BEq.congr_left (c := f) hde
    | _ => rfl

instance : EquivBEq (Computation σ) :=
  EquivBEq.of_congr
    (fun
      | .member m => BEq.rfl (a := m)
      | .expression e => e.same_self
      | .delegate d => BEq.rfl (a := d))
    Computation.beq_congr

/-- Mappings are equal if their targets, their sources and their plans are. -/
theorem Mapping.beq_iff {m n : Mapping σ τ} : (m == n) = true ↔
    (m.target == n.target) = true ∧ (m.source == n.source) = true ∧ m.plan = n.plan := by
  show (m.target == n.target && m.source == n.source && m.plan == n.plan) = true ↔ _
  simp only [Bool.and_eq_true, beq_iff_eq, and_assoc]

instance : EquivBEq (Mapping σ τ) where
  rfl := Mapping.beq_iff.mpr ⟨BEq.rfl, BEq.rfl, rfl⟩
  symm h := by
    obtain ⟨ht, hs, hp⟩ := Mapping.beq_iff.mp h
    exact Mapping.beq_iff.mpr ⟨BEq.symm ht, BEq.symm hs, hp.symm⟩
  trans h h' := by
    obtain ⟨ht, hs, hp⟩ := Mapping.beq_iff.mp h
    obtain ⟨ht', hs', hp'⟩ := Mapping.beq_iff.mp h'
    exact Mapping.beq_iff.mpr ⟨BEq.trans ht ht', BEq.trans hs hs', hp.trans hp'⟩

/-! ## Lists -/

/-- Equal lists have equal elements, one by one. -/
theorem forall₂_of_beq [BEq α] :
    ∀ {xs ys : List α}, (xs == ys) = true → List.Forall₂ (fun x y => (x == y) = true) xs ys
  | [], [], _ => .nil
  | [], _ :: _, h => by cases h
  | _ :: _, [], h => by cases h
  | x :: xs, y :: ys, h => by
    rw [List.cons_beq_cons, Bool.and_eq_true] at h
    exact .cons h.1 (forall₂_of_beq h.2)

/-- Lists of equal elements equal the same lists. -/
theorem beq_congr_of_forall₂ [BEq α] [EquivBEq α] {xs ys : List α}
    (h : List.Forall₂ (fun x y => (x == y) = true) xs ys) (zs : List α) :
    (xs == zs) = (ys == zs) := by
  induction h generalizing zs with
  | nil => rfl
  | cons hxy _ ih =>
    cases zs with
    | nil => rfl
    | cons z zs => rw [List.cons_beq_cons, List.cons_beq_cons, BEq.congr_left hxy, ih zs]

instance equivBEqList [BEq α] [EquivBEq α] : EquivBEq (List α) :=
  EquivBEq.of_congr (fun _ => BEq.rfl) fun h zs => beq_congr_of_forall₂ (forall₂_of_beq h) zs

end Crosswalk
