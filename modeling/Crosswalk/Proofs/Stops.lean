import Crosswalk.Proofs.BindingFaults
import Crosswalk.Proofs.FirstFailure
import Crosswalk.Proofs.LastDirective
import Crosswalk.Proofs.Walk

/-!
# Where a walk stops

A walk over the target members fails at the first one whose step fails, after the steps before it
(`Configuration.walk_eq_error_iff`). Of the failures only that of a member without a source member
says that a member is unmapped: what looks members up, binds expressions and makes mappings has
failures of other kinds. The steps before have used up the source members of some names, and left
the others in their order (`Configuration.Pairs.left_eq_filter`).
-/

namespace Crosswalk

variable {σ τ : Type}

/-- The failure is that a member has no counterpart. -/
def MappingError.isUnmapped : MappingError → Bool
  | unmappedTarget _ _ | unmappedSource _ _ => true
  | _ => false

/-! ## Failures of other kinds -/

section

variable {lookup : String → Except MappingError (Member σ)} {sourceType : String} {e : MappingError}

/-- A name that leads to no member, or to several, is not reported as an unmapped member. -/
theorem Misnamed.isUnmapped {comparer : NameComparer} {ms : List (Member σ)} {name : String}
    (h : Misnamed sourceType comparer ms name e) : e.isUnmapped = false := by
  cases h <;> rfl

/-- A fault of an expression is not reported as an unmapped member. -/
theorem Expr.FirstFault.isUnmapped {cs : List Expr.Check}
    (h : Expr.FirstFault sourceType lookup cs e)
    (hlookup : ∀ name e, lookup name = .error e → e.isUnmapped = false) :
    e.isUnmapped = false := by
  induction h with
  | here h =>
    cases h with
    | found h => exact hlookup _ _ h
    | arity | accepted => rfl
  | later _ _ ih => exact ih

end

namespace Configuration

variable {c : Configuration σ τ} {r : Replay σ} {targets : List (IndexEntry τ)}
  {sources left : List (IndexEntry σ)} {rest before after : List (Positioned τ)}
  {placed : List (Placed σ τ)} {p : Positioned τ} {e : MappingError}

theorem isUnmapped_of_findSource {name : String} (h : c.findSource name = .error e) :
    e.isUnmapped = false :=
  (misnamed_of_findMember (Except.map_eq_error_iff.mp h)).isUnmapped

/-- The failure of an override is not reported as an unmapped member. -/
theorem isUnmapped_of_resolveBinding {b : Binding σ} (h : c.resolveBinding b = .error e) :
    e.isUnmapped = false := by
  cases b with
  | member name => exact isUnmapped_of_findSource (Except.map_eq_error_iff.mp h)
  | expression expr =>
    have hfault : Expr.FirstFault c.sourceType c.findSource expr.checks e :=
      (Expr.gives_bind expr).of_error (Except.map_eq_error_iff.mp h)
    exact hfault.isUnmapped fun _ _ => isUnmapped_of_findSource
  | delegate d => cases h

/-- The failure to make a mapping is not reported as an unmapped member. -/
theorem isUnmapped_of_makeMapping {source : Computation σ} {t : Member τ}
    (h : c.makeMapping source t = .error e) : e.isUnmapped = false := by
  unfold makeMapping Mapping.make at h
  split at h
  · cases h
    rfl
  · split at h
    · cases h
      rfl
    · split at h <;> cases h <;> rfl

/-! ## The step that fails -/

/-- The step of a target member fails, given the source members left to pair. -/
inductive Stops (c : Configuration σ τ) (r : Replay σ) (targets : List (IndexEntry τ))
    (left : List (IndexEntry σ)) : Positioned τ → MappingError → Prop
  /-- An override cannot be resolved. -/
  | unresolved {i t b e} (hi : r.override? i = some b)
      (hb : c.resolveBinding b = .error e) : Stops c r targets left (i, t) e
  /-- The computation of an override cannot fill the member. -/
  | override {i t b source e} (hi : r.override? i = some b)
      (hb : c.resolveBinding b = .ok source) (hm : c.makeMapping source t = .error e) :
      Stops c r targets left (i, t) e
  /-- The source member of its name cannot fill the member. -/
  | pair {i t entry s e} (hi : r.override? i = none)
      (ht : lookup (c.keyOf t) targets = some entry) (he : entry.position = i)
      (hs : lookup (c.keyOf t) left = some s)
      (hm : c.makeMapping (.member s.member) t = .error e) : Stops c r targets left (i, t) e
  /-- There is no source member of its name, and the mode asks for one. -/
  | unmatched {i t entry} (hi : r.override? i = none)
      (ht : lookup (c.keyOf t) targets = some entry) (he : entry.position = i)
      (hs : lookup (c.keyOf t) left = none) (hmode : c.options.mode.requiresAllTargets = true) :
      Stops c r targets left (i, t)
        (.unmappedTarget (ownerLabel c.targetType c.targetMembers) t.name)

/-- Where the walk stops, it fails, whatever is listed behind. -/
theorem Stops.walk_eq_error (h : c.Stops r targets left p e) :
    c.walk r targets left (p :: after) = .error e := by
  cases h with
  | unresolved hi hb => rw [walk_of_override hi, hb, Except.bind]
  | override hi hb hm => rw [walk_of_override hi, hb, Except.bind, hm, Except.bind]
  | pair hi ht he hs hm =>
    rw [walk_of_listed hi ht he, hs]
    dsimp only
    rw [hm, Except.bind]
  | unmatched hi ht he hs hmode =>
    rw [walk_of_listed hi ht he, hs]
    dsimp only
    rw [hmode, if_pos rfl]

/-- After a run of the steps the walk fails where the next step does. -/
theorem Pairs.walk_eq_error (h : c.Pairs r targets sources before placed left)
    (hstop : c.Stops r targets left p e) :
    c.walk r targets sources (before ++ p :: after) = .error e := by
  induction h with
  | done => exact hstop.walk_eq_error
  | override hi hb hm _ ih =>
    rw [List.cons_append, walk_of_override hi, hb, Except.bind, hm, Except.bind, ih hstop,
      Except.map]
  | pair hi ht he hs hm _ ih =>
    rw [List.cons_append, walk_of_listed hi ht he, hs]
    dsimp only
    rw [hm, Except.bind, ih hstop, Except.map]
  | unlisted hi ht _ ih => rw [List.cons_append, walk_of_unlisted hi ht, ih hstop]
  | unmatched hi ht he hs hmode _ ih =>
    rw [List.cons_append, walk_of_listed hi ht he, hs]
    dsimp only
    rw [hmode, if_neg Bool.false_ne_true, ih hstop]

/-- The step of the first member fails, or it succeeds and the walk fails later. -/
theorem exists_stop_of_walk (h : c.walk r targets sources rest = .error e) :
    ∃ before p after, rest = before ++ p :: after ∧
      ∃ placed left, c.Pairs r targets sources before placed left ∧ c.Stops r targets left p e := by
  induction rest generalizing sources with
  | nil => cases h
  | cons p rest ih =>
    obtain ⟨i, t⟩ := p
    rw [exists_place_cons_iff]
    cases hi : r.override? i with
    | some b =>
      rw [walk_of_override hi, Except.bind_eq_error_iff] at h
      rcases h with hb | ⟨source, hb, h⟩
      · exact .inl ⟨[], sources, .done _, .unresolved hi hb⟩
      rcases Except.bind_eq_error_iff.mp h with hm | ⟨m, hm, h⟩
      · exact .inl ⟨[], sources, .done _, .override hi hb hm⟩
      obtain ⟨before, p, after, hsplit, placed, left, hpairs, hstop⟩ :=
        ih (Except.map_eq_error_iff.mp h)
      exact .inr ⟨before, p, after, hsplit, _, left, .override hi hb hm hpairs, hstop⟩
    | none =>
      rcases c.listed_or_unlisted targets i t with ⟨entry, ht, he⟩ | ht
      · rw [walk_of_listed hi ht he] at h
        split at h
        · next s hs =>
          rcases Except.bind_eq_error_iff.mp h with hm | ⟨m, hm, h⟩
          · exact .inl ⟨[], sources, .done _, .pair hi ht he hs hm⟩
          obtain ⟨before, p, after, hsplit, placed, left, hpairs, hstop⟩ :=
            ih (Except.map_eq_error_iff.mp h)
          exact .inr ⟨before, p, after, hsplit, _, left, .pair hi ht he hs hm hpairs, hstop⟩
        · next hs =>
          split at h
          · next hmode =>
            cases h
            exact .inl ⟨[], sources, .done _, .unmatched hi ht he hs hmode⟩
          · next hmode =>
            obtain ⟨before, p, after, hsplit, placed, left, hpairs, hstop⟩ := ih h
            exact .inr ⟨before, p, after, hsplit, placed, left,
              .unmatched hi ht he hs (Bool.not_eq_true _ ▸ hmode) hpairs, hstop⟩
      · rw [walk_of_unlisted hi ht] at h
        obtain ⟨before, p, after, hsplit, placed, left, hpairs, hstop⟩ := ih h
        exact .inr ⟨before, p, after, hsplit, placed, left, .unlisted hi ht hpairs, hstop⟩

/-- A walk fails at the first member whose step fails. -/
theorem walk_eq_error_iff : c.walk r targets sources rest = .error e ↔
    ∃ before p after, rest = before ++ p :: after ∧
      ∃ placed left, c.Pairs r targets sources before placed left ∧ c.Stops r targets left p e := by
  refine ⟨exists_stop_of_walk, ?_⟩
  rintro ⟨before, p, after, rfl, placed, left, hpairs, hstop⟩
  exact hpairs.walk_eq_error hstop

/-- A step that fails because a member is unmapped is that of a target member without a source
member. -/
theorem Stops.of_isUnmapped (h : c.Stops r targets left p e) (he : e.isUnmapped = true) :
    r.override? p.1 = none ∧
      (∃ entry, lookup (c.keyOf p.2) targets = some entry ∧ entry.position = p.1) ∧
      lookup (c.keyOf p.2) left = none ∧ c.options.mode.requiresAllTargets = true ∧
      e = .unmappedTarget (ownerLabel c.targetType c.targetMembers) p.2.name := by
  cases h with
  | unresolved _ hb =>
    rw [isUnmapped_of_resolveBinding hb] at he
    cases he
  | override _ _ hm | pair _ _ _ _ hm =>
    rw [isUnmapped_of_makeMapping hm] at he
    cases he
  | unmatched hi ht hpos hs hmode => exact ⟨hi, ⟨_, ht, hpos⟩, hs, hmode, rfl⟩

/-! ## What is left to pair -/

/-- The normalized names that the placed mappings without overrides fill. -/
def pairedKeys (c : Configuration σ τ) (r : Replay σ) (placed : List (Placed σ τ)) : List String :=
  (placed.filter fun p => (r.override? p.1).isNone).map fun p => c.keyOf p.2.target

theorem mem_pairedKeys {key : String} : key ∈ c.pairedKeys r placed ↔
    ∃ p ∈ placed, r.override? p.1 = none ∧ c.keyOf p.2.target = key := by
  simp only [pairedKeys, List.mem_map, List.mem_filter, Option.isNone_iff_eq_none, and_assoc]

/-- A walk leaves the source members whose names it did not fill, in their order. -/
theorem Pairs.left_eq_filter (h : c.Pairs r targets sources rest placed left) :
    left = sources.filter fun s => !(c.pairedKeys r placed).contains s.key := by
  induction h with
  | done => simp [pairedKeys]
  | @override _ _ _ placed i _ _ m _ hi _ _ _ ih =>
    have hkeys : c.pairedKeys r ((i, m) :: placed) = c.pairedKeys r placed := by
      simp [pairedKeys, hi]
    rw [hkeys, ih]
  | @pair _ _ _ placed i t _ _ m hi _ _ _ hm _ ih =>
    have hkeys : c.pairedKeys r ((i, m) :: placed) = c.keyOf t :: c.pairedKeys r placed := by
      simp [pairedKeys, hi, (makeMapping_eq_ok hm).2.1]
    rw [hkeys, ih, List.filter_filter]
    refine List.filter_congr fun s _ => ?_
    rw [List.contains_cons, Bool.not_or, bne, Bool.and_comm]
  | unlisted _ _ _ ih | unmatched _ _ _ _ _ _ ih => exact ih

end Configuration

end Crosswalk
