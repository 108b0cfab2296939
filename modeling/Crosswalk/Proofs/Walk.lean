import Crosswalk.Proofs.Indexing
import Crosswalk.Proofs.Replay

/-!
# The walk over the target members

`Configuration.Pairs` says step by step what a successful walk does: a target member is
overridden, paired with the source member of its name, or passed over. It places every
mapping at the position it fills, which the list of mappings forgets. Every successful walk is
such a run of steps (`Configuration.exists_pairs_of_walk`), and every run of steps a successful
walk (`Configuration.Pairs.walk_eq_ok`). The lemmas below say what holds of the placed mappings,
each by induction on the steps.
-/

namespace Crosswalk

variable {σ τ : Type}

/-- A mapping at the target position it fills. -/
abbrev Placed (σ τ : Type) : Type := Nat × Mapping σ τ

namespace Configuration

/-- The normalized name of a member under the comparer of the configuration. -/
def keyOf {ρ : Type} (c : Configuration σ τ) (m : Member ρ) : String :=
  c.options.nameComparer.normalize m.name

/-- A successful walk over target members: the source members left to pair, the target
members, the mappings placed and the source members left after it. -/
inductive Pairs (c : Configuration σ τ) (r : Replay σ) (targets : List (IndexEntry τ)) :
    List (IndexEntry σ) → List (Positioned τ) → List (Placed σ τ) → List (IndexEntry σ) → Prop
  | done (sources : List (IndexEntry σ)) : Pairs c r targets sources [] [] sources
  /-- An overridden member gets its own computation. -/
  | override {sources left rest placed i t b m source}
      (hi : r.override? i = some b) (hb : c.resolveBinding b = .ok source)
      (hm : c.makeMapping source t = .ok m) (h : Pairs c r targets sources rest placed left) :
      Pairs c r targets sources ((i, t) :: rest) ((i, m) :: placed) left
  /-- An indexed member gets the source member of its name, which is used up. -/
  | pair {sources left rest placed i t e s m} (hi : r.override? i = none)
      (ht : lookup (c.keyOf t) targets = some e) (he : e.position = i)
      (hs : lookup (c.keyOf t) sources = some s) (hm : c.makeMapping (.member s.member) t = .ok m)
      (h : Pairs c r targets (sources.filter fun s => s.key != c.keyOf t) rest placed left) :
      Pairs c r targets sources ((i, t) :: rest) ((i, m) :: placed) left
  /-- A member that is not indexed at its position is passed over. -/
  | unlisted {sources left rest placed i t} (hi : r.override? i = none)
      (ht : ∀ e, lookup (c.keyOf t) targets = some e → e.position ≠ i)
      (h : Pairs c r targets sources rest placed left) :
      Pairs c r targets sources ((i, t) :: rest) placed left
  /-- A member without a source member of its name is passed over, if the mode lets it. -/
  | unmatched {sources left rest placed i t e} (hi : r.override? i = none)
      (ht : lookup (c.keyOf t) targets = some e) (he : e.position = i)
      (hs : lookup (c.keyOf t) sources = none)
      (hmode : c.options.mode.requiresAllTargets = false)
      (h : Pairs c r targets sources rest placed left) :
      Pairs c r targets sources ((i, t) :: rest) placed left

/-- The normalized names that the placed overrides read. -/
def readNames (c : Configuration σ τ) (r : Replay σ) (placed : List (Placed σ τ)) : List String :=
  placed.flatMap fun p =>
    if (r.override? p.1).isSome then p.2.source.reads.map c.keyOf else []

variable {c : Configuration σ τ} {r : Replay σ} {targets : List (IndexEntry τ)}
  {sources left : List (IndexEntry σ)} {rest : List (Positioned τ)} {placed : List (Placed σ τ)}

/-- A mapping is made of its source and its target by a plan between their types, if both are able.
-/
theorem makeMapping_eq_ok {source : Computation σ} {t : Member τ} {m : Mapping σ τ}
    (h : c.makeMapping source t = .ok m) : m.source = source ∧ m.target = t ∧
      t.canWrite = true ∧ (∀ s ∈ source.reads, s.canRead = true) ∧
      Coercion.resolve source.valueType t.type c.options.nullableBehavior = .ok m.plan := by
  unfold makeMapping Mapping.make at h
  split at h
  · cases h
  · next hwrite =>
    split at h
    · cases h
    · next hread =>
      split at h
      · next plan hplan =>
        cases h
        refine ⟨rfl, rfl, by simpa using hwrite, fun s hs => ?_, hplan⟩
        simpa using List.find?_eq_none.mp hread s hs
      · cases h
      · cases h

theorem makeMapping_of_resolve {source : Computation σ} {t : Member τ} {plan : Coercion}
    (hwrite : t.canWrite = true) (hread : ∀ s ∈ source.reads, s.canRead = true)
    (hplan : Coercion.resolve source.valueType t.type c.options.nullableBehavior = .ok plan) :
    c.makeMapping source t = .ok ⟨source, t, plan⟩ := by
  have hnone : source.reads.find? (fun s => !s.canRead) = none := by
    rw [List.find?_eq_none]
    intro s hs
    simp [hread s hs]
  simp [makeMapping, Mapping.make, hwrite, hnone, hplan]

/-! ## One step of the walk -/

section

variable {i : Nat} {t : Member τ}

/-- An overridden member is filled by its own computation. -/
theorem walk_of_override {b : Binding σ} (hi : r.override? i = some b) :
    c.walk r targets sources ((i, t) :: rest) =
      (c.resolveBinding b).bind fun source =>
      (c.makeMapping source t).bind fun m =>
      (c.walk r targets sources rest).map (Walk.cons m (source.reads.map c.keyOf)) := by
  simp only [walk, hi]
  rfl

/-- A listing that is neither overridden nor indexed is walked past. -/
theorem walk_of_unlisted (hi : r.override? i = none)
    (ht : ∀ e, lookup (c.keyOf t) targets = some e → e.position ≠ i) :
    c.walk r targets sources ((i, t) :: rest) = c.walk r targets sources rest := by
  simp only [keyOf] at ht
  cases hlook : lookup (c.options.nameComparer.normalize t.name) targets with
  | none => simp only [walk, hi, hlook]
  | some e => simp only [walk, hi, hlook, if_pos (ht e hlook)]

/-- An indexed member is filled from the source member of its name. -/
theorem walk_of_listed {e : IndexEntry τ} (hi : r.override? i = none)
    (ht : lookup (c.keyOf t) targets = some e) (he : e.position = i) :
    c.walk r targets sources ((i, t) :: rest) =
      match lookup (c.keyOf t) sources with
      | some s =>
        (c.makeMapping (.member s.member) t).bind fun m =>
        (c.walk r targets (sources.filter fun s => s.key != c.keyOf t) rest).map (Walk.cons m [])
      | none =>
        if c.options.mode.requiresAllTargets then
          .error (.unmappedTarget (ownerLabel c.targetType c.targetMembers) t.name)
        else c.walk r targets sources rest := by
  rw [keyOf] at ht
  simp only [walk, hi, ht, he, ne_eq, not_true_eq_false, if_false]
  rfl

theorem listed_or_unlisted (c : Configuration σ τ) (targets : List (IndexEntry τ)) (i : Nat)
    (t : Member τ) : (∃ e, lookup (c.keyOf t) targets = some e ∧ e.position = i) ∨
      ∀ e, lookup (c.keyOf t) targets = some e → e.position ≠ i := by
  by_cases h : ∃ e, lookup (c.keyOf t) targets = some e ∧ e.position = i
  · exact .inl h
  · exact .inr fun e he hpos => h ⟨e, he, hpos⟩

end

/-! ## Walks as runs of the steps -/

section

variable {i : Nat} {m : Mapping σ τ}

theorem readNames_cons_of_override {b : Binding σ} (hi : r.override? i = some b) :
    c.readNames r ((i, m) :: placed) = m.source.reads.map c.keyOf ++ c.readNames r placed := by
  simp only [readNames, List.flatMap_cons, hi, Option.isSome_some, if_true]

theorem readNames_cons_of_auto (hi : r.override? i = none) :
    c.readNames r ((i, m) :: placed) = c.readNames r placed := by
  simp only [readNames, List.flatMap_cons, hi, Option.isSome_none, Bool.false_eq_true, if_false,
    List.nil_append]

end

/-- Every successful walk is a run of the steps, and leaves what they leave. -/
theorem exists_pairs_of_walk {w : Walk σ τ} (h : c.walk r targets sources rest = .ok w) :
    ∃ placed, c.Pairs r targets sources rest placed w.remaining ∧
      w.mappings = placed.map Prod.snd ∧ w.readNames = c.readNames r placed := by
  induction rest generalizing sources w with
  | nil =>
    cases h
    exact ⟨[], .done _, rfl, rfl⟩
  | cons p rest ih =>
    obtain ⟨i, t⟩ := p
    cases hi : r.override? i with
    | some b =>
      rw [walk_of_override hi] at h
      obtain ⟨source, hsource, h⟩ := Except.bind_eq_ok_iff.mp h
      obtain ⟨m, hm, h⟩ := Except.bind_eq_ok_iff.mp h
      obtain ⟨w', hw', rfl⟩ := Except.map_eq_ok_iff.mp h
      obtain ⟨placed, hpairs, hms, hnames⟩ := ih hw'
      refine ⟨(i, m) :: placed, .override hi hsource hm hpairs, ?_, ?_⟩
      · simp only [Walk.cons, hms, List.map_cons]
      · rw [readNames_cons_of_override hi, (makeMapping_eq_ok hm).1, ← hnames, Walk.cons]
    | none =>
      rcases c.listed_or_unlisted targets i t with ⟨e, ht, he⟩ | ht
      · rw [walk_of_listed hi ht he] at h
        split at h
        · next s hs =>
          obtain ⟨m, hm, h⟩ := Except.bind_eq_ok_iff.mp h
          obtain ⟨w', hw', rfl⟩ := Except.map_eq_ok_iff.mp h
          obtain ⟨placed, hpairs, hms, hnames⟩ := ih hw'
          refine ⟨(i, m) :: placed, .pair hi ht he hs hm hpairs, ?_, ?_⟩
          · simp only [Walk.cons, hms, List.map_cons]
          · rw [readNames_cons_of_auto hi, ← hnames, Walk.cons, List.nil_append]
        · next hs =>
          split at h
          · cases h
          · next hmode =>
            obtain ⟨placed, hpairs, hrest⟩ := ih h
            exact ⟨placed, .unmatched hi ht he hs (Bool.not_eq_true _ ▸ hmode) hpairs, hrest⟩
      · rw [walk_of_unlisted hi ht] at h
        obtain ⟨placed, hpairs, hrest⟩ := ih h
        exact ⟨placed, .unlisted hi ht hpairs, hrest⟩

/-- Every run of the steps is a successful walk. -/
theorem Pairs.walk_eq_ok (h : c.Pairs r targets sources rest placed left) :
    c.walk r targets sources rest = .ok ⟨placed.map Prod.snd, left, c.readNames r placed⟩ := by
  induction h with
  | done => rfl
  | override hi hb hm _ ih =>
    rw [walk_of_override hi, hb, Except.bind, hm, Except.bind, ih, Except.map, Walk.cons,
      readNames_cons_of_override hi, (makeMapping_eq_ok hm).1, List.map_cons]
  | pair hi ht he hs hm _ ih =>
    rw [walk_of_listed hi ht he, hs]
    dsimp only
    rw [hm, Except.bind, ih, Except.map, Walk.cons, readNames_cons_of_auto hi, List.map_cons,
      List.nil_append]
  | unlisted hi ht _ ih => rw [walk_of_unlisted hi ht, ih]
  | unmatched hi ht he hs hmode _ ih =>
    rw [walk_of_listed hi ht he, hs]
    dsimp only
    rw [hmode, if_neg Bool.false_ne_true, ih]

/-- Why a mapping stands at its position: by an override, or by an indexed target member and
a source member of its name. -/
inductive Fills (c : Configuration σ τ) (r : Replay σ) (targets : List (IndexEntry τ))
    (sources : List (IndexEntry σ)) (p : Placed σ τ) : Prop
  | override {b} (hi : r.override? p.1 = some b)
      (hb : c.resolveBinding b = .ok p.2.source)
  | pair {e s} (hi : r.override? p.1 = none) (ht : e ∈ targets)
      (htkey : e.key = c.keyOf p.2.target) (he : e.position = p.1) (hs : s ∈ sources)
      (hskey : s.key = c.keyOf p.2.target) (hsource : p.2.source = .member s.member)

namespace Pairs

/-- The mappings are placed at target members walked over, in their order. -/
theorem sublist (h : c.Pairs r targets sources rest placed left) :
    (placed.map fun p => (p.1, p.2.target)).Sublist rest := by
  induction h with
  | done => exact .slnil
  | @override _ _ _ _ i _ _ _ _ _ _ hm _ ih
  | @pair _ _ _ _ i _ _ _ _ _ _ _ _ hm _ ih =>
    rw [List.map_cons, (makeMapping_eq_ok hm).2.1]
    exact ih.cons_cons _
  | unlisted _ _ _ ih | unmatched _ _ _ _ _ _ ih => exact ih.cons _

/-- Each placed mapping passed the check. -/
theorem made (h : c.Pairs r targets sources rest placed left) :
    ∀ p ∈ placed, c.makeMapping p.2.source p.2.target = .ok p.2 := by
  induction h with
  | done =>
    intro p hp
    cases hp
  | override _ _ hm _ ih | pair _ _ _ _ hm _ ih =>
    intro p hp
    rcases List.mem_cons.mp hp with rfl | hp
    · obtain ⟨hsource, htarget, -⟩ := makeMapping_eq_ok hm
      rw [hsource, htarget, hm]
    · exact ih p hp
  | unlisted _ _ _ ih | unmatched _ _ _ _ _ _ ih => exact ih

/-- Each mapping that is placed fills its target. -/
theorem fills (h : c.Pairs r targets sources rest placed left) :
    ∀ p ∈ placed, c.Fills r targets sources p := by
  induction h with
  | done =>
    intro p hp
    cases hp
  | override hi hb hm _ ih =>
    intro p hp
    rcases List.mem_cons.mp hp with rfl | hp
    · refine .override hi ?_
      rw [hb, (makeMapping_eq_ok hm).1]
    · exact ih p hp
  | pair hi ht he hs hm _ ih =>
    intro p hp
    obtain ⟨hsource, htarget, -⟩ := makeMapping_eq_ok hm
    rcases List.mem_cons.mp hp with rfl | hp
    · rw [← htarget] at ht hs
      exact .pair hi (mem_of_lookup ht).1 (mem_of_lookup ht).2 he (mem_of_lookup hs).1
        (mem_of_lookup hs).2 hsource
    · cases ih p hp with
      | override hi hb => exact .override hi hb
      | pair hi ht htkey he hs hskey hsource =>
        exact .pair hi ht htkey he (List.mem_filter.mp hs).1 hskey hsource
  | unlisted _ _ _ ih | unmatched _ _ _ _ _ _ ih => exact ih

/-- No overridden member is passed over. -/
theorem override_placed (h : c.Pairs r targets sources rest placed left) :
    ∀ q ∈ rest, (r.override? q.1).isSome → ∃ p ∈ placed, p.1 = q.1 := by
  induction h with
  | done =>
    intro q hq
    cases hq
  | override _ _ _ _ ih | pair _ _ _ _ _ _ ih =>
    intro q hq hover
    rcases List.mem_cons.mp hq with rfl | hq
    · exact ⟨_, List.mem_cons_self, rfl⟩
    · obtain ⟨p, hp, heq⟩ := ih q hq hover
      exact ⟨p, List.mem_cons_of_mem _ hp, heq⟩
  | unlisted hi _ _ ih | unmatched hi _ _ _ _ _ ih =>
    intro q hq hover
    rcases List.mem_cons.mp hq with rfl | hq
    · rw [hi] at hover
      cases hover
    · exact ih q hq hover

/-- In a mode that needs all target members, no indexed one is passed over. -/
theorem entry_placed (h : c.Pairs r targets sources rest placed left)
    (hmode : c.options.mode.requiresAllTargets = true) {e : IndexEntry τ}
    (he : lookup (c.keyOf e.member) targets = some e) :
    (e.position, e.member) ∈ rest → ∃ p ∈ placed, p.1 = e.position := by
  induction h with
  | done =>
    intro hmem
    cases hmem
  | override _ _ _ _ ih | pair _ _ _ _ _ _ ih =>
    intro hmem
    rcases List.mem_cons.mp hmem with heq | hmem
    · exact ⟨_, List.mem_cons_self, (congrArg Prod.fst heq).symm⟩
    · obtain ⟨p, hp, heq⟩ := ih hmem
      exact ⟨p, List.mem_cons_of_mem _ hp, heq⟩
  | unlisted _ ht _ ih =>
    intro hmem
    rcases List.mem_cons.mp hmem with heq | hmem
    · obtain ⟨rfl, rfl⟩ := Prod.mk.inj heq
      exact absurd rfl (ht e he)
    · exact ih hmem
  | unmatched _ _ _ _ hfree _ _ =>
    rw [hmode] at hfree
    cases hfree

/-- An indexed member without an override is filled from the source member of its name. -/
theorem pair_placed (h : c.Pairs r targets sources rest placed left) {e : IndexEntry τ}
    {s : IndexEntry σ} (hi : r.override? e.position = none)
    (he : lookup (c.keyOf e.member) targets = some e)
    (hs : lookup (c.keyOf e.member) sources = some s) : (e.position, e.member) ∈ rest →
      ∃ m, (e.position, m) ∈ placed ∧ m.source = .member s.member := by
  induction h with
  | done =>
    intro hmem
    cases hmem
  | override hover _ _ _ ih =>
    intro hmem
    rcases List.mem_cons.mp hmem with heq | hmem
    · obtain ⟨rfl, rfl⟩ := Prod.mk.inj heq
      rw [hi] at hover
      cases hover
    · obtain ⟨m, hm, hsource⟩ := ih hs hmem
      exact ⟨m, List.mem_cons_of_mem _ hm, hsource⟩
  | @pair _ _ _ _ i t e' s' m _ ht he' hs' hm _ ih =>
    intro hmem
    by_cases hkey : c.keyOf e.member = c.keyOf t
    · rw [hkey, ht, Option.some_inj] at he
      rw [hkey, hs', Option.some_inj] at hs
      rw [← he, ← hs, he']
      exact ⟨m, List.mem_cons_self, (makeMapping_eq_ok hm).1⟩
    · rcases List.mem_cons.mp hmem with heq | hmem
      · exact absurd (congrArg (fun p => c.keyOf p.2) heq) hkey
      · rw [← lookup_filter_of_ne _ hkey] at hs
        obtain ⟨m', hm', hsource⟩ := ih hs hmem
        exact ⟨m', List.mem_cons_of_mem _ hm', hsource⟩
  | unlisted _ ht _ ih =>
    intro hmem
    rcases List.mem_cons.mp hmem with heq | hmem
    · obtain ⟨rfl, rfl⟩ := Prod.mk.inj heq
      exact absurd rfl (ht e he)
    · exact ih hs hmem
  | unmatched _ _ _ hnone _ _ ih =>
    intro hmem
    rcases List.mem_cons.mp hmem with heq | hmem
    · obtain ⟨rfl, rfl⟩ := Prod.mk.inj heq
      rw [hs] at hnone
      cases hnone
    · exact ih hs hmem

/-- A source member to pair is left over, or some mapping without an override reads it. -/
theorem left_or_paired (h : c.Pairs r targets sources rest placed left)
    (hkeys : DistinctKeys sources) : ∀ s ∈ sources, s ∈ left ∨
      ∃ p ∈ placed, r.override? p.1 = none ∧ p.2.source = .member s.member := by
  induction h with
  | done => exact fun s hs => .inl hs
  | override _ _ _ _ ih =>
    intro s hs
    refine (ih hkeys s hs).imp_right fun ⟨p, hp, hauto⟩ => ?_
    exact ⟨p, List.mem_cons_of_mem _ hp, hauto⟩
  | @pair _ _ _ _ _ t _ s' _ hi _ _ hlook hm _ ih =>
    intro s hs
    obtain ⟨hs', hkey⟩ := mem_of_lookup hlook
    by_cases heq : s.key = c.keyOf t
    · obtain rfl : s = s' := hkeys.eq_of_key_eq hs hs' (heq.trans hkey.symm)
      exact .inr ⟨_, List.mem_cons_self, hi, (makeMapping_eq_ok hm).1⟩
    · have hmem : s ∈ List.filter (fun s => s.key != c.keyOf t) _ :=
        List.mem_filter.mpr ⟨hs, bne_iff_ne.mpr heq⟩
      refine (ih (hkeys.filter _) s hmem).imp_right fun ⟨p, hp, hauto⟩ => ?_
      exact ⟨p, List.mem_cons_of_mem _ hp, hauto⟩
  | unlisted _ _ _ ih | unmatched _ _ _ _ _ _ ih => exact ih hkeys

end Pairs

end Configuration

end Crosswalk
