import Crosswalk.Proofs.PairingSoundness

/-!
# Configurations over the same members

Configurations may list the same members, compare names alike, and differ in the rest. Their
directives then mean the same (`Configuration.SameMembers.run_eq`), and with the same directives
they have one replay and one pair of indices. What one of them derives the other derives, if it
requires no more members to have a counterpart and allows each mapping of the list
(`Configuration.SameMembers.validate_eq_ok`). If the mappings of the one are those of the other,
changed in some way, then so are the lists, and the failures are the same
(`Configuration.SameMembers.validate_eq_map`).
-/

namespace Crosswalk

variable {σ τ : Type}

/-- The mode requires no more members to have a counterpart than the other mode. -/
structure MappingMode.Within (m m' : MappingMode) : Prop where
  targets : m.requiresAllTargets = true → m'.requiresAllTargets = true
  sources : m.requiresAllSources = true → m'.requiresAllSources = true

theorem MappingMode.Within.refl (m : MappingMode) : m.Within m := ⟨id, id⟩

/-- The result with each mapping changed. -/
def Walk.mapMappings (f : Mapping σ τ → Mapping σ τ) (w : Walk σ τ) : Walk σ τ :=
  ⟨w.mappings.map f, w.remaining, w.readNames⟩

namespace Configuration

/-- The configurations list the same members, and compare names alike. -/
structure SameMembers (c' c : Configuration σ τ) : Prop where
  sourceType : c'.sourceType = c.sourceType
  targetType : c'.targetType = c.targetType
  sourceMembers : c'.sourceMembers = c.sourceMembers
  targetMembers : c'.targetMembers = c.targetMembers
  nameComparer : c'.options.nameComparer = c.options.nameComparer

variable {c c' : Configuration σ τ} {r : Replay σ} {sources left : List (IndexEntry σ)}
  {targets : List (IndexEntry τ)} {rest : List (Positioned τ)} {placed : List (Placed σ τ)}

namespace SameMembers

theorem symm (h : c'.SameMembers c) : c.SameMembers c' :=
  ⟨h.sourceType.symm, h.targetType.symm, h.sourceMembers.symm, h.targetMembers.symm,
    h.nameComparer.symm⟩

/-! ## Directives and indices -/

/-- A directive does the same over the same members. -/
theorem step_eq (h : c'.SameMembers c) (r : Replay σ) (d : Directive σ) :
    r.step c' d = r.step c d := by
  cases d <;> simp only [Replay.step, sourcePositions, targetPositions, h.sourceMembers,
    h.targetMembers, h.targetType, h.nameComparer]

/-- A run of directives does the same over the same members. -/
theorem run_eq (h : c'.SameMembers c) :
    ∀ (ds : List (Directive σ)) (r : Replay σ), Replay.run c' r ds = Replay.run c r ds
  | [], _ => rfl
  | d :: ds, r => by
    simp only [Replay.run, h.step_eq, h.run_eq ds]

theorem replay_eq (h : c'.SameMembers c) (hd : c'.directives = c.directives) :
    c'.replay = c.replay := by
  rw [replay, replay, h.run_eq, hd]

theorem indexSources_eq (h : c'.SameMembers c) (r : Replay σ) :
    c'.indexSources r = c.indexSources r := by
  simp only [indexSources, h.sourceType, h.sourceMembers, h.nameComparer]

theorem indexTargets_eq (h : c'.SameMembers c) (r : Replay σ) :
    c'.indexTargets r = c.indexTargets r := by
  simp only [indexTargets, h.targetType, h.targetMembers, h.nameComparer]

theorem keyOf_eq {ρ : Type} (h : c'.SameMembers c) : (c'.keyOf : Member ρ → String) = c.keyOf := by
  funext m
  rw [keyOf, keyOf, h.nameComparer]

theorem readNames_eq (h : c'.SameMembers c) (r : Replay σ) (placed : List (Placed σ τ)) :
    c'.readNames r placed = c.readNames r placed := by
  rw [readNames, readNames, h.keyOf_eq]

/-- Bindings are looked up among the same members, under the same names. -/
theorem resolveBinding_eq (h : c'.SameMembers c) (b : Binding σ) :
    c'.resolveBinding b = c.resolveBinding b := by
  have hfind : c'.findSource = c.findSource := by
    funext name
    simp only [findSource, h.sourceType, h.sourceMembers, h.nameComparer]
  cases b <;> simp only [resolveBinding, hfind, h.sourceType]

/-! ## Walks and validation -/

/-- The steps of one walk are steps of the other, if it allows their mappings and requires no
more target members. -/
theorem pairs (h : c'.SameMembers c) (hmode : c'.options.mode.requiresAllTargets = true →
      c.options.mode.requiresAllTargets = true)
    (hpairs : c.Pairs r targets sources rest placed left)
    (hallowed : ∀ p ∈ placed, c'.makeMapping p.2.source p.2.target = .ok p.2) :
    c'.Pairs r targets sources rest placed left := by
  induction hpairs with
  | done sources => exact .done sources
  | override hi hb hm _ ih =>
    obtain ⟨hfirst, hrest⟩ := List.forall_mem_cons.mp hallowed
    obtain ⟨rfl, rfl, -⟩ := makeMapping_eq_ok hm
    exact .override hi (h.resolveBinding_eq _ ▸ hb) hfirst (ih hrest)
  | pair hi ht he hs hm _ ih =>
    obtain ⟨hfirst, hrest⟩ := List.forall_mem_cons.mp hallowed
    obtain ⟨hsource, rfl, -⟩ := makeMapping_eq_ok hm
    rw [← h.keyOf_eq] at ht hs ih
    exact .pair hi ht he hs (hsource ▸ hfirst) (ih hrest)
  | unlisted hi ht _ ih =>
    rw [← h.keyOf_eq] at ht
    exact .unlisted hi ht (ih hallowed)
  | unmatched hi ht he hs hfree _ ih =>
    rw [← h.keyOf_eq] at ht hs
    refine .unmatched hi ht he hs (Bool.eq_false_iff.mpr fun hreq => ?_) (ih hallowed)
    rw [hmode hreq] at hfree
    cases hfree

/-- The same holds of all that validation goes through, if the overrides read what the other
requires of the source members left. -/
theorem derives (h : c'.SameMembers c) (hd : c'.directives = c.directives)
    (hmode : c'.options.mode.requiresAllTargets = true → c.options.mode.requiresAllTargets = true)
    (hderives : c.Derives r sources targets placed left)
    (hallowed : ∀ p ∈ placed, c'.makeMapping p.2.source p.2.target = .ok p.2)
    (hleft : c'.options.mode.requiresAllSources = true → ∀ e ∈ left, e.key ∈ c.readNames r placed) :
    c'.Derives r sources targets placed left where
  replayed := (h.replay_eq hd).trans hderives.replayed
  sourcesIndexed := (h.indexSources_eq r).trans hderives.sourcesIndexed
  targetsIndexed := (h.indexTargets_eq r).trans hderives.targetsIndexed
  pairs := h.targetMembers ▸ h.pairs hmode hderives.pairs hallowed
  leftRead := h.readNames_eq r placed ▸ hleft

/-- A list that one configuration validates to is that of the other, if it allows each mapping
of the list and requires no more members to have a counterpart. -/
theorem validate_eq_ok (h : c'.SameMembers c) (hd : c'.directives = c.directives)
    (hmode : c'.options.mode.Within c.options.mode) {ms : List (Mapping σ τ)}
    (hms : c.validate = .ok ms)
    (hallowed : ∀ m ∈ ms, c'.makeMapping m.source m.target = .ok m) : c'.validate = .ok ms := by
  obtain ⟨r, sources, targets, placed, left, hderives, rfl⟩ := validate_eq_ok_iff.mp hms
  refine validate_eq_ok_iff.mpr ⟨r, sources, targets, placed, left, ?_, rfl⟩
  exact h.derives hd hmode.targets hderives
    (fun p hp => hallowed p.2 (List.mem_map_of_mem hp))
    fun hreq => hderives.leftRead (hmode.sources hreq)

/-! ## Mappings changed in some way -/

section

variable {f : Mapping σ τ → Mapping σ τ}

/-- If every mapping that one configuration makes is changed in some way in the other, or fails
in the same way, then so is what the walk leaves. -/
theorem walk_eq_map (h : c'.SameMembers c) (hmode : c'.options.mode = c.options.mode)
    (hmake : ∀ source t, c'.makeMapping source t = (c.makeMapping source t).map f) :
    c'.walk r targets sources rest =
      (c.walk r targets sources rest).map (Walk.mapMappings f) := by
  induction rest generalizing sources with
  | nil => rfl
  | cons p rest ih =>
    obtain ⟨i, t⟩ := p
    cases hi : r.override? i with
    | some b =>
      rw [walk_of_override hi, walk_of_override hi]
      simp only [h.resolveBinding_eq, h.keyOf_eq, hmake, ih, Except.map_bind, Except.bind_map,
        Except.map_map]
      rfl
    | none =>
      rcases c.listed_or_unlisted targets i t with ⟨e, ht, he⟩ | ht
      · rw [walk_of_listed hi ht he, walk_of_listed hi (h.keyOf_eq ▸ ht) he, h.keyOf_eq]
        cases lookup (c.keyOf t) sources with
        | some s =>
          simp only [hmake, ih, Except.map_bind, Except.bind_map, Except.map_map]
          rfl
        | none =>
          simp only [h.targetType, h.targetMembers, hmode, ih]
          split <;> rfl
      · rw [walk_of_unlisted hi ht, walk_of_unlisted hi (h.keyOf_eq ▸ ht), ih]

/-- The last check looks at the members that are left, and passes the mappings on. -/
theorem checkSources_eq_map (h : c'.SameMembers c) (hmode : c'.options.mode = c.options.mode)
    (w : Walk σ τ) : c'.checkSources (w.mapMappings f) = (c.checkSources w).map (List.map f) := by
  simp only [checkSources, Walk.mapMappings, h.sourceType, h.sourceMembers, hmode]
  split
  · split <;> rfl
  · rfl

/-- Then so is the validated list, and the failures are the same. -/
theorem validate_eq_map (h : c'.SameMembers c) (hd : c'.directives = c.directives)
    (hmode : c'.options.mode = c.options.mode)
    (hmake : ∀ source t, c'.makeMapping source t = (c.makeMapping source t).map f) :
    c'.validate = c.validate.map (List.map f) := by
  simp only [validate, h.replay_eq hd, h.indexSources_eq, h.indexTargets_eq, h.targetMembers,
    h.walk_eq_map hmode hmake, h.checkSources_eq_map hmode, Except.map_bind, Except.bind_map]

end

end SameMembers

/-- Each mapping of a validated list is one that the configuration allows. -/
theorem allowed_of_validate {ms : List (Mapping σ τ)} (h : c.validate = .ok ms) :
    ∀ m ∈ ms, c.makeMapping m.source m.target = .ok m := by
  obtain ⟨r, sources, targets, placed, left, hderives, rfl⟩ := validate_eq_ok_iff.mp h
  intro m hm
  obtain ⟨p, hp, rfl⟩ := List.mem_map.mp hm
  exact hderives.pairs.made p hp

end Configuration

end Crosswalk
