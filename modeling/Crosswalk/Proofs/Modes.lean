import Crosswalk.Proofs.Variants

/-!
# What the mode decides

The mode tells which members without a counterpart are faults, and nothing else. What validates
under one mode validates to the same list under every mode that requires no more
(`Configuration.validate_of_within`). Hence all modes that accept a configuration give it the
same list, the relaxed mode accepts what any mode accepts, and the strict mode what both
one-sided modes accept (`Configuration.validate_withMode`).
-/

namespace Crosswalk

variable {σ τ : Type}

namespace MappingMode

/-- The relaxed mode requires nothing. -/
theorem relaxed_within (m : MappingMode) : relaxed.Within m := ⟨nofun, nofun⟩

/-- The strict mode requires all that any mode does. -/
theorem within_strict (m : MappingMode) : m.Within strict := ⟨fun _ => rfl, fun _ => rfl⟩

end MappingMode

namespace Configuration

variable {c : Configuration σ τ} {r : Replay σ} {sources left left' : List (IndexEntry σ)}
  {targets : List (IndexEntry τ)} {placed placed' : List (Placed σ τ)}

theorem sameMembers_withMode (c : Configuration σ τ) (mode mode' : MappingMode) :
    (c.withMode mode).SameMembers (c.withMode mode') := ⟨rfl, rfl, rfl, rfl, rfl⟩

/-- A mode that requires no more accepts what another accepts, with the same list. -/
theorem validate_of_within {mode mode' : MappingMode} (hmode : mode.Within mode')
    {ms : List (Mapping σ τ)} (h : (c.withMode mode').validate = .ok ms) :
    (c.withMode mode).validate = .ok ms := by
  have hallowed := allowed_of_validate h
  exact (c.sameMembers_withMode mode mode').validate_eq_ok rfl hmode h hallowed

/-- The modes that accept a configuration give it one list: that of the relaxed mode. -/
theorem eq_of_validate_withMode {mode mode' : MappingMode} {ms ms' : List (Mapping σ τ)}
    (h : (c.withMode mode).validate = .ok ms) (h' : (c.withMode mode').validate = .ok ms') :
    ms = ms' :=
  Except.ok.inj ((validate_of_within mode.relaxed_within h).symm.trans
    (validate_of_within mode'.relaxed_within h'))

/-- Validation goes one way: what the overrides read and what is left over is determined. -/
theorem Derives.unique {r' : Replay σ} {sources' : List (IndexEntry σ)}
    {targets' : List (IndexEntry τ)} (h : c.Derives r sources targets placed left)
    (h' : c.Derives r' sources' targets' placed' left') :
    left = left' ∧ c.readNames r placed = c.readNames r' placed' := by
  obtain rfl := Except.ok.inj (h.replayed.symm.trans h'.replayed)
  obtain rfl := Except.ok.inj (h.sourcesIndexed.symm.trans h'.sourcesIndexed)
  obtain rfl := Except.ok.inj (h.targetsIndexed.symm.trans h'.targetsIndexed)
  have hwalk := Except.ok.inj (h.pairs.walk_eq_ok.symm.trans h'.pairs.walk_eq_ok)
  exact ⟨congrArg Walk.remaining hwalk, congrArg Walk.readNames hwalk⟩

/-- Where both one-sided modes accept a configuration, so does the strict mode: the one sees to
the target members, the other to the source members left over, and these are the same. -/
theorem validate_strict {ms ms' : List (Mapping σ τ)}
    (htargets : (c.withMode .allTargetMembers).validate = .ok ms)
    (hsources : (c.withMode .allSourceMembers).validate = .ok ms') :
    (c.withMode .strict).validate = .ok ms := by
  obtain ⟨r, sources, targets, placed, left, ht, rfl⟩ := validate_eq_ok_iff.mp htargets
  obtain ⟨r', sources', targets', placed', left', hs, rfl⟩ := validate_eq_ok_iff.mp hsources
  have hallowed := ht.pairs.made
  have hallowed' := hs.pairs.made
  obtain ⟨rfl, hnames⟩ := Derives.unique
    ((c.sameMembers_withMode .relaxed .allTargetMembers).derives rfl nofun ht hallowed nofun)
    ((c.sameMembers_withMode .relaxed .allSourceMembers).derives rfl nofun hs hallowed' nofun)
  have hread : ∀ e ∈ left, e.key ∈ c.readNames r placed := by
    have hread' := hs.leftRead rfl
    exact hnames ▸ hread'
  refine validate_eq_ok_iff.mpr ⟨r, sources, targets, placed, left, ?_, rfl⟩
  exact (c.sameMembers_withMode .strict .allTargetMembers).derives rfl (fun _ => rfl) ht hallowed
    fun _ => hread

/-- The mode tells failures from successes only: two modes that accept a configuration give it
one list, the relaxed mode accepts what any mode accepts, and the strict mode accepts what both
one-sided modes accept. -/
theorem validate_withMode (c : Configuration σ τ) :
    (∀ mode mode' ms ms', (c.withMode mode).validate = .ok ms →
      (c.withMode mode').validate = .ok ms' → ms = ms') ∧
    (∀ mode ms, (c.withMode mode).validate = .ok ms →
      (c.withMode .relaxed).validate = .ok ms) ∧
    ((∃ ms, (c.withMode .strict).validate = .ok ms) ↔
      (∃ ms, (c.withMode .allSourceMembers).validate = .ok ms) ∧
        ∃ ms, (c.withMode .allTargetMembers).validate = .ok ms) := by
  refine ⟨fun _ _ _ _ => eq_of_validate_withMode,
    fun mode _ => validate_of_within mode.relaxed_within, ?_, ?_⟩
  · rintro ⟨ms, hms⟩
    exact ⟨⟨ms, validate_of_within (MappingMode.within_strict _) hms⟩,
      ms, validate_of_within (MappingMode.within_strict _) hms⟩
  · rintro ⟨⟨ms', hsources⟩, ms, htargets⟩
    exact ⟨ms, validate_strict htargets hsources⟩

/-- Visitors to their badges, which leave out the telephone number. -/
def badges : Configuration Record Record :=
  let visitor : RecordSchema := ⟨"Visitor", [⟨"Name", .string⟩, ⟨"Phone", .string⟩]⟩
  let badge : RecordSchema := ⟨"Badge", [⟨"Name", .string⟩]⟩
  new "Visitor" "Badge" visitor.members badge.members

/-- Two modes mind the telephone number, and the other two give one list. -/
theorem validate_withMode_badges : ∃ ms, (badges.withMode .allTargetMembers).validate = .ok ms ∧
    ms.length = 1 ∧ (badges.withMode .relaxed).validate = .ok ms ∧
    (¬∃ ms, (badges.withMode .strict).validate = .ok ms) ∧
    ¬∃ ms, (badges.withMode .allSourceMembers).validate = .ok ms := by
  have hms : ∃ ms, (badges.withMode .allTargetMembers).validate = .ok ms ∧ ms.length = 1 :=
    ⟨_, rfl, rfl⟩
  have hstrict : ¬∃ ms, (badges.withMode .strict).validate = .ok ms := by
    rintro ⟨ms, hms⟩
    cases hms
  obtain ⟨ms, hms, hlength⟩ := hms
  obtain ⟨-, hrelaxed, hboth⟩ := validate_withMode badges
  exact ⟨ms, hms, hlength, hrelaxed _ ms hms, hstrict,
    fun hsources => hstrict (hboth.mpr ⟨hsources, ms, hms⟩)⟩

end Configuration

end Crosswalk
