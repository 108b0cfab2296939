import Crosswalk.Proofs.Agenda
import Crosswalk.Proofs.Clashes
import Crosswalk.Proofs.SourceCompleteness
import Crosswalk.Proofs.Stops

/-!
# Which members a failed validation names

Once the directives are replayed, validation reports an ambiguous name for the first clash
(`IndexReports`), a target member for the first that lacks a source member (`Unsupplied`), and a
source member for the first that is not used (`Unused`).

A walk that stops for want of a source member has paired only source members of other names, as the
eligible target members of one name are one member, which is indexed once
(`Indexed.not_mem_pairedKeys`). So what is missing from the names left is missing from the eligible
source members, and an earlier target member that lacked one would have stopped the walk before
(`Indexed.le_of_unsupplied`). A walk to the end leaves the source members in their order whatever it
takes out, so the first one left under a name that is not read is the first of all that are unused
(`Indexed.find?_left_eq_some_iff`).

Listings are of one member where the members are equal. So a member is overridden where any listing
of it is, and its other listings need no source member of their own.
-/

namespace Crosswalk

variable {σ τ : Type}

namespace Configuration

/-! ## Members without a counterpart -/

/-- Some listing of the target member is overridden. -/
def IsOverridden (c : Configuration σ τ) (r : Replay σ) (t : Member τ) : Prop :=
  ∃ p ∈ positioned c.targetMembers, (p.2 == t) = true ∧
    (r.override? p.1).isSome = true

/-- A target member that is eligible and not overridden, of whose normalized name no source member
is eligible. -/
structure Unsupplied (c : Configuration σ τ) (r : Replay σ) (p : Positioned τ) : Prop where
  eligible : p ∈ c.eligibleTargets r
  notOverridden : ¬c.IsOverridden r p.2
  alone : ∀ s ∈ c.eligibleSources r, c.keyOf s.2 ≠ c.keyOf p.2

/-- A source member that is eligible, but that no mapping without an override reads, and whose
normalized name no override reads. -/
structure Unused (c : Configuration σ τ) (r : Replay σ) (ms : List (Mapping σ τ))
    (p : Positioned σ) : Prop where
  eligible : p ∈ c.eligibleSources r
  unpaired : ∀ m ∈ ms, ¬c.IsOverridden r m.target → ∀ s, m.source = .member s →
    (s == p.2) = false
  unread : ∀ m ∈ ms, c.IsOverridden r m.target → ∀ s ∈ m.source.reads, c.keyOf s ≠ c.keyOf p.2

/-- The members of both sides are indexed, and walking over `ps` gives the mappings. -/
def WalksTo (c : Configuration σ τ) (r : Replay σ) (ps : List (Positioned τ))
    (ms : List (Mapping σ τ)) : Prop :=
  ∃ sources targets w, c.indexSources r = .ok sources ∧ c.indexTargets r = .ok targets ∧
    c.walk r targets sources ps = .ok w ∧ w.mappings = ms

/-- What holds of the indices when the target members are walked. -/
structure Indexed (c : Configuration σ τ) (r : Replay σ) (sources : List (IndexEntry σ))
    (targets : List (IndexEntry τ)) : Prop where
  regular : r.Regular c
  sourceIndex : IsIndex c.options.nameComparer (c.eligibleSources r) sources
  targetIndex : IsIndex c.options.nameComparer (c.eligibleTargets r) targets

variable {c : Configuration σ τ} {r : Replay σ} {sources left : List (IndexEntry σ)}
  {targets : List (IndexEntry τ)} {before after : List (Positioned τ)}
  {placed : List (Placed σ τ)} {p : Positioned τ} {s : Positioned σ} {e : MappingError}

/-- Equal members are overridden together. -/
theorem IsOverridden.of_beq {t u : Member τ} (h : c.IsOverridden r t) (hsame : (t == u) = true) :
    c.IsOverridden r u := by
  obtain ⟨p, hp, hpt, hover⟩ := h
  exact ⟨p, hp, BEq.trans hpt hsame, hover⟩

/-- A member is overridden by an override at one of its listings. -/
theorem isOverridden_of_listed (hp : p ∈ positioned c.targetMembers)
    (h : (r.override? p.1).isSome = true) : c.IsOverridden r p.2 :=
  ⟨p, hp, BEq.rfl, h⟩

theorem mem_positioned_of_eligible (h : p ∈ c.eligibleTargets r) :
    p ∈ positioned c.targetMembers :=
  (List.mem_filter.mp h).1

namespace Indexed

/-- The indices of a replay are those that the walk asks for. -/
theorem of_indices (hr : c.replay = .ok r) (hs : c.indexSources r = .ok sources)
    (ht : c.indexTargets r = .ok targets) : c.Indexed r sources targets where
  regular := regular_of_replay hr
  sourceIndex := isIndex_of_indexSources hs
  targetIndex := isIndex_of_indexTargets ht

/-- An indexed listing that is not overridden is of a member that is not: an override would stand
at the first listing, which would be indexed instead. -/
theorem not_isOverridden (h : c.Indexed r sources targets) {entry : IndexEntry τ}
    (he : entry ∈ targets) (hi : r.override? entry.position = none) :
    ¬c.IsOverridden r entry.member := by
  rintro ⟨⟨j, u⟩, hlisted, hsame, hover⟩
  obtain ⟨b, hb⟩ := Option.isSome_iff_exists.mp hover
  have hentry := mem_eligibleTargets.mp (h.targetIndex.listed entry he)
  obtain ⟨-, hname, -, -, -, hwrite⟩ := Member.beq_iff.mp hsame
  have heligible : (j, u) ∈ c.eligibleTargets r :=
    mem_eligibleTargets.mpr ⟨mem_positioned.mp hlisted, hwrite.trans hentry.2.1,
      (h.regular.exclusive j).isIgnored_eq_false hb⟩
  have hle : entry.position ≤ j := by
    obtain ⟨f, hf, hle, hfu⟩ := h.targetIndex.covers _ heligible
    have hkey : f.key = entry.key := by
      rw [h.targetIndex.key f hf, h.targetIndex.key entry he, Member.name_eq_of_beq hfu, hname]
    rwa [h.targetIndex.distinct.eq_of_key_eq hf he hkey] at hle
  obtain ⟨t, ht, hfirst⟩ := h.regular.first j b hb
  obtain rfl : u = t := Option.some.inj ((mem_positioned.mp hlisted).symm.trans ht)
  have hge : j ≤ entry.position := hfirst _ _ hentry.1 hname.symm
  rw [Nat.le_antisymm hle hge, hb] at hi
  cases hi

/-- A target member that may be filled is indexed, at its first listing. -/
theorem exists_entry (h : c.Indexed r sources targets) (hp : p ∈ c.eligibleTargets r) :
    ∃ entry ∈ targets, entry.position ≤ p.1 ∧ (entry.member == p.2) = true ∧
      lookup (c.keyOf p.2) targets = some entry := by
  obtain ⟨entry, he, hle, hsame⟩ := h.targetIndex.covers p hp
  refine ⟨entry, he, hle, hsame, h.targetIndex.distinct.lookup_eq_some_iff.mpr ⟨he, ?_⟩⟩
  rw [h.targetIndex.key entry he, Member.name_eq_of_beq hsame, keyOf]

/-- A normalized name is not found just when no eligible source member has it. -/
theorem lookup_sources_eq_none_iff (h : c.Indexed r sources targets) {key : String} :
    lookup key sources = none ↔ ∀ s ∈ c.eligibleSources r, c.keyOf s.2 ≠ key := by
  rw [lookup_eq_none_iff]
  constructor
  · intro hnone s hs hkey
    obtain ⟨entry, he, -, hsame⟩ := h.sourceIndex.covers s hs
    refine hnone entry he ?_
    rw [h.sourceIndex.key entry he, Member.name_eq_of_beq hsame]
    exact hkey
  · intro hnone entry he hkey
    rw [h.sourceIndex.key entry he] at hkey
    exact hnone _ (h.sourceIndex.listed entry he) hkey

/-! ### Target members -/

/-- No step before that of an indexed member uses up its name. -/
theorem not_mem_pairedKeys (h : c.Indexed r sources targets)
    (hordered : Ordered (before ++ p :: after))
    (hpairs : c.Pairs r targets sources before placed left) {entry : IndexEntry τ}
    (he : entry ∈ targets) (hpos : entry.position = p.1) :
    c.keyOf entry.member ∉ c.pairedKeys r placed := by
  rw [mem_pairedKeys]
  rintro ⟨q, hq, hauto, hqkey⟩
  cases hpairs.fills q hq with
  | override hover =>
    rw [hauto] at hover
    cases hover
  | pair _ he' hkey hqpos _ _ _ =>
    have hentry : entry.key = c.keyOf entry.member := h.targetIndex.key entry he
    have hsame := h.targetIndex.distinct.eq_of_key_eq he' he (by rw [hkey, hqkey, hentry])
    have hlt := hordered.lt_of_mem (hpairs.sublist.subset (List.mem_map_of_mem hq))
    rw [← hqpos, hsame, hpos] at hlt
    exact Nat.lt_irrefl _ hlt

/-- A target member that lacks a source member is not among those whose steps succeed. -/
theorem le_of_unsupplied (h : c.Indexed r sources targets)
    (hsplit : positioned c.targetMembers = before ++ p :: after)
    (hpairs : c.Pairs r targets sources before placed left)
    (hmode : c.options.mode.requiresAllTargets = true) {q : Positioned τ}
    (hq : c.Unsupplied r q) : p.1 ≤ q.1 := by
  by_contra hlt
  have hordered : Ordered (before ++ p :: after) := hsplit ▸ pairwise_positioned _
  obtain ⟨f, hf, hle, hsame, hlook⟩ := h.exists_entry hq.eligible
  have hkey : c.keyOf f.member = c.keyOf q.2 := by
    rw [keyOf, keyOf, Member.name_eq_of_beq hsame]
  have hlisted := mem_positioned_of_eligible (h.targetIndex.listed f hf)
  have hbefore : (f.position, f.member) ∈ before :=
    hordered.mem_of_lt (hsplit ▸ hlisted) (Nat.lt_of_le_of_lt hle (Nat.lt_of_not_le hlt))
  -- The step of that listing filled it, as the mode asks for a source member.
  obtain ⟨m, hm, hpos⟩ := hpairs.entry_placed hmode (hkey ▸ hlook) hbefore
  have htarget : (m.1, m.2.target) = (f.position, f.member) := by
    refine eq_of_mem_positioned ?_ hlisted hpos
    rw [hsplit]
    exact List.mem_append_left _ (hpairs.sublist.subset (List.mem_map_of_mem hm))
  cases hpairs.fills m hm with
  | override hover =>
    rw [hpos] at hover
    have hoverridden := isOverridden_of_listed hlisted (Option.isSome_of_eq_some hover)
    exact hq.notOverridden (hoverridden.of_beq hsame)
  | pair _ _ _ _ hs hskey _ =>
    refine hq.alone _ (h.sourceIndex.listed _ hs) ?_
    rw [keyOf, ← h.sourceIndex.key _ hs, hskey, (Prod.mk.inj htarget).2, hkey]

/-- Where a walk stops for want of a source member, no earlier target member lacks one. -/
theorem earliest_unsupplied (h : c.Indexed r sources targets)
    (hsplit : positioned c.targetMembers = before ++ p :: after)
    (hpairs : c.Pairs r targets sources before placed left)
    (hmode : c.options.mode.requiresAllTargets = true) (hi : r.override? p.1 = none)
    {entry : IndexEntry τ} (hlook : lookup (c.keyOf p.2) targets = some entry)
    (hpos : entry.position = p.1) (hnone : lookup (c.keyOf p.2) left = none) :
    Earliest (c.Unsupplied r) p := by
  have hordered : Ordered (before ++ p :: after) := hsplit ▸ pairwise_positioned _
  obtain ⟨hentry, -⟩ := mem_of_lookup hlook
  have hfree := h.not_mem_pairedKeys hordered hpairs hentry hpos
  have heligible := h.targetIndex.listed entry hentry
  obtain rfl : (entry.position, entry.member) = p :=
    eq_of_mem_positioned (mem_positioned_of_eligible heligible) (by simp [hsplit]) hpos
  refine ⟨⟨heligible, h.not_isOverridden hentry hi, ?_⟩, fun q hq => ?_⟩
  · rw [← h.lookup_sources_eq_none_iff, lookup_eq_none_iff]
    intro s hs hskey
    refine lookup_eq_none_iff.mp hnone s ?_ hskey
    rw [hpairs.left_eq_filter, List.mem_filter, hskey]
    exact ⟨hs, by simpa using hfree⟩
  · exact h.le_of_unsupplied hsplit hpairs hmode hq

/-- The first target member that lacks a source member stops the walk, if the mode asks for one. -/
theorem stops_of_earliest (h : c.Indexed r sources targets)
    (hpairs : c.Pairs r targets sources before placed left)
    (hmode : c.options.mode.requiresAllTargets = true) (hp : Earliest (c.Unsupplied r) p) :
    c.Stops r targets left p
      (.unmappedTarget (ownerLabel c.targetType c.targetMembers) p.2.name) := by
  obtain ⟨⟨heligible, hfree, halone⟩, hfirst⟩ := hp
  obtain ⟨entry, he, hle, hsame, hlook⟩ := h.exists_entry heligible
  have hentry : c.Unsupplied r (entry.position, entry.member) := by
    refine ⟨h.targetIndex.listed entry he, fun hover => hfree (hover.of_beq hsame), ?_⟩
    intro s hs
    rw [keyOf, keyOf, Member.name_eq_of_beq hsame]
    exact halone s hs
  have hi : r.override? p.1 = none := by
    rw [← Option.not_isSome_iff_eq_none]
    exact fun hover => hfree (isOverridden_of_listed (mem_positioned_of_eligible heligible) hover)
  have hnone : lookup (c.keyOf p.2) left = none := by
    rw [lookup_eq_none_iff, hpairs.left_eq_filter]
    intro s hs
    have hsources := lookup_eq_none_iff.mp (h.lookup_sources_eq_none_iff.mpr halone)
    exact hsources s (List.mem_filter.mp hs).1
  exact .unmatched hi hlook (Nat.le_antisymm hle (hfirst _ hentry)) hnone hmode

/-! ### Source members -/

/-- A placed mapping fills an overridden member just where it stands at the override. -/
theorem isOverridden_iff (h : c.Indexed r sources targets)
    (hpairs : c.Pairs r targets sources (positioned c.targetMembers) placed left)
    {m : Placed σ τ} (hm : m ∈ placed) :
    c.IsOverridden r m.2.target ↔ (r.override? m.1).isSome = true := by
  have hlisted : (m.1, m.2.target) ∈ positioned c.targetMembers :=
    hpairs.sublist.subset (List.mem_map_of_mem hm)
  refine ⟨fun hover => ?_, isOverridden_of_listed hlisted⟩
  cases hpairs.fills m hm with
  | override hi => exact Option.isSome_of_eq_some hi
  | pair hi he _ hpos _ _ _ =>
    have hentry := mem_positioned_of_eligible (h.targetIndex.listed _ he)
    have hsame := eq_of_mem_positioned hentry hlisted hpos
    refine absurd ((Prod.mk.inj hsame).2 ▸ hover) (h.not_isOverridden he ?_)
    rw [hpos, hi]

/-- The name of an eligible source member is filled just where a mapping without an override reads
that member. -/
theorem keyOf_mem_pairedKeys_iff (h : c.Indexed r sources targets)
    (hpairs : c.Pairs r targets sources (positioned c.targetMembers) placed left)
    (hs : s ∈ c.eligibleSources r) : c.keyOf s.2 ∈ c.pairedKeys r placed ↔
      ∃ m ∈ placed.map Prod.snd, ¬c.IsOverridden r m.target ∧
        ∃ a, m.source = .member a ∧ (a == s.2) = true := by
  rw [mem_pairedKeys]
  constructor
  · rintro ⟨m, hm, hauto, hkey⟩
    have hfree : ¬c.IsOverridden r m.2.target := by
      rw [h.isOverridden_iff hpairs hm, hauto]
      exact Bool.false_ne_true
    cases hpairs.fills m hm with
    | override hover =>
      rw [hauto] at hover
      cases hover
    | pair _ _ _ _ ha hakey hsource =>
      have hname := (h.sourceIndex.key _ ha).symm.trans (hakey.trans hkey)
      exact ⟨m.2, List.mem_map_of_mem hm, hfree, _, hsource,
        h.sourceIndex.beq_of_normalize_eq (h.sourceIndex.listed _ ha) hs hname⟩
  · rintro ⟨m, hm, hfree, a, ha, hsame⟩
    obtain ⟨m, hplaced, rfl⟩ := List.mem_map.mp hm
    cases hpairs.fills m hplaced with
    | override hi =>
      exact absurd ((h.isOverridden_iff hpairs hplaced).mpr (Option.isSome_of_eq_some hi)) hfree
    | pair hi _ _ _ he hkey hsource =>
      rw [ha, Computation.member.injEq] at hsource
      refine ⟨m, hplaced, hi, ?_⟩
      rw [← hkey, h.sourceIndex.key _ he, ← hsource, keyOf, Member.name_eq_of_beq hsame]

/-- The names that overrides read are those of what the mappings of overridden members read. -/
theorem mem_readNames_iff (h : c.Indexed r sources targets)
    (hpairs : c.Pairs r targets sources (positioned c.targetMembers) placed left) {key : String} :
    key ∈ c.readNames r placed ↔ ∃ m ∈ placed.map Prod.snd, c.IsOverridden r m.target ∧
      ∃ a ∈ m.source.reads, c.keyOf a = key := by
  rw [mem_readNames]
  constructor
  · rintro ⟨m, hm, hover, hreads⟩
    exact ⟨m.2, List.mem_map_of_mem hm, (h.isOverridden_iff hpairs hm).mpr hover, hreads⟩
  · rintro ⟨m, hm, hover, hreads⟩
    obtain ⟨m, hplaced, rfl⟩ := List.mem_map.mp hm
    exact ⟨m, hplaced, (h.isOverridden_iff hpairs hplaced).mp hover, hreads⟩

/-- An eligible source member is unused just where its normalized name is neither filled nor
read. -/
theorem unused_iff (h : c.Indexed r sources targets)
    (hpairs : c.Pairs r targets sources (positioned c.targetMembers) placed left) :
    c.Unused r (placed.map Prod.snd) s ↔ s ∈ c.eligibleSources r ∧
      c.keyOf s.2 ∉ c.pairedKeys r placed ∧ c.keyOf s.2 ∉ c.readNames r placed := by
  constructor
  · rintro ⟨heligible, hunpaired, hunread⟩
    rw [h.keyOf_mem_pairedKeys_iff hpairs heligible, h.mem_readNames_iff hpairs]
    refine ⟨heligible, ?_, ?_⟩
    · rintro ⟨m, hm, hfree, a, ha, hsame⟩
      rw [hunpaired m hm hfree a ha] at hsame
      cases hsame
    · rintro ⟨m, hm, hover, a, ha, hkey⟩
      exact hunread m hm hover a ha hkey
  · rintro ⟨heligible, hpaired, hread⟩
    rw [h.keyOf_mem_pairedKeys_iff hpairs heligible] at hpaired
    rw [h.mem_readNames_iff hpairs] at hread
    refine ⟨heligible, fun m hm hfree a ha => ?_, fun m hm hover a ha hkey => ?_⟩
    · exact Bool.eq_false_iff.mpr fun hsame => hpaired ⟨m, hm, hfree, a, ha, hsame⟩
    · exact hread ⟨m, hm, hover, a, ha, hkey⟩

/-- The first source member left under a name that is not read is the first unused one. -/
theorem find?_left_eq_some_iff (h : c.Indexed r sources targets)
    (hs : c.indexSources r = .ok sources)
    (hpairs : c.Pairs r targets sources (positioned c.targetMembers) placed left) :
    (left.find? fun e => !(c.readNames r placed).contains e.key).map IndexEntry.listing = some s ↔
      Earliest (c.Unused r (placed.map Prod.snd)) s := by
  have hfind := find?_indexFrom (fun key => !(c.pairedKeys r placed).contains key &&
    !(c.readNames r placed).contains key) hs
  rw [List.find?_nil, Option.map_none, Option.none_or] at hfind
  have hunused : (fun q => q ∈ c.eligibleSources r ∧
      (!(c.pairedKeys r placed).contains (c.keyOf q.2) &&
        !(c.readNames r placed).contains (c.keyOf q.2)) = true) =
      c.Unused r (placed.map Prod.snd) := by
    funext q
    rw [h.unused_iff hpairs]
    simp
  have hordered : Ordered (c.eligibleSources r) := (pairwise_positioned _).filter _
  rw [hpairs.left_eq_filter, List.find?_filter, ← hunused, ← hordered.find?_eq_some_iff]
  simp only [Bool.decide_and, Bool.decide_eq_true]
  rw [hfind]
  rfl

end Indexed

/-! ## Reports -/

/-- The members before a listed one are those up to its position. -/
theorem positioned_take_of_split {ρ : Type} {ms : List (Member ρ)} {q : Positioned ρ}
    {ps qs : List (Positioned ρ)} (h : positioned ms = ps ++ q :: qs) :
    (positioned ms).take q.1 = ps := by
  have hq : (positioned ms)[ps.length]? = some q := by simp [h]
  have hlength : ps.length = q.1 := by
    simp only [positioned, List.getElem?_map, List.getElem?_zipIdx, Nat.zero_add,
      Option.map_map, Option.map_eq_some_iff] at hq
    obtain ⟨m, -, rfl⟩ := hq
    rfl
  rw [h, ← hlength, List.take_left]

/-- After the replay, a validation indexes both sides, walks and checks what is left. -/
theorem validate_of_replay (hr : c.replay = .ok r) :
    c.validate = (c.indexSources r).bind fun sources => (c.indexTargets r).bind fun targets =>
      (c.walk r targets sources (positioned c.targetMembers)).bind c.checkSources := by
  rw [validate, hr]
  rfl

/-- The last check reports the first source member left of which no override reads the name. -/
theorem checkSources_eq_error_iff {w : Walk σ τ} : c.checkSources w = .error e ↔
    c.options.mode.requiresAllSources = true ∧
      ∃ entry, (w.remaining.find? fun e => !w.readNames.contains e.key) = some entry ∧
        e = .unmappedSource (ownerLabel c.sourceType c.sourceMembers) entry.member.name := by
  unfold checkSources
  split
  · next hmode =>
    split
    · next entry hentry =>
      simp only [hmode, hentry, true_and, Option.some.injEq, exists_eq_left', Except.error.injEq]
      exact eq_comm
    · next hnone => simp only [hnone, reduceCtorEq, false_and, exists_false, and_false]
  · next hmode => simp [hmode]

/-- An ambiguity of the source side is reported by its first clash. -/
theorem indexReports_indexSources (c : Configuration σ τ) (r : Replay σ) :
    IndexReports c.options.nameComparer (ownerLabel c.sourceType c.sourceMembers)
      (c.eligibleSources r) (c.indexSources r) :=
  indexReports_indexFrom ((pairwise_positioned _).filter _)

/-- An ambiguity of the target side is reported by its first clash. -/
theorem indexReports_indexTargets (c : Configuration σ τ) (r : Replay σ) :
    IndexReports c.options.nameComparer (ownerLabel c.targetType c.targetMembers)
      (c.eligibleTargets r) (c.indexTargets r) :=
  indexReports_indexFrom ((pairwise_positioned _).filter _)

/-- Where a member is reported as unmapped, both sides are indexed. -/
theorem exists_indices_of_isUnmapped (hr : c.replay = .ok r) (h : c.validate = .error e)
    (he : e.isUnmapped = true) : ∃ sources targets, c.indexSources r = .ok sources ∧
      c.indexTargets r = .ok targets ∧
      ((c.walk r targets sources (positioned c.targetMembers)).bind c.checkSources) = .error e := by
  rw [validate_of_replay hr, Except.bind_eq_error_iff] at h
  rcases h with h | ⟨sources, hs, h⟩
  · obtain ⟨p, q, -, rfl⟩ := ((c.indexReports_indexSources r).names e).mp h
    cases he
  rcases Except.bind_eq_error_iff.mp h with h | ⟨targets, ht, h⟩
  · obtain ⟨p, q, -, rfl⟩ := ((c.indexReports_indexTargets r).names e).mp h
    cases he
  · exact ⟨sources, targets, hs, ht, h⟩

/-- The target member reported is the first that lacks a source member, and is named only if the
walk comes to it. -/
theorem validate_eq_unmappedTarget_iff (hr : c.replay = .ok r) {owner name : String} :
    c.validate = .error (.unmappedTarget owner name) ↔
      c.options.mode.requiresAllTargets = true ∧
      owner = ownerLabel c.targetType c.targetMembers ∧
      ∃ p ms, Earliest (c.Unsupplied r) p ∧ name = p.2.name ∧
        c.WalksTo r ((positioned c.targetMembers).take p.1) ms := by
  constructor
  · intro h
    obtain ⟨sources, targets, hs, ht, h⟩ := exists_indices_of_isUnmapped hr h rfl
    have hindexed := Indexed.of_indices hr hs ht
    rcases Except.bind_eq_error_iff.mp h with hwalk | ⟨w, -, h⟩
    · obtain ⟨before, p, after, hsplit, placed, left, hpairs, hstop⟩ := walk_eq_error_iff.mp hwalk
      obtain ⟨hi, ⟨entry, hlook, hpos⟩, hnone, hmode, herror⟩ := hstop.of_isUnmapped rfl
      cases herror
      refine ⟨hmode, rfl, p, placed.map Prod.snd, ?_, rfl, ?_⟩
      · exact hindexed.earliest_unsupplied hsplit hpairs hmode hi hlook hpos hnone
      · rw [positioned_take_of_split hsplit]
        exact ⟨sources, targets, _, hs, ht, hpairs.walk_eq_ok, rfl⟩
    · obtain ⟨-, entry, -, herror⟩ := checkSources_eq_error_iff.mp h
      cases herror
  · rintro ⟨hmode, rfl, p, ms, hp, rfl, sources, targets, w, hs, ht, hwalk, -⟩
    obtain ⟨before, after, hsplit⟩ := List.append_of_mem (mem_positioned_of_eligible hp.1.eligible)
    rw [positioned_take_of_split hsplit] at hwalk
    obtain ⟨placed, hpairs, -, -⟩ := exists_pairs_of_walk hwalk
    have hstop := (Indexed.of_indices hr hs ht).stops_of_earliest hpairs hmode hp
    rw [validate_of_replay hr, hs, Except.bind, ht, Except.bind, hsplit,
      hpairs.walk_eq_error hstop, Except.bind]

/-- The source member reported is the first that is not used, after a walk to the end. -/
theorem validate_eq_unmappedSource_iff (hr : c.replay = .ok r) {owner name : String} :
    c.validate = .error (.unmappedSource owner name) ↔
      c.options.mode.requiresAllSources = true ∧
      owner = ownerLabel c.sourceType c.sourceMembers ∧
      ∃ s ms, c.WalksTo r (positioned c.targetMembers) ms ∧ Earliest (c.Unused r ms) s ∧
        name = s.2.name := by
  constructor
  · intro h
    obtain ⟨sources, targets, hs, ht, h⟩ := exists_indices_of_isUnmapped hr h rfl
    rcases Except.bind_eq_error_iff.mp h with hwalk | ⟨w, hwalk, h⟩
    · obtain ⟨before, p, after, -, placed, left, -, hstop⟩ := walk_eq_error_iff.mp hwalk
      obtain ⟨-, -, -, -, herror⟩ := hstop.of_isUnmapped rfl
      cases herror
    · obtain ⟨hmode, entry, hfind, herror⟩ := checkSources_eq_error_iff.mp h
      cases herror
      obtain ⟨placed, hpairs, hms, hnames⟩ := exists_pairs_of_walk hwalk
      refine ⟨hmode, rfl, entry.listing, _, ⟨sources, targets, w, hs, ht, hwalk, rfl⟩, ?_, rfl⟩
      rw [hms, ← (Indexed.of_indices hr hs ht).find?_left_eq_some_iff hs hpairs, ← hnames, hfind,
        Option.map_some]
  · rintro ⟨hmode, rfl, s, ms, ⟨sources, targets, w, hs, ht, hwalk, rfl⟩, hearliest, rfl⟩
    obtain ⟨placed, hpairs, hms, hnames⟩ := exists_pairs_of_walk hwalk
    rw [hms, ← (Indexed.of_indices hr hs ht).find?_left_eq_some_iff hs hpairs, ← hnames,
      Option.map_eq_some_iff] at hearliest
    obtain ⟨entry, hfind, rfl⟩ := hearliest
    rw [validate_of_replay hr, hs, Except.bind, ht, Except.bind, hwalk, Except.bind,
      checkSources_eq_error_iff]
    exact ⟨hmode, entry, hfind, rfl⟩

/-- Which members the failures name that say a name is ambiguous or a member unmapped. -/
structure Reports (c : Configuration σ τ) (r : Replay σ) : Prop where
  sources : IndexReports c.options.nameComparer (ownerLabel c.sourceType c.sourceMembers)
    (c.eligibleSources r) (c.indexSources r)
  targets : IndexReports c.options.nameComparer (ownerLabel c.targetType c.targetMembers)
    (c.eligibleTargets r) (c.indexTargets r)
  /-- A clash of source members is what a validation reports. -/
  ambiguousSource : ∀ e, c.indexSources r = .error e → c.validate = .error e
  /-- Without one, a clash of target members is. -/
  ambiguousTarget : ∀ index e, c.indexSources r = .ok index → c.indexTargets r = .error e →
    c.validate = .error e
  /-- A target member is reported just where it is the first that lacks a source member, the mode
  asks for one, and nothing fails before it. -/
  unmappedTarget : ∀ owner name, c.validate = .error (.unmappedTarget owner name) ↔
    c.options.mode.requiresAllTargets = true ∧ owner = ownerLabel c.targetType c.targetMembers ∧
      ∃ p ms, Earliest (c.Unsupplied r) p ∧ name = p.2.name ∧
        c.WalksTo r ((positioned c.targetMembers).take p.1) ms
  /-- A source member is reported just where it is the first that is not used, the mode minds, and
  nothing fails before. -/
  unmappedSource : ∀ owner name, c.validate = .error (.unmappedSource owner name) ↔
    c.options.mode.requiresAllSources = true ∧ owner = ownerLabel c.sourceType c.sourceMembers ∧
      ∃ s ms, c.WalksTo r (positioned c.targetMembers) ms ∧ Earliest (c.Unused r ms) s ∧
        name = s.2.name

/-- Once the directives are replayed, reports of ambiguous and unmapped members are exact. A replay
holds an override at the position of one listing. What is said here is said of members: a member is
overridden where some listing of it is, so that its repeated listings are never reported. -/
theorem reports_of_replay (hr : c.replay = .ok r) : c.Reports r where
  sources := c.indexReports_indexSources r
  targets := c.indexReports_indexTargets r
  ambiguousSource e h := by rw [validate_of_replay hr, h, Except.bind]
  ambiguousTarget index e hs h := by
    rw [validate_of_replay hr, hs, Except.bind, h, Except.bind]
  unmappedTarget _ _ := validate_eq_unmappedTarget_iff hr
  unmappedSource _ _ := validate_eq_unmappedSource_iff hr

/-- A note that is computed without reading one. -/
def excerpt : Configuration Record Record :=
  let lines : RecordSchema := ⟨"Line", [⟨"Page", .int .u8⟩, ⟨"Note", .string⟩, ⟨"Id", .int .i32⟩]⟩
  let entries : RecordSchema := ⟨"Entry", [⟨"Page", .int .u8⟩, ⟨"Note", .string⟩]⟩
  (new "Line" "Entry" lines.members entries.members).mapWith "Note"
    (.typed 0 .string fun _ => "see above")

/-- A computed note that is listed twice, before what no line has. -/
def digest : Configuration Record Record :=
  let lines : RecordSchema := ⟨"Line", [⟨"Page", .int .u8⟩]⟩
  let note : RecordSchema := ⟨"Entry", [⟨"Note", .string⟩]⟩
  let sums : RecordSchema := ⟨"Entry", [⟨"Total", .int .i32⟩, ⟨"Tax", .int .i32⟩]⟩
  (new "Line" "Entry" lines.members (note.members ++ note.members ++ sums.members)).mapWith "Note"
    (.typed 0 .string fun _ => "see above")

/-- Three numbers of one name but for the case. -/
def homonyms : Configuration Record Record :=
  let lines : RecordSchema :=
    ⟨"Line", [⟨"Page", .int .u8⟩, ⟨"Id", .int .i32⟩, ⟨"ID", .int .i64⟩, ⟨"id", .int .u8⟩]⟩
  (new "Line" "Entry" lines.members []).withNameComparer .ignoreCase

/-- The page is paired, and of what is left the note is declared before the number. The second
listing of the computed note is passed over, and the total comes before the tax. Of three numbers
the first two clash. -/
theorem reports_of_replay_excerpt :
    (∃ r, excerpt.replay = .ok r ∧
      excerpt.validate = .error (.unmappedSource "Line" "Note") ∧ excerpt.Reports r) ∧
    (∃ r, digest.replay = .ok r ∧
      digest.validate = .error (.unmappedTarget "Entry" "Total") ∧ digest.Reports r) ∧
    ∃ r, homonyms.replay = .ok r ∧
      homonyms.validate = .error (.ambiguousMember "Line" "Id" "ID" "id") ∧ homonyms.Reports r := by
  refine ⟨?_, ?_, ?_⟩
  · obtain ⟨r, hr⟩ : ∃ r, excerpt.replay = .ok r := ⟨_, rfl⟩
    exact ⟨r, hr, rfl, reports_of_replay hr⟩
  · obtain ⟨r, hr⟩ : ∃ r, digest.replay = .ok r := ⟨_, rfl⟩
    exact ⟨r, hr, rfl, reports_of_replay hr⟩
  · obtain ⟨r, hr⟩ : ∃ r, homonyms.replay = .ok r := ⟨_, rfl⟩
    exact ⟨r, hr, rfl, reports_of_replay hr⟩

end Configuration

end Crosswalk
