import Crosswalk.Proofs.Walk
import Crosswalk.Record

/-!
# What a validated configuration pairs

A configuration validates just when there are a replay and placed mappings which a walk over
indices of the eligible members leaves (`Configuration.validate_eq_ok_iff`). From this follows
what the mappings are: `Configuration.Paired` says which target members they fill, from
which source members, and which they leave out only where the mode lets them
(`Configuration.paired_of_validate`).
-/

namespace Crosswalk

variable {σ τ : Type}

namespace Configuration

/-! ## Eligible members -/

/-- The readable source members that are not ignored. -/
def eligibleSources (c : Configuration σ τ) (r : Replay σ) : List (Positioned σ) :=
  (positioned c.sourceMembers).filter fun p => p.2.canRead && !r.ignoresSource p.1

/-- The writable target members that are not ignored. -/
def eligibleTargets (c : Configuration σ τ) (r : Replay σ) : List (Positioned τ) :=
  (positioned c.targetMembers).filter fun p => p.2.canWrite && !r.ignoresTarget p.1

variable {c : Configuration σ τ} {r : Replay σ}

/-- A source listing is eligible if it can be read and is not ignored. -/
theorem mem_eligibleSources {p : Positioned σ} : p ∈ c.eligibleSources r ↔
    c.sourceMembers[p.1]? = some p.2 ∧ p.2.canRead = true ∧ r.ignoresSource p.1 = false := by
  simp only [eligibleSources, List.mem_filter, mem_positioned, Bool.and_eq_true,
    Bool.not_eq_true']

/-- A target listing is eligible if it can be written and is not ignored. -/
theorem mem_eligibleTargets {p : Positioned τ} : p ∈ c.eligibleTargets r ↔
    c.targetMembers[p.1]? = some p.2 ∧ p.2.canWrite = true ∧
      r.ignoresTarget p.1 = false := by
  simp only [eligibleTargets, List.mem_filter, mem_positioned, Bool.and_eq_true,
    Bool.not_eq_true']

theorem isIndex_of_indexSources {index : List (IndexEntry σ)} (h : c.indexSources r = .ok index) :
    IsIndex c.options.nameComparer (c.eligibleSources r) index :=
  isIndex_of_indexFrom (IsIndex.nil _) ((pairwise_positioned _).filter _) h

theorem isIndex_of_indexTargets {index : List (IndexEntry τ)} (h : c.indexTargets r = .ok index) :
    IsIndex c.options.nameComparer (c.eligibleTargets r) index :=
  isIndex_of_indexFrom (IsIndex.nil _) ((pairwise_positioned _).filter _) h

/-! ## The walk of a validated configuration -/

/-- Placed mappings that a walk over the target members leaves. -/
structure Walked (c : Configuration σ τ) (r : Replay σ) (sources : List (IndexEntry σ))
    (targets : List (IndexEntry τ)) (placed : List (Placed σ τ)) (left : List (IndexEntry σ)) :
    Prop where
  regular : r.Regular c
  sourceIndex : IsIndex c.options.nameComparer (c.eligibleSources r) sources
  targetIndex : IsIndex c.options.nameComparer (c.eligibleTargets r) targets
  pairs : c.Pairs r targets sources (positioned c.targetMembers) placed left
  /-- Overrides read the names left over, in a mode that needs all source members. -/
  leftRead : c.options.mode.requiresAllSources = true → ∀ e ∈ left, e.key ∈ c.readNames r placed

/-- What validation goes through when it succeeds: the replay, the two indices, the walk, and
the check of what the walk leaves. -/
structure Derives (c : Configuration σ τ) (r : Replay σ) (sources : List (IndexEntry σ))
    (targets : List (IndexEntry τ)) (placed : List (Placed σ τ)) (left : List (IndexEntry σ)) :
    Prop where
  replayed : c.replay = .ok r
  sourcesIndexed : c.indexSources r = .ok sources
  targetsIndexed : c.indexTargets r = .ok targets
  pairs : c.Pairs r targets sources (positioned c.targetMembers) placed left
  leftRead : c.options.mode.requiresAllSources = true → ∀ e ∈ left, e.key ∈ c.readNames r placed

/-- What a validation derives is walked: the indices are indices, and the walk is a run of steps. -/
theorem Derives.walked {sources left : List (IndexEntry σ)} {targets : List (IndexEntry τ)}
    {placed : List (Placed σ τ)} (h : c.Derives r sources targets placed left) :
    c.Walked r sources targets placed left where
  regular := regular_of_replay h.replayed
  sourceIndex := isIndex_of_indexSources h.sourcesIndexed
  targetIndex := isIndex_of_indexTargets h.targetsIndexed
  pairs := h.pairs
  leftRead := h.leftRead

/-- The last check passes if an override reads the name of every source member that is left. -/
theorem checkSources_eq_ok_iff {w : Walk σ τ} {ms : List (Mapping σ τ)} :
    c.checkSources w = .ok ms ↔ w.mappings = ms ∧
      (c.options.mode.requiresAllSources = true → ∀ e ∈ w.remaining, e.key ∈ w.readNames) := by
  unfold checkSources
  split
  · next hmode =>
    split
    · next e he =>
      have hunread := List.find?_some he
      simp only [Bool.not_eq_true', List.contains_eq_mem, decide_eq_false_iff_not] at hunread
      refine iff_of_false nofun fun ⟨_, h⟩ => hunread ?_
      exact h hmode e (List.mem_of_find?_eq_some he)
    · next hnone =>
      simp only [Except.ok.injEq, iff_self_and]
      intro _ _ e he
      simpa using List.find?_eq_none.mp hnone e he
  · next hmode => simp [hmode]

/-- A validation succeeds just when its parts do, one after the other. -/
theorem validate_eq_ok_iff {ms : List (Mapping σ τ)} : c.validate = .ok ms ↔
    ∃ r sources targets placed left, c.Derives r sources targets placed left ∧
      placed.map Prod.snd = ms := by
  simp only [validate, Except.bind_eq_ok_iff, checkSources_eq_ok_iff]
  constructor
  · rintro ⟨r, hr, sources, hsources, targets, htargets, w, hw, rfl, hleft⟩
    obtain ⟨placed, hpairs, hms, hnames⟩ := exists_pairs_of_walk hw
    rw [hnames] at hleft
    exact ⟨r, sources, targets, placed, w.remaining, ⟨hr, hsources, htargets, hpairs, hleft⟩,
      hms.symm⟩
  · rintro ⟨r, sources, targets, placed, left, h, rfl⟩
    refine ⟨r, h.replayed, sources, h.sourcesIndexed, targets, h.targetsIndexed, _,
      h.pairs.walk_eq_ok, rfl, ?_⟩
    exact h.leftRead

/-- The list of a validation is that of the mappings placed on a walk. -/
theorem exists_placed_of_validate {ms : List (Mapping σ τ)} (h : c.validate = .ok ms) :
    ∃ r sources targets placed left, c.replay = .ok r ∧ placed.map Prod.snd = ms ∧
      c.Walked r sources targets placed left := by
  obtain ⟨r, sources, targets, placed, left, hderives, hms⟩ := validate_eq_ok_iff.mp h
  exact ⟨r, sources, targets, placed, left, hderives.replayed, hms, hderives.walked⟩

namespace Walked

variable {sources left : List (IndexEntry σ)} {targets : List (IndexEntry τ)}
  {placed : List (Placed σ τ)} {p q : Placed σ τ}

/-- Mappings are placed in the order of their targets. -/
theorem increasing (h : c.Walked r sources targets placed left) :
    placed.Pairwise fun p q => p.1 < q.1 := by
  have hlt : (placed.map fun p => (p.1, p.2.target)).Pairwise fun p q => p.1 < q.1 :=
    (pairwise_positioned c.targetMembers).sublist h.pairs.sublist
  rwa [List.pairwise_map] at hlt

theorem target_eq (h : c.Walked r sources targets placed left) (hp : p ∈ placed) :
    c.targetMembers[p.1]? = some p.2.target := by
  have hmem := h.pairs.sublist.subset (List.mem_map_of_mem hp)
  exact mem_positioned.mp hmem

/-- What fills a target member is writable, and what it reads is readable. -/
theorem able (h : c.Walked r sources targets placed left) (hp : p ∈ placed) :
    p.2.target.canWrite = true ∧ ∀ s ∈ p.2.source.reads, s.canRead = true := by
  obtain ⟨-, -, hwrite, hread, -⟩ := makeMapping_eq_ok (h.pairs.made p hp)
  exact ⟨hwrite, hread⟩

/-- No mapping is placed at an ignored target. -/
theorem notIgnored (h : c.Walked r sources targets placed left) (hp : p ∈ placed) :
    r.ignoresTarget p.1 = false := by
  cases h.pairs.fills p hp with
  | override hi _ => exact (h.regular.exclusive p.1).isIgnored_eq_false hi
  | pair _ ht _ he _ _ _ =>
    have hlisted := mem_eligibleTargets.mp (h.targetIndex.listed _ ht)
    rw [← he]
    exact hlisted.2.2

theorem eligible_target (h : c.Walked r sources targets placed left) (hp : p ∈ placed) :
    (p.1, p.2.target) ∈ c.eligibleTargets r :=
  mem_eligibleTargets.mpr ⟨h.target_eq hp, (h.able hp).1, h.notIgnored hp⟩

/-- A mapping without an override is at the first place where its name is eligible. -/
theorem position_le_of_keyOf_eq (h : c.Walked r sources targets placed left) (hp : p ∈ placed)
    (hq : q ∈ placed) (hi : r.override? q.1 = none)
    (hkey : c.keyOf q.2.target = c.keyOf p.2.target) : q.1 ≤ p.1 := by
  cases h.pairs.fills q hq with
  | override hover _ =>
    rw [hi] at hover
    cases hover
  | pair _ he hekey hpos _ _ _ =>
    obtain ⟨f, hf, hle, hsame⟩ := h.targetIndex.covers _ (h.eligible_target hp)
    have hfkey : f.key = c.keyOf p.2.target := by
      rw [h.targetIndex.key f hf, Member.name_eq_of_beq hsame, keyOf]
    rw [← hpos, h.targetIndex.distinct.eq_of_key_eq he hf (by rw [hekey, hkey, hfkey])]
    exact hle

/-- A mapping after another fills a different member: an override stands at the first listing
of its member, and any other mapping at the first place of its name. -/
theorem distinct (h : c.Walked r sources targets placed left) (hp : p ∈ placed)
    (hq : q ∈ placed) (hlt : p.1 < q.1) : (p.2.target == q.2.target) = false := by
  by_contra hsame
  have hname := Member.name_eq_of_beq (Bool.not_eq_false _ ▸ hsame)
  have hle : q.1 ≤ p.1 := by
    cases hi : r.override? q.1 with
    | some b =>
      obtain ⟨t, ht, hfirst⟩ := h.regular.first q.1 b hi
      rw [h.target_eq hq, Option.some_inj] at ht
      exact hfirst p.1 p.2.target (h.target_eq hp) (ht ▸ hname)
    | none =>
      refine h.position_le_of_keyOf_eq hp hq hi ?_
      rw [keyOf, keyOf, hname]
  omega

/-- No two mappings fill one member. -/
theorem eq_of_target_beq (h : c.Walked r sources targets placed left) (hp : p ∈ placed)
    (hq : q ∈ placed) (hsame : (p.2.target == q.2.target) = true) : p = q := by
  rcases Nat.lt_trichotomy p.1 q.1 with hlt | heq | hlt
  · have hne := h.distinct hp hq hlt
    rw [hsame] at hne
    cases hne
  · have hnodup : (placed.map Prod.fst).Nodup :=
      List.pairwise_map.mpr (h.increasing.imp Nat.ne_of_lt)
    exact List.inj_on_of_nodup_map hnodup hp hq heq
  · have hne := h.distinct hq hp hlt
    rw [BEq.symm hsame] at hne
    cases hne

/-- A mapping without an override has an eligible source member of the name. -/
theorem auto (h : c.Walked r sources targets placed left) (hp : p ∈ placed)
    (hi : r.override? p.1 = none) :
    ∃ s ∈ c.eligibleSources r, c.keyOf s.2 = c.keyOf p.2.target ∧ p.2.source = .member s.2 := by
  cases h.pairs.fills p hp with
  | override hover _ =>
    rw [hi] at hover
    cases hover
  | pair _ _ _ _ hs hskey hsource =>
    refine ⟨_, h.sourceIndex.listed _ hs, ?_, hsource⟩
    rw [keyOf, ← h.sourceIndex.key _ hs, hskey]

/-- Mappings without overrides that read equal members are not one after the other. -/
theorem position_le_of_auto (h : c.Walked r sources targets placed left) (hp : p ∈ placed)
    (hq : q ∈ placed) (hip : r.override? p.1 = none)
    (hiq : r.override? q.1 = none) {a b : Member σ}
    (ha : p.2.source = .member a) (hb : q.2.source = .member b) (hab : (a == b) = true) :
    q.1 ≤ p.1 := by
  obtain ⟨s, -, hskey, hs⟩ := h.auto hp hip
  obtain ⟨u, -, hukey, hu⟩ := h.auto hq hiq
  obtain rfl : a = s.2 := by simpa [ha] using hs
  obtain rfl : b = u.2 := by simpa [hb] using hu
  refine h.position_le_of_keyOf_eq hp hq hiq ?_
  rw [← hukey, ← hskey, keyOf, keyOf, Member.name_eq_of_beq hab]

/-- Each override places its mapping. -/
theorem overridden (h : c.Walked r sources targets placed left) {i : Nat} {b : Binding σ}
    (hi : r.override? i = some b) :
    ∃ m, (i, m) ∈ placed ∧ c.resolveBinding b = .ok m.source := by
  obtain ⟨t, ht, -⟩ := h.regular.first i b hi
  obtain ⟨p, hp, heq⟩ := h.pairs.override_placed (i, t) (mem_positioned.mpr ht)
    (Option.isSome_of_eq_some hi)
  obtain rfl : p.1 = i := heq
  refine ⟨p.2, hp, ?_⟩
  cases h.pairs.fills p hp with
  | override hover hb =>
    rw [hi, Option.some_inj] at hover
    rwa [hover]
  | pair hno =>
    rw [hi] at hno
    cases hno

/-- In a mode that needs all target members, each eligible one is filled. -/
theorem complete (h : c.Walked r sources targets placed left)
    (hmode : c.options.mode.requiresAllTargets = true) {t : Positioned τ}
    (ht : t ∈ c.eligibleTargets r) : ∃ p ∈ placed, (p.2.target == t.2) = true := by
  obtain ⟨e, he, -, hsame⟩ := h.targetIndex.covers t ht
  have hlisted := (mem_eligibleTargets.mp (h.targetIndex.listed e he)).1
  have hlook : lookup (c.keyOf e.member) targets = some e :=
    h.targetIndex.distinct.lookup_eq_some_iff.mpr ⟨he, h.targetIndex.key e he⟩
  obtain ⟨p, hp, heq⟩ := h.pairs.entry_placed hmode hlook (mem_positioned.mpr hlisted)
  have htarget := h.target_eq hp
  rw [heq, hlisted, Option.some_inj] at htarget
  exact ⟨p, hp, htarget ▸ hsame⟩

end Walked

/-! ## The mappings -/

/-- What the mappings of a configuration are, at the positions they fill. -/
structure Paired (c : Configuration σ τ) (r : Replay σ) (placed : List (Placed σ τ)) : Prop where
  increasing : placed.Pairwise fun p q => p.1 < q.1
  target : ∀ p ∈ placed, c.targetMembers[p.1]? = some p.2.target
  distinct : placed.Pairwise fun p q => (p.2.target == q.2.target) = false
  writable : ∀ p ∈ placed, p.2.target.canWrite = true
  notIgnored : ∀ p ∈ placed, r.ignoresTarget p.1 = false
  readable : ∀ p ∈ placed, ∀ s ∈ p.2.source.reads, s.canRead = true
  /-- An overridden member is filled by its override. -/
  overridden : ∀ i b, r.override? i = some b →
    ∃ m, (i, m) ∈ placed ∧ c.resolveBinding b = .ok m.source
  /-- Another is filled from a readable source member of its name that is not ignored. -/
  auto : ∀ p ∈ placed, r.override? p.1 = none →
    ∃ j s, c.sourceMembers[j]? = some s ∧ s.canRead = true ∧ r.ignoresSource j = false ∧
      c.keyOf s = c.keyOf p.2.target ∧ p.2.source = .member s
  /-- No source member is paired by name with two target members. -/
  once : placed.Pairwise fun p q => r.override? p.1 = none →
    r.override? q.1 = none → ∀ a b, p.2.source = .member a →
      q.2.source = .member b → (a == b) = false
  complete : c.options.mode.requiresAllTargets = true → ∀ i t, c.targetMembers[i]? = some t →
    t.canWrite = true → r.ignoresTarget i = false →
      ∃ p ∈ placed, (p.2.target == t) = true

theorem Walked.paired {sources left : List (IndexEntry σ)} {targets : List (IndexEntry τ)}
    {placed : List (Placed σ τ)} (h : c.Walked r sources targets placed left) :
    c.Paired r placed where
  increasing := h.increasing
  target _ hp := h.target_eq hp
  distinct := h.increasing.imp_of_mem fun hp hq hlt => h.distinct hp hq hlt
  writable _ hp := (h.able hp).1
  notIgnored _ hp := h.notIgnored hp
  readable _ hp := (h.able hp).2
  overridden _ _ hi := h.overridden hi
  auto p hp hi := by
    obtain ⟨s, hs, hkey, hsource⟩ := h.auto hp hi
    obtain ⟨hlisted, hread, hadmitted⟩ := mem_eligibleSources.mp hs
    exact ⟨s.1, s.2, hlisted, hread, hadmitted, hkey, hsource⟩
  once := h.increasing.imp_of_mem fun hp hq hlt hip hiq a b ha hb => by
    by_contra hab
    have hle := h.position_le_of_auto hp hq hip hiq ha hb (Bool.not_eq_false _ ▸ hab)
    omega
  complete hmode i t ht hwrite hadmitted :=
    h.complete hmode (mem_eligibleTargets (p := (i, t)).mpr ⟨ht, hwrite, hadmitted⟩)

/-- A configuration that validates gives paired mappings. -/
theorem paired_of_validate {ms : List (Mapping σ τ)} (h : c.validate = .ok ms) :
    ∃ r placed, c.replay = .ok r ∧ placed.map Prod.snd = ms ∧ c.Paired r placed := by
  obtain ⟨r, sources, targets, placed, left, hr, hms, hwalked⟩ := exists_placed_of_validate h
  exact ⟨r, placed, hr, hms, hwalked.paired⟩

/-- Ledger lines into entries: the numbers by name, the notes as memos. -/
def ledger : Configuration Record Record :=
  let lines : RecordSchema := ⟨"Line", [⟨"Id", .int .i32⟩, ⟨"Note", .string⟩, ⟨"Page", .int .u8⟩]⟩
  let entries : RecordSchema :=
    ⟨"Entry", [⟨"ID", .int .i64⟩, ⟨"Memo", .nullable .string⟩, ⟨"Page", .int .u8⟩]⟩
  (((new "Line" "Entry" lines.members entries.members).withNameComparer .ignoreCase).mapMember
    "memo" "Note").ignoreTargetCascading "page"

theorem paired_of_validate_ledger : ∃ ms, ledger.validate = .ok ms ∧ ms.length = 2 ∧
    ∃ r placed, ledger.replay = .ok r ∧ placed.map Prod.snd = ms ∧ ledger.Paired r placed :=
  ⟨_, rfl, rfl, paired_of_validate rfl⟩

end Configuration

end Crosswalk
