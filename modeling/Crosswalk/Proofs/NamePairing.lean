import Crosswalk.Proofs.SourceCompleteness
import Crosswalk.Row

/-!
# Pairing by names alone

Without directives, members pair by their normalized names. Where the names of the two sides
match one to one and every pair has a plan (`Configuration.Matched`), each step of the walk
finds its source member (`Configuration.Ready.exists_pairs`), so validation succeeds under every
mode and fills each target member from the source member of its name
(`Configuration.exists_byName_of_matched`). The strict mode accepts nothing else
(`Configuration.validate_iff_matched`).
-/

namespace Crosswalk

variable {σ τ : Type}

namespace Configuration

/-- Nothing is said of any member, and each can take its part. -/
structure Plain (c : Configuration σ τ) : Prop where
  undirected : c.directives = []
  readable : ∀ s ∈ c.sourceMembers, s.canRead = true
  writable : ∀ t ∈ c.targetMembers, t.canWrite = true

/-- The normalized names of the two sides match one to one, and each pair has a plan. -/
structure Matched (c : Configuration σ τ) : Prop where
  sourceNames : (c.sourceMembers.map c.keyOf).Nodup
  targetNames : (c.targetMembers.map c.keyOf).Nodup
  sameNames : ∀ key, key ∈ c.sourceMembers.map c.keyOf ↔ key ∈ c.targetMembers.map c.keyOf
  convertible : ∀ s ∈ c.sourceMembers, ∀ t ∈ c.targetMembers, c.keyOf s = c.keyOf t →
    ∃ plan, Coercion.resolve s.type t.type c.options.nullableBehavior = .ok plan

/-- The mappings fill the target members one by one, each from the source member of its name
by the plan of the two types. -/
structure ByName (c : Configuration σ τ) (ms : List (Mapping σ τ)) : Prop where
  targets : ms.map Mapping.target = c.targetMembers
  sources : ∀ m ∈ ms, ∃ s ∈ c.sourceMembers, c.keyOf s = c.keyOf m.target ∧
    m.source = .member s ∧
      Coercion.resolve s.type m.target.type c.options.nullableBehavior = .ok m.plan

variable {c : Configuration σ τ}

/-! ## The walk over matched members -/

/-- What lets the walk over `rest` succeed: no member is overridden, each is indexed under a
name of its own, and some source member left to pair has the name and a plan. -/
structure Ready (c : Configuration σ τ) (r : Replay σ) (targets : List (IndexEntry τ))
    (sources : List (IndexEntry σ)) (rest : List (Positioned τ)) : Prop where
  auto : ∀ p ∈ rest, r.override? p.1 = none
  names : (rest.map fun p => c.keyOf p.2).Nodup
  indexed : ∀ p ∈ rest, ∃ e, lookup (c.keyOf p.2) targets = some e ∧ e.position = p.1
  matched : ∀ p ∈ rest, ∃ s, lookup (c.keyOf p.2) sources = some s ∧
    ∃ m, c.makeMapping (.member s.member) p.2 = .ok m

namespace Ready

variable {r : Replay σ} {targets : List (IndexEntry τ)} {sources : List (IndexEntry σ)}
  {rest : List (Positioned τ)}

/-- Pairing the first member leaves the rest their source members. -/
theorem tail {p : Positioned τ} (h : c.Ready r targets sources (p :: rest)) :
    c.Ready r targets (sources.filter fun s => s.key != c.keyOf p.2) rest where
  auto q hq := h.auto q (List.mem_cons_of_mem _ hq)
  names := (List.nodup_cons.mp h.names).2
  indexed q hq := h.indexed q (List.mem_cons_of_mem _ hq)
  matched q hq := by
    have hne : c.keyOf q.2 ≠ c.keyOf p.2 := by
      intro heq
      exact (List.nodup_cons.mp h.names).1 (List.mem_map.mpr ⟨q, hq, heq⟩)
    rw [lookup_filter_of_ne sources hne]
    exact h.matched q (List.mem_cons_of_mem _ hq)

/-- The walk gives every member a mapping, and uses up the source members of their names. -/
theorem exists_pairs (h : c.Ready r targets sources rest) :
    ∃ placed left, c.Pairs r targets sources rest placed left ∧
      placed.map (fun p => p.2.target) = rest.map Prod.snd ∧
        ∀ s ∈ left, s ∈ sources ∧ ∀ p ∈ rest, s.key ≠ c.keyOf p.2 := by
  induction rest generalizing sources with
  | nil => exact ⟨[], sources, .done _, rfl, fun s hs => ⟨hs, nofun⟩⟩
  | cons p rest ih =>
    obtain ⟨i, t⟩ := p
    obtain ⟨placed, left, hpairs, htargets, hleft⟩ := ih h.tail
    have hi : r.override? i = none := h.auto (i, t) List.mem_cons_self
    obtain ⟨e, he, hpos⟩ := h.indexed (i, t) List.mem_cons_self
    obtain ⟨s, hs, m, hm⟩ := h.matched (i, t) List.mem_cons_self
    refine ⟨(i, m) :: placed, left, .pair hi he hpos hs hm hpairs, ?_, ?_⟩
    · have htarget : m.target = t := (makeMapping_eq_ok hm).2.1
      simp only [List.map_cons, htarget, htargets]
    · intro s' hs'
      obtain ⟨hmem, hrest⟩ := hleft s' hs'
      obtain ⟨hsource, hkey⟩ := List.mem_filter.mp hmem
      exact ⟨hsource, List.forall_mem_cons.mpr ⟨bne_iff_ne.mp hkey, hrest⟩⟩

end Ready

/-! ## Plain configurations -/

namespace Plain

/-- Without directives, nothing is ignored or overridden. -/
theorem replay_eq (h : c.Plain) : c.replay = .ok .start := by
  rw [replay, h.undirected, Replay.run]

theorem eligibleSources_eq (h : c.Plain) :
    c.eligibleSources .start = positioned c.sourceMembers := by
  rw [eligibleSources, List.filter_eq_self]
  intro p hp
  have hread := h.readable _ (List.mem_of_getElem? (mem_positioned.mp hp))
  simp [hread, Replay.start]

theorem eligibleTargets_eq (h : c.Plain) :
    c.eligibleTargets .start = positioned c.targetMembers := by
  rw [eligibleTargets, List.filter_eq_self]
  intro p hp
  have hwrite := h.writable _ (List.mem_of_getElem? (mem_positioned.mp hp))
  simp [hwrite, Replay.start]

theorem eligible (h : c.Plain) {s : Member σ} (hs : s ∈ c.sourceMembers) :
    c.Eligible .start s := by
  obtain ⟨i, hi⟩ := List.mem_iff_getElem?.mp hs
  exact ⟨i, hi, h.readable s hs, rfl⟩

end Plain

/-- The entries of all members of one side. -/
def entries {ρ : Type} (c : Configuration σ τ) (ms : List (Member ρ)) : List (IndexEntry ρ) :=
  (positioned ms).map (IndexEntry.listed c.options.nameComparer)

section

variable {ρ : Type} {ms : List (Member ρ)}

theorem distinctKeys_entries (h : (ms.map c.keyOf).Nodup) : DistinctKeys (c.entries ms) := by
  rw [← positioned_map_snd ms] at h
  simpa [DistinctKeys, entries, IndexEntry.listed, keyOf, Function.comp_def] using h

/-- Where normalized names are distinct, each listing is found by its own. -/
theorem lookup_entries (h : (ms.map c.keyOf).Nodup) {p : Positioned ρ} (hp : p ∈ positioned ms) :
    lookup (c.keyOf p.2) (c.entries ms) = some (IndexEntry.listed c.options.nameComparer p) :=
  (distinctKeys_entries h).lookup_eq_some_iff.mpr ⟨List.mem_map_of_mem hp, rfl⟩

end

/-- Under distinct normalized names, the index of the source side holds each member. -/
theorem indexSources_of_nodup (h : c.Plain) (hnames : (c.sourceMembers.map c.keyOf).Nodup) :
    c.indexSources .start = .ok (c.entries c.sourceMembers) := by
  have hall := h.eligibleSources_eq
  rw [eligibleSources] at hall
  rw [indexSources, hall]
  exact indexFrom_of_distinctKeys (distinctKeys_entries hnames)

/-- Under distinct normalized names, the index of the target side holds each member. -/
theorem indexTargets_of_nodup (h : c.Plain) (hnames : (c.targetMembers.map c.keyOf).Nodup) :
    c.indexTargets .start = .ok (c.entries c.targetMembers) := by
  have hall := h.eligibleTargets_eq
  rw [eligibleTargets] at hall
  rw [indexTargets, hall]
  exact indexFrom_of_distinctKeys (distinctKeys_entries hnames)

/-! ## Matched members validate -/

/-- Matched members are ready to be walked over. -/
theorem Matched.ready (hplain : c.Plain) (h : c.Matched) :
    c.Ready .start (c.entries c.targetMembers) (c.entries c.sourceMembers)
      (positioned c.targetMembers) where
  auto _ _ := rfl
  names := by
    have hnames := h.targetNames
    rw [← positioned_map_snd c.targetMembers] at hnames
    simpa [Function.comp_def] using hnames
  indexed p hp := ⟨_, lookup_entries h.targetNames hp, rfl⟩
  matched p hp := by
    have ht := mem_of_positioned hp
    obtain ⟨s, hs, hkey⟩ := List.mem_map.mp ((h.sameNames _).mpr (List.mem_map_of_mem ht))
    obtain ⟨i, hi⟩ := exists_positioned hs
    obtain ⟨plan, hplan⟩ := h.convertible s hs p.2 ht hkey
    have hread : ∀ a ∈ (Computation.member s).reads, a.canRead = true :=
      List.forall_mem_singleton.mpr (hplain.readable s hs)
    refine ⟨_, hkey ▸ lookup_entries h.sourceNames hi, ⟨.member s, p.2, plan⟩, ?_⟩
    exact makeMapping_of_resolve (hplain.writable _ ht) hread hplan

/-- A source member is read by each mapping of a plain configuration, which has its name. -/
theorem exists_source_of_validate (hplain : c.Plain) {ms : List (Mapping σ τ)}
    (h : c.validate = .ok ms) {m : Mapping σ τ} (hm : m ∈ ms) :
    ∃ s ∈ c.sourceMembers, c.keyOf s = c.keyOf m.target ∧ m.source = .member s ∧
      Coercion.resolve s.type m.target.type c.options.nullableBehavior = .ok m.plan := by
  obtain ⟨r, sources, targets, placed, left, hr, rfl, hwalked⟩ := exists_placed_of_validate h
  obtain rfl : r = .start := Except.ok.inj (hr.symm.trans hplain.replay_eq)
  obtain ⟨p, hp, rfl⟩ := List.mem_map.mp hm
  obtain ⟨s, hs, hkey, hsource⟩ := hwalked.auto hp rfl
  obtain ⟨-, -, -, -, hplan⟩ := makeMapping_eq_ok (hwalked.pairs.made p hp)
  rw [hsource] at hplan
  exact ⟨s.2, List.mem_of_getElem? (mem_eligibleSources.mp hs).1, hkey, hsource, hplan⟩

/-- Under every mode, matched members validate and are mapped by name. -/
theorem exists_byName_of_matched (hplain : c.Plain) (h : c.Matched) :
    ∃ ms, c.validate = .ok ms ∧ c.ByName ms := by
  obtain ⟨placed, left, hpairs, htargets, hleft⟩ := (h.ready hplain).exists_pairs
  rw [positioned_map_snd] at htargets
  have hused : left = [] := by
    rw [List.eq_nil_iff_forall_not_mem]
    intro e he
    obtain ⟨hlisted, hfree⟩ := hleft e he
    obtain ⟨p, hp, rfl⟩ := List.mem_map.mp hlisted
    obtain ⟨t, ht, hkey⟩ :=
      List.mem_map.mp ((h.sameNames _).mp (List.mem_map_of_mem (mem_of_positioned hp)))
    obtain ⟨i, hi⟩ := exists_positioned ht
    exact hfree (i, t) hi hkey.symm
  have hvalidate : c.validate = .ok (placed.map Prod.snd) := by
    refine validate_eq_ok_iff.mpr ⟨.start, _, _, placed, left, ⟨hplain.replay_eq,
      indexSources_of_nodup hplain h.sourceNames, indexTargets_of_nodup hplain h.targetNames,
      hpairs, fun _ => ?_⟩, rfl⟩
    rw [hused]
    exact List.forall_mem_nil _
  refine ⟨placed.map Prod.snd, hvalidate, ?_, fun m hm =>
    exists_source_of_validate hplain hvalidate hm⟩
  rwa [List.map_map]

/-! ## What the strict mode accepts -/

/-- Different listed members have different names where an index of them could be built. -/
theorem nodup_keyOf_of_isIndex {ρ : Type} {ms : List (Member ρ)} {index : List (IndexEntry ρ)}
    (h : IsIndex c.options.nameComparer (positioned ms) index)
    (honce : ms.Pairwise fun a b => (a == b) = false) : (ms.map c.keyOf).Nodup := by
  rw [List.Nodup, List.pairwise_map]
  refine honce.imp_of_mem fun {a b} ha hb hne hkey => ?_
  obtain ⟨i, hi⟩ := exists_positioned ha
  obtain ⟨j, hj⟩ := exists_positioned hb
  have hsame : (a == b) = true := h.beq_of_normalize_eq hi hj hkey
  rw [hne] at hsame
  cases hsame

namespace Walked

variable {sources left : List (IndexEntry σ)} {targets : List (IndexEntry τ)}
  {placed : List (Placed σ τ)}

/-- Each target member has a mapping, which reads the source member of its name. -/
theorem exists_filled (h : c.Walked .start sources targets placed left) (hplain : c.Plain)
    (hmode : c.options.mode = .strict) {t : Member τ} (ht : t ∈ c.targetMembers) :
    ∃ p ∈ placed, (p.2.target == t) = true ∧ ∃ s ∈ c.sourceMembers,
      c.keyOf s = c.keyOf p.2.target ∧ p.2.source = .member s := by
  obtain ⟨i, hi⟩ := exists_positioned ht
  rw [← hplain.eligibleTargets_eq] at hi
  obtain ⟨p, hp, hsame⟩ := h.complete (by rw [hmode]; rfl) hi
  obtain ⟨s, hs, hkey, hsource⟩ := h.auto hp rfl
  rw [hplain.eligibleSources_eq] at hs
  exact ⟨p, hp, hsame, s.2, mem_of_positioned hs, hkey, hsource⟩

/-- The name of a source member is that of a target member. -/
theorem keyOf_mem_targets (h : c.Walked .start sources targets placed left) (hplain : c.Plain)
    (hmode : c.options.mode = .strict) {s : Member σ} (hs : s ∈ c.sourceMembers) :
    c.keyOf s ∈ c.targetMembers.map c.keyOf := by
  obtain ⟨p, hp, a, ha, hread⟩ := h.name_read (by rw [hmode]; rfl) (hplain.eligible hs)
  obtain ⟨b, -, hname, hsource⟩ := h.auto hp rfl
  rw [hsource, Computation.reads, List.mem_singleton] at ha
  rw [← hread, ha, hname]
  exact List.mem_map_of_mem (List.mem_of_getElem? (h.target_eq hp))

/-- The plan of the mapping of a target member is one for the source member of its name. -/
theorem exists_plan (h : c.Walked .start sources targets placed left) (hplain : c.Plain)
    (hmode : c.options.mode = .strict) {s : Member σ} (hs : s ∈ c.sourceMembers) {t : Member τ}
    (ht : t ∈ c.targetMembers) (hname : c.keyOf s = c.keyOf t) :
    ∃ plan, Coercion.resolve s.type t.type c.options.nullableBehavior = .ok plan := by
  obtain ⟨p, hp, hsame, a, ha, hkey, hsource⟩ := h.exists_filled hplain hmode ht
  obtain ⟨-, hpname, hptype, -⟩ := Member.beq_iff.mp hsame
  obtain ⟨-, -, -, -, hplan⟩ := makeMapping_eq_ok (h.pairs.made p hp)
  have hkeys : c.keyOf a = c.keyOf s := by
    rw [hkey, hname, keyOf, keyOf, hpname]
  have has := h.beq_of_keyOf_eq (hplain.eligible ha) (hplain.eligible hs) hkeys
  have htype : a.type = s.type := (Member.beq_iff.mp has).2.2.1
  rw [hsource, Computation.valueType, htype, hptype] at hplan
  exact ⟨_, hplan⟩

/-- A strict walk over all members has matched them. -/
theorem matched (h : c.Walked .start sources targets placed left) (hplain : c.Plain)
    (hmode : c.options.mode = .strict)
    (hsources : c.sourceMembers.Pairwise fun a b => (a == b) = false)
    (htargets : c.targetMembers.Pairwise fun a b => (a == b) = false) : c.Matched where
  sourceNames := nodup_keyOf_of_isIndex (hplain.eligibleSources_eq ▸ h.sourceIndex) hsources
  targetNames := nodup_keyOf_of_isIndex (hplain.eligibleTargets_eq ▸ h.targetIndex) htargets
  sameNames key := by
    constructor
    · intro hkey
      obtain ⟨s, hs, rfl⟩ := List.mem_map.mp hkey
      exact h.keyOf_mem_targets hplain hmode hs
    · intro hkey
      obtain ⟨t, ht, rfl⟩ := List.mem_map.mp hkey
      obtain ⟨p, -, hsame, s, hs, hname, -⟩ := h.exists_filled hplain hmode ht
      refine List.mem_map.mpr ⟨s, hs, ?_⟩
      rw [hname, keyOf, keyOf, Member.name_eq_of_beq hsame]
  convertible s hs t ht hname := h.exists_plan hplain hmode hs ht hname

end Walked

/-- A plain configuration of different members validates under the strict mode just when its
members match, and then each target member is mapped by name. -/
theorem validate_iff_matched (hplain : c.Plain) (hmode : c.options.mode = .strict)
    (hsources : c.sourceMembers.Pairwise fun a b => (a == b) = false)
    (htargets : c.targetMembers.Pairwise fun a b => (a == b) = false) :
    ((∃ ms, c.validate = .ok ms) ↔ c.Matched) ∧ ∀ ms, c.validate = .ok ms → c.ByName ms := by
  have hmatched : ∀ ms, c.validate = .ok ms → c.Matched := by
    intro ms hms
    obtain ⟨r, sources, targets, placed, left, hr, -, hwalked⟩ := exists_placed_of_validate hms
    obtain rfl : r = .start := Except.ok.inj (hr.symm.trans hplain.replay_eq)
    exact hwalked.matched hplain hmode hsources htargets
  refine ⟨⟨fun ⟨ms, hms⟩ => hmatched ms hms, fun h => ?_⟩, fun ms hms => ?_⟩
  · obtain ⟨ms, hms, -⟩ := exists_byName_of_matched hplain h
    exact ⟨ms, hms⟩
  · obtain ⟨ms', hms', hbyName⟩ := exists_byName_of_matched hplain (hmatched ms hms)
    rwa [Except.ok.inj (hms.symm.trans hms')]

/-- Parcels, as records, into rows: names are compared without case and separators. -/
def parcels : Configuration Record Row :=
  let parcel : RecordSchema := ⟨"Parcel", [⟨"Id", .int .i32⟩, ⟨"sent_to", .string⟩]⟩
  let line : RowSchema := ⟨"Line", [⟨"SENT-TO", .nullable .string⟩, ⟨"id", .int .i64⟩]⟩
  (new "Parcel" "Line" parcel.members line.members).withNameComparer .normalized

theorem validate_iff_matched_parcels : parcels.Plain ∧ parcels.options.mode = .strict ∧
    (parcels.sourceMembers.Pairwise fun a b => (a == b) = false) ∧
    (parcels.targetMembers.Pairwise fun a b => (a == b) = false) ∧
    (∃ ms, parcels.validate = .ok ms) ∧
    ((∃ ms, parcels.validate = .ok ms) ↔ parcels.Matched) ∧
      ∀ ms, parcels.validate = .ok ms → parcels.ByName ms := by
  have hplain : parcels.Plain := ⟨rfl, by decide, by decide⟩
  have hsources : parcels.sourceMembers.Pairwise fun a b => (a == b) = false := by decide
  have htargets : parcels.targetMembers.Pairwise fun a b => (a == b) = false := by decide
  exact ⟨hplain, rfl, hsources, htargets, ⟨_, rfl⟩,
    validate_iff_matched hplain rfl hsources htargets⟩

end Configuration

end Crosswalk
