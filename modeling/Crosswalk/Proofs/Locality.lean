import Crosswalk.Proofs.Variants

/-!
# Where a directive matters

A directive names source members, target members, or both, and changes what the replay says of
these alone (`Replay.ignoresSource_of_step`, `Replay.treatment_of_step`). When a configuration
validates both without the directive and with it, a target member that it does not name keeps its
mapping, unless the mapping pairs a source member that it names (`Configuration.mappingOf_add`).
What carries this is that neither of two indices has an entry under a name on which their listings
agree without the other having it too (`IsIndex.mem_of_agree`).
-/

namespace Crosswalk

variable {σ τ : Type}

/-! ## What a directive names -/

namespace Configuration

/-- The source members that the directive names. What an override reads has no part in it: its
pairing by name stays as it is. -/
def sourcesNamed (c : Configuration σ τ) : Directive σ → List (Positioned σ)
  | .ignoreSource name | .reset name => named c.options.nameComparer c.sourceMembers name
  | .ignoreTarget _ | .bind _ _ => []

/-- The target members that the directive names. -/
def targetsNamed (c : Configuration σ τ) : Directive σ → List (Positioned τ)
  | .ignoreTarget name | .reset name | .bind name _ =>
    named c.options.nameComparer c.targetMembers name
  | .ignoreSource _ => []

/-- Which members a directive names depends on their names. -/
theorem exists_sourcesNamed_eq_filter (c : Configuration σ τ) (d : Directive σ) :
    ∃ q : String → Bool, c.sourcesNamed d = (positioned c.sourceMembers).filter fun p =>
      q p.2.name := by
  cases d with
  | ignoreSource name | reset name => exact exists_named_eq_filter _ _ name
  | ignoreTarget | bind => exact ⟨fun _ => false, (List.filter_false _).symm⟩

/-- What a directive names among the targets is a matter of the names of the members. -/
theorem exists_targetsNamed_eq_filter (c : Configuration σ τ) (d : Directive σ) :
    ∃ q : String → Bool, c.targetsNamed d = (positioned c.targetMembers).filter fun p =>
      q p.2.name := by
  cases d with
  | ignoreTarget name | reset name | bind name => exact exists_named_eq_filter _ _ name
  | ignoreSource => exact ⟨fun _ => false, (List.filter_false _).symm⟩

end Configuration

namespace Replay

variable {c : Configuration σ τ} {r r' : Replay σ} {d : Directive σ} {i : Nat}

/-- A directive changes what is said of the source members that it names only. -/
theorem ignoresSource_of_step (h : r.step c d = .ok r')
    (hi : i ∉ (c.sourcesNamed d).map Prod.fst) : r'.ignoresSource i = r.ignoresSource i := by
  cases d with
  | ignoreSource name =>
    cases h
    have hi : i ∉ c.sourcePositions name := hi
    rw [ignoresSource_ignoreSources, decide_eq_false hi, Bool.false_or]
  | reset name =>
    cases h
    have hi : i ∉ c.sourcePositions name := hi
    show (r.admitSources _).ignoresSource i = _
    rw [ignoresSource_admitSources, decide_eq_false hi, Bool.not_false, Bool.true_and]
  | ignoreTarget name =>
    cases h
    rfl
  | bind name b =>
    obtain ⟨p, -, rfl⟩ := Except.map_eq_ok_iff.mp h
    rfl

/-- A directive changes what is said of the target members that it names only. -/
theorem treatment_of_step (h : r.step c d = .ok r')
    (hi : i ∉ (c.targetsNamed d).map Prod.fst) : r'.treatment i = r.treatment i := by
  cases d with
  | ignoreSource name =>
    cases h
    rfl
  | ignoreTarget name =>
    cases h
    exact (treatment_ignore ..).trans (if_neg hi)
  | reset name =>
    cases h
    exact (treatment_reset ..).trans (if_neg hi)
  | bind name b =>
    obtain ⟨p, hp, rfl⟩ := Except.map_eq_ok_iff.mp h
    obtain ⟨ps, hnamed, -⟩ := named_eq_cons_of_findMember hp
    refine (treatment_override ..).trans (if_neg fun heq => hi ?_)
    rw [heq, Configuration.targetsNamed, hnamed]
    exact List.mem_cons_self

end Replay

/-! ## Replays that agree outside some names -/

namespace Configuration

/-- The configurations make the same mappings of the same members, and their replays agree on the
members whose names the two tests leave out. -/
structure AgreeOutside (sourceTest targetTest : String → Bool) (c c' : Configuration σ τ)
    (r r' : Replay σ) : Prop where
  members : c'.SameMembers c
  made : ∀ source t, c'.makeMapping source t = c.makeMapping source t
  ignoresSource : ∀ i s, c.sourceMembers[i]? = some s → sourceTest s.name = false →
    r'.ignoresSource i = r.ignoresSource i
  treatment : ∀ i t, c.targetMembers[i]? = some t → targetTest t.name = false →
    r'.treatment i = r.treatment i

variable {c c' : Configuration σ τ} {r r' : Replay σ} {d : Directive σ}
  {sources left sources' left' : List (IndexEntry σ)} {targets targets' : List (IndexEntry τ)}
  {placed placed' : List (Placed σ τ)} {sourceTest targetTest : String → Bool} {t : Member τ}
  {m : Mapping σ τ}

namespace AgreeOutside

theorem symm (h : AgreeOutside sourceTest targetTest c c' r r') :
    AgreeOutside sourceTest targetTest c' c r' r where
  members := h.members.symm
  made source t := (h.made source t).symm
  ignoresSource i s hi hs := (h.ignoresSource i s (h.members.sourceMembers ▸ hi) hs).symm
  treatment i t hi ht := (h.treatment i t (h.members.targetMembers ▸ hi) ht).symm

/-- Sources outside the change are eligible in both runs or in neither. -/
theorem mem_eligibleSources_iff (h : AgreeOutside sourceTest targetTest c c' r r')
    (p : Positioned σ) (hp : sourceTest p.2.name = false) :
    p ∈ c.eligibleSources r ↔ p ∈ c'.eligibleSources r' := by
  rw [mem_eligibleSources, mem_eligibleSources, h.members.sourceMembers]
  refine and_congr_right fun hlisted => ?_
  rw [h.ignoresSource _ _ hlisted hp]

/-- Targets outside the change are eligible in both runs or in neither. -/
theorem mem_eligibleTargets_iff (h : AgreeOutside sourceTest targetTest c c' r r')
    (p : Positioned τ) (hp : targetTest p.2.name = false) :
    p ∈ c.eligibleTargets r ↔ p ∈ c'.eligibleTargets r' := by
  rw [mem_eligibleTargets, mem_eligibleTargets, h.members.targetMembers]
  refine and_congr_right fun hlisted => ?_
  rw [(Replay.treatment_eq_iff.mp (h.treatment _ _ hlisted hp)).1]

/-- An indexed source outside the change is indexed in the other run as well. -/
theorem mem_sources (h : AgreeOutside sourceTest targetTest c c' r r')
    (hw : c.Walked r sources targets placed left)
    (hw' : c'.Walked r' sources' targets' placed' left') {e : IndexEntry σ} (he : e ∈ sources)
    (hname : sourceTest e.member.name = false) : e ∈ sources' := by
  have hindex := hw'.sourceIndex
  rw [h.members.nameComparer] at hindex
  refine hw.sourceIndex.mem_of_agree hindex h.mem_eligibleSources_iff (fun p hp q hq => ?_) he hname
  exact eq_of_mem_positioned (List.mem_filter.mp hp).1 (List.mem_filter.mp hq).1

theorem mem_targets (h : AgreeOutside sourceTest targetTest c c' r r')
    (hw : c.Walked r sources targets placed left)
    (hw' : c'.Walked r' sources' targets' placed' left') {e : IndexEntry τ} (he : e ∈ targets)
    (hname : targetTest e.member.name = false) : e ∈ targets' := by
  have hindex := hw'.targetIndex
  rw [h.members.nameComparer] at hindex
  refine hw.targetIndex.mem_of_agree hindex h.mem_eligibleTargets_iff (fun p hp q hq => ?_) he hname
  exact eq_of_mem_positioned (List.mem_filter.mp hp).1 (List.mem_filter.mp hq).1

/-- A mapping placed by the one walk is placed by the other, if the tests leave out the name of
its target member, and that of its source member where it has no override. -/
theorem mem_placed (h : AgreeOutside sourceTest targetTest c c' r r')
    (hw : c.Walked r sources targets placed left)
    (hw' : c'.Walked r' sources' targets' placed' left') {i : Nat} (hm : (i, m) ∈ placed)
    (ht : targetTest m.target.name = false) (hs : r.override? i = none →
      ∀ s, m.source = .member s → sourceTest s.name = false) : (i, m) ∈ placed' := by
  have htarget : c.targetMembers[i]? = some m.target := hw.target_eq hm
  have hmade : c.makeMapping m.source m.target = .ok m := hw.pairs.made _ hm
  have hover : r'.override? i = r.override? i :=
    (Replay.treatment_eq_iff.mp (h.treatment _ _ htarget ht)).2
  -- The check makes one mapping of a computation and a member, so the computation is enough.
  suffices hfilled : ∃ m', (i, m') ∈ placed' ∧ m'.source = m.source by
    obtain ⟨m', hm', hsource⟩ := hfilled
    have htarget' : c'.targetMembers[i]? = some m'.target := hw'.target_eq hm'
    have hmade' : c'.makeMapping m'.source m'.target = .ok m' := hw'.pairs.made _ hm'
    rw [h.members.targetMembers, htarget, Option.some_inj] at htarget'
    rw [h.made, hsource, ← htarget', hmade, Except.ok.injEq] at hmade'
    rwa [hmade']
  cases hw.pairs.fills _ hm with
  | override hi hb =>
    rw [← hover] at hi
    obtain ⟨m', hm', hsource⟩ := hw'.overridden hi
    rw [h.members.resolveBinding_eq, hb, Except.ok.injEq] at hsource
    exact ⟨m', hm', hsource.symm⟩
  | @pair e s hi he hekey hpos hsmem hskey hsource =>
    obtain rfl : e.position = i := hpos
    have hlisted : c.targetMembers[e.position]? = some e.member :=
      (mem_eligibleTargets.mp (hw.targetIndex.listed e he)).1
    have hmember : m.target = e.member := Option.some_inj.mp (htarget.symm.trans hlisted)
    rw [hmember] at ht hekey hskey
    have he' := h.mem_targets hw hw' he ht
    have hs' := h.mem_sources hw hw' hsmem (hs hi _ hsource)
    rw [← hover] at hi
    rw [← h.members.keyOf_eq] at hekey hskey
    rw [hsource]
    refine hw'.pairs.pair_placed hi (hw'.targetIndex.distinct.lookup_eq_some_iff.mpr ⟨he', hekey⟩)
      (hw'.sourceIndex.distinct.lookup_eq_some_iff.mpr ⟨hs', hskey⟩) (mem_positioned.mpr ?_)
    rw [h.members.targetMembers]
    exact hlisted

end AgreeOutside

/-! ## The mapping of a member -/

/-- The mapping of the member. -/
def mappingOf (ms : List (Mapping σ τ)) (t : Member τ) : Option (Mapping σ τ) :=
  ms.find? fun m => m.target == t

/-- An override fills the member after all directives. -/
def Overrides (c : Configuration σ τ) (t : Member τ) : Prop :=
  ∃ r i u b, c.replay = .ok r ∧ c.targetMembers[i]? = some u ∧ (u == t) = true ∧
    r.override? i = some b

/-- The mapping of the target member pairs it with the source member by name. -/
def AutoPairs (c : Configuration σ τ) (ms : List (Mapping σ τ)) (t : Member τ) (s : Member σ) :
    Prop :=
  ¬c.Overrides t ∧ ∃ m, mappingOf ms t = some m ∧ m.source = .member s

namespace Walked

/-- The mapping of a member is the one that was placed for it. -/
theorem mappingOf_eq_some_iff (hw : c.Walked r sources targets placed left) :
    mappingOf (placed.map Prod.snd) t = some m ↔
      ∃ i, (i, m) ∈ placed ∧ (m.target == t) = true := by
  constructor
  · intro h
    obtain ⟨p, hp, rfl⟩ := List.mem_map.mp (List.mem_of_find?_eq_some h)
    have htarget := List.find?_some h
    exact ⟨p.1, hp, htarget⟩
  · rintro ⟨i, hm, htarget⟩
    cases hfind : mappingOf (placed.map Prod.snd) t with
    | none => exact absurd htarget (List.find?_eq_none.mp hfind m (List.mem_map_of_mem hm))
    | some m' =>
      obtain ⟨p, hp, rfl⟩ := List.mem_map.mp (List.mem_of_find?_eq_some hfind)
      have htarget' := List.find?_some hfind
      rw [hw.eq_of_target_beq hp hm (BEq.trans htarget' (BEq.symm htarget))]

/-- What is placed without an override is not overridden. -/
theorem not_overrides (hw : c.Walked r sources targets placed left) (hr : c.replay = .ok r)
    {i : Nat} (hm : (i, m) ∈ placed) (htarget : (m.target == t) = true)
    (hi : r.override? i = none) : ¬c.Overrides t := by
  rintro ⟨r₀, j, u, b, hr₀, hu, hut, hb⟩
  obtain rfl := Except.ok.inj (hr.symm.trans hr₀)
  obtain ⟨m', hm', -⟩ := hw.overridden hb
  have hu' : c.targetMembers[j]? = some m'.target := hw.target_eq hm'
  rw [hu, Option.some_inj] at hu'
  have hsame : (m'.target == m.target) = true := hu' ▸ BEq.trans hut (BEq.symm htarget)
  obtain ⟨rfl, -⟩ := Prod.mk.inj (hw.eq_of_target_beq hm' hm hsame)
  rw [hi] at hb
  cases hb

end Walked

/-- A member keeps its mapping, if the tests leave out its name and that of the source member
which the mapping pairs it with. -/
theorem AgreeOutside.mappingOf_eq_some (h : AgreeOutside sourceTest targetTest c c' r r')
    (hw : c.Walked r sources targets placed left)
    (hw' : c'.Walked r' sources' targets' placed' left') (hr : c.replay = .ok r)
    (ht : targetTest t.name = false)
    (hs : ∀ s ∈ c.sourceMembers, c.AutoPairs (placed.map Prod.snd) t s → sourceTest s.name = false)
    (hm : mappingOf (placed.map Prod.snd) t = some m) :
    mappingOf (placed'.map Prod.snd) t = some m := by
  obtain ⟨i, hplaced, htarget⟩ := hw.mappingOf_eq_some_iff.mp hm
  refine hw'.mappingOf_eq_some_iff.mpr ⟨i, h.mem_placed hw hw' hplaced ?_ fun hi s hsource => ?_,
    htarget⟩
  · rwa [Member.name_eq_of_beq htarget]
  · obtain ⟨u, hu, -, husource⟩ := hw.auto hplaced hi
    obtain rfl : s = u.2 := Computation.member.inj (hsource.symm.trans husource)
    exact hs _ (List.mem_of_getElem? (mem_eligibleSources.mp hu).1)
      ⟨hw.not_overrides hr hplaced htarget hi, m, hm, hsource⟩

/-! ## One more directive -/

/-- One more directive is replayed after the others. -/
theorem replay_add (c : Configuration σ τ) (d : Directive σ) :
    (c.add d).replay = c.replay.bind fun r => r.step c d := by
  have hsame : (c.add d).SameMembers c := ⟨rfl, rfl, rfl, rfl, rfl⟩
  rw [replay, hsame.run_eq, add, Replay.run_append, replay]
  congr 1
  funext r
  rw [Replay.run]
  cases r.step c d <;> rfl

/-- The runs agree outside what the new directive names. -/
theorem agreeOutside_add (h : r.step c d = .ok r')
    (hsources : c.sourcesNamed d = (positioned c.sourceMembers).filter fun p => sourceTest p.2.name)
    (htargets : c.targetsNamed d = (positioned c.targetMembers).filter fun p =>
      targetTest p.2.name) : AgreeOutside sourceTest targetTest c (c.add d) r r' where
  members := ⟨rfl, rfl, rfl, rfl, rfl⟩
  made _ _ := rfl
  ignoresSource i s hi hs := by
    refine Replay.ignoresSource_of_step h fun hmem => ?_
    rw [hsources, mem_map_fst_filter_iff (p := (i, s)) (mem_positioned.mpr hi), hs] at hmem
    cases hmem
  treatment i t hi ht := by
    refine Replay.treatment_of_step h fun hmem => ?_
    rw [htargets, mem_map_fst_filter_iff (p := (i, t)) (mem_positioned.mpr hi), ht] at hmem
    cases hmem

/-- Ignoring a source member leaves the overrides. -/
theorem Overrides.add_ignoreSource (h : c.Overrides t) (name : String) :
    (c.add (.ignoreSource name)).Overrides t := by
  obtain ⟨r, i, u, b, hr, hlisted, hsame, hb⟩ := h
  refine ⟨r.ignoreSources (c.sourcePositions name), i, u, b, ?_, hlisted, hsame, hb⟩
  rw [replay_add, hr]
  rfl

/-- A directive matters to the target members that it names, and to those paired, without it or
with it, with a source member that it names. If the configuration validates without it and with
it, each other target member has the same mapping in both lists, or none in either; so has, for
a directive that ignores source members, each overridden one. -/
theorem mappingOf_add {ms ms' : List (Mapping σ τ)} (h : c.validate = .ok ms)
    (h' : (c.add d).validate = .ok ms') :
    (∀ t ∈ c.targetMembers, t ∉ (c.targetsNamed d).map Prod.snd →
      (∀ s ∈ (c.sourcesNamed d).map Prod.snd,
        ¬c.AutoPairs ms t s ∧ ¬(c.add d).AutoPairs ms' t s) →
      mappingOf ms t = mappingOf ms' t) ∧
    ∀ name, d = .ignoreSource name → ∀ t ∈ c.targetMembers, c.Overrides t →
      mappingOf ms t = mappingOf ms' t := by
  have hlocal : ∀ t ∈ c.targetMembers, t ∉ (c.targetsNamed d).map Prod.snd →
      (∀ s ∈ (c.sourcesNamed d).map Prod.snd,
        ¬c.AutoPairs ms t s ∧ ¬(c.add d).AutoPairs ms' t s) →
      mappingOf ms t = mappingOf ms' t := by
    intro t ht hunnamed hunpaired
    obtain ⟨r, sources, targets, placed, left, hr, rfl, hw⟩ := exists_placed_of_validate h
    obtain ⟨r', sources', targets', placed', left', hr', rfl, hw'⟩ := exists_placed_of_validate h'
    obtain ⟨sourceTest, hsources⟩ := c.exists_sourcesNamed_eq_filter d
    obtain ⟨targetTest, htargets⟩ := c.exists_targetsNamed_eq_filter d
    have hstep : r.step c d = .ok r' := by rwa [replay_add, hr] at hr'
    have hagree := agreeOutside_add hstep hsources htargets
    rw [htargets, mem_map_snd_filter_iff ht, Bool.not_eq_true] at hunnamed
    have hspared : ∀ s ∈ c.sourceMembers, c.AutoPairs (placed.map Prod.snd) t s ∨
        (c.add d).AutoPairs (placed'.map Prod.snd) t s → sourceTest s.name = false := by
      intro s hs hauto
      refine Bool.eq_false_iff.mpr fun hnamed => ?_
      rw [hsources] at hunpaired
      obtain ⟨hno, hno'⟩ := hunpaired s ((mem_map_snd_filter_iff hs).mpr hnamed)
      exact hauto.elim hno hno'
    refine Option.ext fun m => ⟨?_, ?_⟩
    · exact hagree.mappingOf_eq_some hw hw' hr hunnamed fun s hs hauto => hspared s hs (.inl hauto)
    · exact hagree.symm.mappingOf_eq_some hw' hw hr' hunnamed
        fun s hs hauto => hspared s hs (.inr hauto)
  refine ⟨hlocal, ?_⟩
  rintro name rfl t ht hover
  exact hlocal t ht List.not_mem_nil
    fun s _ => ⟨fun hauto => hauto.1 hover, fun hauto => hauto.1 (hover.add_ignoreSource name)⟩

/-- Parcels to their receipts, which carry the note once by name and once as a memo. -/
def receipts : Configuration Record Record :=
  let parcel : RecordSchema := ⟨"Parcel", [⟨"Id", .int .i32⟩, ⟨"Note", .string⟩]⟩
  let receipt : RecordSchema :=
    ⟨"Receipt", [⟨"Id", .int .i64⟩, ⟨"Note", .string⟩, ⟨"Memo", .string⟩]⟩
  ((new "Parcel" "Receipt" parcel.members receipt.members).withMode .relaxed).mapMember
    "Memo" "Note"

/-- Ignoring the note takes it from its namesake, and leaves the number and the memo. -/
theorem mappingOf_add_receipts : ∃ ms ms' number memo, receipts.validate = .ok ms ∧
    (receipts.add (.ignoreSource "Note")).validate = .ok ms' ∧
    ms.map (fun m => m.target.name) = ["Id", "Note", "Memo"] ∧
    ms'.map (fun m => m.target.name) = ["Id", "Memo"] ∧
    receipts.targetMembers[0]? = some number ∧ mappingOf ms number = mappingOf ms' number ∧
    receipts.targetMembers[2]? = some memo ∧ receipts.Overrides memo ∧
    mappingOf ms memo = mappingOf ms' memo := by
  have hfacts : ∃ ms ms' number memo, receipts.validate = .ok ms ∧
      (receipts.add (.ignoreSource "Note")).validate = .ok ms' ∧
      ms.map (fun m => m.target.name) = ["Id", "Note", "Memo"] ∧
      ms'.map (fun m => m.target.name) = ["Id", "Memo"] ∧
      receipts.targetMembers[0]? = some number ∧
      (mappingOf ms number).map (fun m => m.source.reads.map Member.name) = some ["Id"] ∧
      (mappingOf ms' number).map (fun m => m.source.reads.map Member.name) = some ["Id"] ∧
      receipts.targetMembers[2]? = some memo ∧ receipts.Overrides memo :=
    ⟨_, _, _, _, rfl, rfl, rfl, rfl, rfl, rfl, rfl, rfl, _, 2, _, _, rfl, rfl, rfl, rfl⟩
  obtain ⟨ms, ms', number, memo, hms, hms', hnames, hnames', hnumber, hreads, hreads', hmemo,
    hover⟩ := hfacts
  have hnamed : ∀ s ∈ (receipts.sourcesNamed (.ignoreSource "Note")).map Prod.snd,
      s.name = "Note" := List.forall_mem_singleton.mpr rfl
  -- A member of that name is not what fills the number.
  have hunpaired : ∀ (c : Configuration Record Record) (ms : List (Mapping Record Record)),
      (mappingOf ms number).map (fun m => m.source.reads.map Member.name) = some ["Id"] →
      ∀ s : Member Record, s.name = "Note" → ¬c.AutoPairs ms number s := by
    rintro c ms hreads s hs ⟨-, m, hm, hsource⟩
    rw [hm, Option.map_some, hsource, Computation.reads, List.map_singleton, hs] at hreads
    exact absurd hreads (by decide)
  obtain ⟨hlocal, hoverrides⟩ := mappingOf_add hms hms'
  refine ⟨ms, ms', number, memo, hms, hms', hnames, hnames', hnumber, ?_, hmemo, hover,
    hoverrides "Note" rfl memo (List.mem_of_getElem? hmemo) hover⟩
  refine hlocal number (List.mem_of_getElem? hnumber) List.not_mem_nil fun s hs => ?_
  exact ⟨hunpaired _ ms hreads s (hnamed s hs), hunpaired _ ms' hreads' s (hnamed s hs)⟩

end Configuration

end Crosswalk
