import Crosswalk.Proofs.Indexing

/-!
# Clashes of names

Two listings clash when different members share a normalized name (`Clash`). Members are indexed in
their order, each compared with the one entry of its name only. As the listings before are indexed,
that entry is the first listing of the name and stands for all of them, so the first listing that
differs from its entry is the first that clashes with any before it, and the entry is the first
that it clashes with (`firstClash_of_lookup`). Hence an index can be built just where nothing
clashes, and otherwise the failure names the first clash (`indexReports_indexFrom`).
-/

namespace Crosswalk

variable {σ : Type} {comparer : NameComparer} {owner : String}

/-! ## Earliest listings -/

/-- The first listing, in the order of declaration, of which `P` holds. -/
def Earliest (P : Positioned σ → Prop) (p : Positioned σ) : Prop := P p ∧ ∀ q, P q → p.1 ≤ q.1

/-- The listings are in the order of their positions. -/
abbrev Ordered (ps : List (Positioned σ)) : Prop := ps.Pairwise fun p q => p.1 < q.1

section

variable {ps done : List (Positioned σ)} {p q : Positioned σ} {P : Positioned σ → Prop}

/-- A position is that of one listing. -/
theorem Ordered.eq_of_position_eq (h : Ordered ps) (hp : p ∈ ps) (hq : q ∈ ps) (heq : p.1 = q.1) :
    p = q :=
  List.inj_on_of_nodup_map (List.pairwise_map.mpr (h.imp Nat.ne_of_lt)) hp hq heq

/-- What has a smaller position stands before. -/
theorem Ordered.mem_of_lt (h : Ordered (done ++ p :: ps)) (hq : q ∈ done ++ p :: ps)
    (hlt : q.1 < p.1) : q ∈ done := by
  rcases List.mem_append.mp hq with hq | hq
  · exact hq
  · rcases List.mem_cons.mp hq with rfl | hq
    · exact absurd hlt (Nat.lt_irrefl _)
    · have hafter := (List.pairwise_cons.mp (List.pairwise_append.mp h).2.1).1 q hq
      exact absurd hlt (Nat.lt_asymm hafter)

theorem Ordered.lt_of_mem (h : Ordered (done ++ p :: ps)) (hq : q ∈ done) : q.1 < p.1 :=
  (List.pairwise_append.mp h).2.2 q hq p List.mem_cons_self

/-- There is one earliest listing at most. -/
theorem Earliest.eq (hp : Earliest P p) (hq : Earliest P q) (h : Ordered ps) (hpmem : p ∈ ps)
    (hqmem : q ∈ ps) : p = q :=
  h.eq_of_position_eq hpmem hqmem (Nat.le_antisymm (hp.2 q hq.1) (hq.2 p hp.1))

/-- A search finds the earliest listing that passes the test. -/
theorem Ordered.find?_eq_some_iff (h : Ordered ps) {t : Positioned σ → Bool} :
    ps.find? t = some p ↔ Earliest (fun q => q ∈ ps ∧ t q = true) p := by
  constructor
  · intro hfind
    obtain ⟨htest, before, after, rfl, hbefore⟩ := List.find?_eq_some_iff_append.mp hfind
    refine ⟨⟨List.mem_append_right _ List.mem_cons_self, htest⟩, fun q ⟨hq, hqtest⟩ => ?_⟩
    by_contra hlt
    have hfailed := hbefore q (h.mem_of_lt hq (Nat.lt_of_not_le hlt))
    rw [hqtest] at hfailed
    cases hfailed
  · rintro ⟨⟨hp, htest⟩, hfirst⟩
    obtain ⟨before, after, rfl⟩ := List.append_of_mem hp
    refine List.find?_eq_some_iff_append.mpr ⟨htest, before, after, rfl, fun q hq => ?_⟩
    rw [Bool.not_eq_true']
    by_contra hqtest
    have hle := hfirst q ⟨List.mem_append_left _ hq, Bool.not_eq_false _ ▸ hqtest⟩
    exact absurd hle (Nat.not_le_of_lt (h.lt_of_mem hq))

end

/-! ## Clashes -/

/-- The listings are of different members with one normalized name. -/
def Clash (comparer : NameComparer) (p q : Positioned σ) : Prop :=
  comparer.normalize p.2.name = comparer.normalize q.2.name ∧ (p.2 == q.2) = false

/-- The first pair that is met: no listing before `q` clashes with one before it, and none before
`p` clashes with `q`. -/
structure FirstClash (comparer : NameComparer) (ps : List (Positioned σ)) (p q : Positioned σ) :
    Prop where
  second : Earliest (fun q => q ∈ ps ∧ ∃ p ∈ ps, p.1 < q.1 ∧ Clash comparer p q) q
  first : Earliest (fun p => p ∈ ps ∧ Clash comparer p q) p

/-- What comes of indexing the listings `ps`: a failure just where some clash, which names the
first pair that does. -/
structure IndexReports (comparer : NameComparer) (owner : String) (ps : List (Positioned σ))
    (x : Except MappingError (List (IndexEntry σ))) : Prop where
  fails : (∃ e, x = .error e) ↔ ∃ p ∈ ps, ∃ q ∈ ps, Clash comparer p q
  names : ∀ e, x = .error e ↔ ∃ p q, FirstClash comparer ps p q ∧
    e = .ambiguousMember owner p.2.name q.2.name (comparer.normalize p.2.name)

variable {ps done : List (Positioned σ)} {index : List (IndexEntry σ)} {p q p' q' : Positioned σ}
  {e : MappingError}

/-- There is one first clash at most. -/
theorem FirstClash.unique (h : FirstClash comparer ps p q) (h' : FirstClash comparer ps p' q')
    (hps : Ordered ps) : p = p' ∧ q = q' := by
  obtain rfl := h.second.eq h'.second hps h.second.1.1 h'.second.1.1
  exact ⟨h.first.eq h'.first hps h.first.1.1 h'.first.1.1, rfl⟩

/-- Indexed listings do not clash. -/
theorem IsIndex.not_clash (h : IsIndex comparer ps index) (hp : p ∈ ps) (hq : q ∈ ps) :
    ¬Clash comparer p q := by
  rintro ⟨hname, hdiffer⟩
  rw [h.beq_of_normalize_eq hp hq hname] at hdiffer
  cases hdiffer

/-- A listing that differs from the entry of its name is the second of the first clash. -/
theorem firstClash_of_lookup (h : IsIndex comparer done index) (hps : Ordered (done ++ p :: ps))
    {e : IndexEntry σ} (he : lookup (comparer.normalize p.2.name) index = some e)
    (hdiffer : (e.member == p.2) = false) :
    FirstClash comparer (done ++ p :: ps) (e.position, e.member) p := by
  obtain ⟨hmem, hkey⟩ := mem_of_lookup he
  have hlisted : (e.position, e.member) ∈ done := h.listed e hmem
  have hbefore : e.position < p.1 := hps.lt_of_mem hlisted
  have hclash : Clash comparer (e.position, e.member) p := ⟨by rw [← h.key e hmem, hkey], hdiffer⟩
  constructor
  · refine ⟨⟨List.mem_append_right _ List.mem_cons_self, _, List.mem_append_left _ hlisted, hbefore,
      hclash⟩, fun q ⟨hq, a, ha, haq, hclash'⟩ => ?_⟩
    by_contra hlt
    have hqp : q.1 < p.1 := Nat.lt_of_not_le hlt
    exact h.not_clash (hps.mem_of_lt ha (Nat.lt_trans haq hqp)) (hps.mem_of_lt hq hqp) hclash'
  · refine ⟨⟨List.mem_append_left _ hlisted, hclash⟩, fun a ⟨ha, hname, _⟩ => ?_⟩
    by_contra hlt
    obtain ⟨f, hf, hle, hsame⟩ := h.covers a (hps.mem_of_lt ha (by omega))
    have hfkey : f.key = e.key := by
      rw [h.key f hf, Member.name_eq_of_beq hsame, hname, hkey]
    rw [h.distinct.eq_of_key_eq hf hmem hfkey] at hle
    exact hlt hle

/-- Where members are indexed after those of `done`, a failure names the first clash of all. -/
theorem exists_firstClash_of_indexFrom :
    ∀ {ps done : List (Positioned σ)} {index : List (IndexEntry σ)},
      IsIndex comparer done index → Ordered (done ++ ps) →
      indexFrom comparer owner index ps = .error e →
      ∃ p q, FirstClash comparer (done ++ ps) p q ∧
        e = .ambiguousMember owner p.2.name q.2.name (comparer.normalize p.2.name)
  | [], _, _, _, _, herror => nomatch herror
  | (i, m) :: ps, done, index, h, hps, herror => by
    have hassoc : done ++ (i, m) :: ps = (done ++ [(i, m)]) ++ ps := by simp
    unfold indexFrom at herror
    split at herror
    · next hnone =>
      rw [hassoc] at hps ⊢
      exact exists_firstClash_of_indexFrom (h.append_new (p := (i, m)) hnone) hps herror
    · next e he =>
      split at herror
      · next hsame =>
        have hrepeated := h.append_repeated (p := (i, m)) (fun q hq => hps.lt_of_mem hq)
          (mem_of_lookup he).1 hsame
        rw [hassoc] at hps ⊢
        exact exists_firstClash_of_indexFrom hrepeated hps herror
      · next hdiffer =>
        cases herror
        refine ⟨(e.position, e.member), (i, m), ?_, ?_⟩
        · exact firstClash_of_lookup (p := (i, m)) h hps he (Bool.eq_false_iff.mpr hdiffer)
        · rw [h.key e (mem_of_lookup he).1]

/-- Indexing fails just where something clashes, and names the first clash. -/
theorem indexReports_indexFrom (hps : Ordered ps) :
    IndexReports comparer owner ps (indexFrom comparer owner [] ps) := by
  have hfirst : ∀ {e}, indexFrom comparer owner [] ps = .error e →
      ∃ p q, FirstClash comparer ps p q ∧
        e = .ambiguousMember owner p.2.name q.2.name (comparer.normalize p.2.name) :=
    fun herror => exists_firstClash_of_indexFrom (IsIndex.nil comparer) hps herror
  have hfails : (∃ p ∈ ps, ∃ q ∈ ps, Clash comparer p q) →
      ∃ e, indexFrom comparer owner [] ps = .error e := by
    rintro ⟨p, hp, q, hq, hclash⟩
    rw [Except.exists_error_iff]
    rintro ⟨index, hindex⟩
    exact (isIndex_of_indexFrom (IsIndex.nil comparer) hps hindex).not_clash hp hq hclash
  constructor
  · refine ⟨fun ⟨e, herror⟩ => ?_, hfails⟩
    obtain ⟨p, q, hclash, -⟩ := hfirst herror
    exact ⟨p, hclash.first.1.1, q, hclash.second.1.1, hclash.first.1.2⟩
  · refine fun e => ⟨hfirst, fun ⟨p, q, hclash, he⟩ => ?_⟩
    obtain ⟨e', herror⟩ := hfails ⟨p, hclash.first.1.1, q, hclash.second.1.1, hclash.first.1.2⟩
    obtain ⟨p', q', hclash', he'⟩ := hfirst herror
    obtain ⟨rfl, rfl⟩ := hclash.unique hclash' hps
    rw [herror, he, he']

end Crosswalk
