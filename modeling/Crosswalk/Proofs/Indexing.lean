import Crosswalk.Proofs.NamedMembers
import Crosswalk.Proofs.Results
import Mathlib.Data.List.Nodup

/-!
# Indices by name

`IsIndex` says what an index of listed members is: an entry for each normalized name that
occurs, holding the first listing of its member, and every other listing under that name is
the same member. `indexFrom` gives an index or fails (`isIndex_of_indexFrom`), which makes
members of one normalized name equal (`IsIndex.beq_of_normalize_eq`). Where listings agree, so
do their indices (`IsIndex.mem_of_agree`).
-/

namespace Crosswalk

variable {σ : Type} {comparer : NameComparer} {owner key : String}

/-! ## Looking up a key -/

theorem lookup_eq_none_iff {index : List (IndexEntry σ)} :
    lookup key index = none ↔ ∀ e ∈ index, e.key ≠ key := by
  simp only [lookup, List.find?_eq_none, beq_iff_eq, ne_eq]

theorem mem_of_lookup {index : List (IndexEntry σ)} {e : IndexEntry σ}
    (h : lookup key index = some e) : e ∈ index ∧ e.key = key := by
  have hkey := List.find?_some h
  exact ⟨List.mem_of_find?_eq_some h, beq_iff_eq.mp hkey⟩

/-- The entries have keys of their own. -/
def DistinctKeys (index : List (IndexEntry σ)) : Prop := (index.map IndexEntry.key).Nodup

theorem DistinctKeys.eq_of_key_eq {index : List (IndexEntry σ)} (h : DistinctKeys index)
    {a b : IndexEntry σ} (ha : a ∈ index) (hb : b ∈ index) (hkey : a.key = b.key) : a = b :=
  List.inj_on_of_nodup_map h ha hb hkey

theorem DistinctKeys.filter {index : List (IndexEntry σ)} (h : DistinctKeys index)
    (q : IndexEntry σ → Bool) : DistinctKeys (index.filter q) :=
  List.Nodup.sublist (List.filter_sublist.map IndexEntry.key) h

/-- Where keys are distinct, a search finds every entry by its key. -/
theorem DistinctKeys.lookup_eq_some_iff {index : List (IndexEntry σ)} (h : DistinctKeys index)
    {e : IndexEntry σ} : lookup key index = some e ↔ e ∈ index ∧ e.key = key := by
  refine ⟨mem_of_lookup, ?_⟩
  rintro ⟨he, rfl⟩
  exact find?_of_nodup_map h he

/-- Leaving out one key does not change what is found under another. -/
theorem lookup_filter_of_ne (index : List (IndexEntry σ)) {key' : String} (h : key ≠ key') :
    lookup key (index.filter fun e => e.key != key') = lookup key index := by
  simp only [lookup, List.find?_filter]
  congr 1
  funext e
  by_cases he : e.key = key <;> simp [he, h]

/-! ## Indices -/

/-- An index of the listed members. -/
structure IsIndex (comparer : NameComparer) (ps : List (Positioned σ))
    (index : List (IndexEntry σ)) : Prop where
  listed : ∀ e ∈ index, (e.position, e.member) ∈ ps
  key : ∀ e ∈ index, e.key = comparer.normalize e.member.name
  distinct : DistinctKeys index
  /-- Each listing has an entry, of the same member and not after it. -/
  covers : ∀ p ∈ ps, ∃ e ∈ index, e.position ≤ p.1 ∧ (e.member == p.2) = true

namespace IsIndex

variable {ps : List (Positioned σ)} {index : List (IndexEntry σ)}

theorem nil (comparer : NameComparer) : IsIndex comparer ([] : List (Positioned σ)) [] where
  listed _ h := by cases h
  key _ h := by cases h
  distinct := List.nodup_nil
  covers _ h := by cases h

/-- A listing under a new name gets an entry of its own. -/
theorem append_new (h : IsIndex comparer ps index) {p : Positioned σ}
    (hp : lookup (comparer.normalize p.2.name) index = none) :
    IsIndex comparer (ps ++ [p]) (index ++ [⟨comparer.normalize p.2.name, p.1, p.2⟩]) where
  listed e he := by
    rcases List.mem_append.mp he with he | he
    · exact List.mem_append_left _ (h.listed e he)
    · rw [List.mem_singleton.mp he]
      exact List.mem_append_right _ (List.mem_singleton.mpr rfl)
  key e he := by
    rcases List.mem_append.mp he with he | he
    · exact h.key e he
    · rw [List.mem_singleton.mp he]
  distinct := by
    rw [DistinctKeys, List.map_append, List.map_singleton, List.nodup_append]
    refine ⟨h.distinct, List.nodup_singleton _, fun a ha b hb => ?_⟩
    obtain ⟨e, he, rfl⟩ := List.mem_map.mp ha
    rw [List.mem_singleton.mp hb]
    exact lookup_eq_none_iff.mp hp e he
  covers q hq := by
    rcases List.mem_append.mp hq with hq | hq
    · obtain ⟨e, he, hle, hsame⟩ := h.covers q hq
      exact ⟨e, List.mem_append_left _ he, hle, hsame⟩
    · rw [List.mem_singleton.mp hq]
      exact ⟨_, List.mem_append_right _ (List.mem_singleton.mpr rfl), Nat.le_refl _, BEq.rfl⟩

/-- A later listing of an indexed member adds nothing. -/
theorem append_repeated (h : IsIndex comparer ps index) {p : Positioned σ}
    (hlt : ∀ q ∈ ps, q.1 < p.1) {e : IndexEntry σ} (he : e ∈ index)
    (hsame : (e.member == p.2) = true) : IsIndex comparer (ps ++ [p]) index where
  listed e he := List.mem_append_left _ (h.listed e he)
  key := h.key
  distinct := h.distinct
  covers q hq := by
    rcases List.mem_append.mp hq with hq | hq
    · exact h.covers q hq
    · rw [List.mem_singleton.mp hq]
      exact ⟨e, he, Nat.le_of_lt (hlt _ (h.listed e he)), hsame⟩

/-- Listed members of one normalized name are the same. -/
theorem beq_of_normalize_eq (h : IsIndex comparer ps index) {p q : Positioned σ} (hp : p ∈ ps)
    (hq : q ∈ ps) (hname : comparer.normalize p.2.name = comparer.normalize q.2.name) :
    (p.2 == q.2) = true := by
  obtain ⟨e, he, -, hep⟩ := h.covers p hp
  obtain ⟨f, hf, -, hfq⟩ := h.covers q hq
  have hkey : e.key = f.key := by
    rw [h.key e he, h.key f hf, Member.name_eq_of_beq hep, Member.name_eq_of_beq hfq, hname]
  rw [h.distinct.eq_of_key_eq he hf hkey] at hep
  exact BEq.trans (BEq.symm hep) hfq

/-- An entry is in every index of listings that agree with its own under the names that `q`
leaves out, its name being one of them. -/
theorem mem_of_agree {ps' : List (Positioned σ)} {index' : List (IndexEntry σ)}
    (h : IsIndex comparer ps index) (h' : IsIndex comparer ps' index') {q : String → Bool}
    (hagree : ∀ p, q p.2.name = false → (p ∈ ps ↔ p ∈ ps'))
    (hfun : ∀ p ∈ ps, ∀ p' ∈ ps, p.1 = p'.1 → p = p') {e : IndexEntry σ} (he : e ∈ index)
    (hname : q e.member.name = false) : e ∈ index' := by
  have hlisted := h.listed e he
  obtain ⟨f, hf, hle, hsame⟩ := h'.covers _ ((hagree _ hname).mp hlisted)
  have hfname : f.member.name = e.member.name := Member.name_eq_of_beq hsame
  have hflisted := (hagree _ (hfname ▸ hname)).mpr (h'.listed f hf)
  -- The entry that covers `f` among the listings of `e` is `e`, so `f` is not before it.
  obtain ⟨g, hg, hle', hsame'⟩ := h.covers _ hflisted
  have hgname : g.member.name = f.member.name := Member.name_eq_of_beq hsame'
  obtain rfl : g = e := h.distinct.eq_of_key_eq hg he (by
    rw [h.key g hg, h.key e he, hgname, hfname])
  obtain ⟨hposition, hmember⟩ := Prod.mk.inj (hfun _ hflisted _ hlisted (Nat.le_antisymm hle hle'))
  have hkey : f.key = g.key := by rw [h'.key f hf, h.key g hg, hmember]
  obtain rfl : f = g := by
    cases f
    cases g
    simp_all only
  exact hf

end IsIndex

/-- From an index of the members before, the members of `ps` lead to an index of all. -/
theorem isIndex_of_indexFrom :
    ∀ {ps done : List (Positioned σ)} {index index' : List (IndexEntry σ)},
      IsIndex comparer done index → (done ++ ps).Pairwise (fun p q => p.1 < q.1) →
      indexFrom comparer owner index ps = .ok index' → IsIndex comparer (done ++ ps) index'
  | [], done, index, index', h, _, hok => by
    cases hok
    rwa [List.append_nil]
  | (i, m) :: ps, done, index, index', h, hlt, hok => by
    have hassoc : done ++ (i, m) :: ps = (done ++ [(i, m)]) ++ ps := by simp
    rw [hassoc] at hlt ⊢
    unfold indexFrom at hok
    split at hok
    · next hnone => exact isIndex_of_indexFrom (h.append_new (p := (i, m)) hnone) hlt hok
    · next e he =>
      split at hok
      · next hsame =>
        have hbefore : ∀ q ∈ done, q.1 < i := fun q hq =>
          (List.pairwise_append.mp (List.pairwise_append.mp hlt).1).2.2 q hq _
            (List.mem_singleton.mpr rfl)
        exact isIndex_of_indexFrom
          (h.append_repeated (p := (i, m)) hbefore (mem_of_lookup he).1 hsame) hlt hok
      · cases hok

/-! ## Members of different names -/

/-- The entry of a listed member. -/
def IndexEntry.listed (comparer : NameComparer) (p : Positioned σ) : IndexEntry σ :=
  ⟨comparer.normalize p.2.name, p.1, p.2⟩

/-- Members whose normalized names are their own are all indexed, in their order. -/
theorem indexFrom_append_of_distinctKeys :
    ∀ {ps : List (Positioned σ)} {index : List (IndexEntry σ)},
      DistinctKeys (index ++ ps.map (IndexEntry.listed comparer)) →
        indexFrom comparer owner index ps = .ok (index ++ ps.map (IndexEntry.listed comparer))
  | [], index, _ => by simp [indexFrom]
  | p :: ps, index, h => by
    have hassoc : index ++ (p :: ps).map (IndexEntry.listed comparer) =
        (index ++ [IndexEntry.listed comparer p]) ++ ps.map (IndexEntry.listed comparer) := by
      simp
    have hnew : lookup (comparer.normalize p.2.name) index = none := by
      rw [lookup_eq_none_iff]
      intro e he
      have hkeys := h
      rw [DistinctKeys, List.map_append, List.nodup_append] at hkeys
      exact hkeys.2.2 e.key (List.mem_map_of_mem he) _ (by simp [IndexEntry.listed])
    rw [hassoc] at h ⊢
    simp only [indexFrom, hnew]
    exact indexFrom_append_of_distinctKeys h

/-- Members of distinct normalized names are all indexed, in their order. -/
theorem indexFrom_of_distinctKeys {ps : List (Positioned σ)}
    (h : DistinctKeys (ps.map (IndexEntry.listed comparer))) :
    indexFrom comparer owner [] ps = .ok (ps.map (IndexEntry.listed comparer)) := by
  rw [← List.nil_append (ps.map _)] at h
  simpa using indexFrom_append_of_distinctKeys h

end Crosswalk
