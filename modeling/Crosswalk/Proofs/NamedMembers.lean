import Crosswalk.Pairing

/-!
# Members of a name

`==` on members is an equivalence, and equal members agree in all but the owner label and
the procedures (`Member.beq_iff`). Which members a name stands for depends on their names
alone (`exists_named_eq_filter`), so members of equal names are found together
(`mem_positionsOf_iff_of_name_eq`). A search for one member gives its first listing, and
finds no different member of that name (`findMember_eq_ok`).
-/

namespace Crosswalk

variable {σ : Type}

/-! ## Equal members -/

namespace Member

variable {a b c : Member σ}

/-- Equality of members looks at everything but the owner, and at the slot in place of the
functions. -/
theorem beq_iff : (a == b) = true ↔ a.kind = b.kind ∧ a.name = b.name ∧ a.type = b.type ∧
    a.slot = b.slot ∧ a.canRead = b.canRead ∧ a.canWrite = b.canWrite := by
  show (a.kind == b.kind && a.name == b.name && a.type == b.type && a.slot == b.slot &&
    a.canRead == b.canRead && a.canWrite == b.canWrite) = true ↔ _
  simp only [Bool.and_eq_true, beq_iff_eq, and_assoc]

instance : EquivBEq (Member σ) where
  rfl := beq_iff.mpr ⟨rfl, rfl, rfl, rfl, rfl, rfl⟩
  symm h := by
    obtain ⟨hk, hn, ht, hs, hr, hw⟩ := beq_iff.mp h
    exact beq_iff.mpr ⟨hk.symm, hn.symm, ht.symm, hs.symm, hr.symm, hw.symm⟩
  trans h h' := by
    obtain ⟨hk, hn, ht, hs, hr, hw⟩ := beq_iff.mp h
    obtain ⟨hk', hn', ht', hs', hr', hw'⟩ := beq_iff.mp h'
    exact beq_iff.mpr ⟨hk.trans hk', hn.trans hn', ht.trans ht', hs.trans hs', hr.trans hr',
      hw.trans hw'⟩

theorem name_eq_of_beq (h : (a == b) = true) : a.name = b.name :=
  (beq_iff.mp h).2.1

theorem canRead_eq_of_beq (h : (a == b) = true) : a.canRead = b.canRead :=
  (beq_iff.mp h).2.2.2.2.1

end Member

/-! ## Positions -/

variable {ms : List (Member σ)} {comparer : NameComparer} {name typeName : String}

theorem mem_positioned {p : Positioned σ} : p ∈ positioned ms ↔ ms[p.1]? = some p.2 := by
  obtain ⟨i, m⟩ := p
  simp only [positioned, List.mem_map, Prod.mk.injEq, Prod.exists]
  constructor
  · rintro ⟨m', i', hmem, rfl, rfl⟩
    exact List.mem_zipIdx_iff_getElem?.mp hmem
  · intro h
    exact ⟨m, i, List.mem_zipIdx_iff_getElem?.mpr h, rfl, rfl⟩

/-- Listings come in the order of their places. -/
theorem pairwise_positioned (ms : List (Member σ)) :
    (positioned ms).Pairwise fun p q => p.1 < q.1 := by
  have h : (positioned ms).map Prod.fst = List.range ms.length := by
    rw [positioned, List.map_map, List.range_eq_range']
    exact List.zipIdx_map_snd 0 ms
  have hlt := List.pairwise_lt_range (n := ms.length)
  rw [← h] at hlt
  exact List.pairwise_map.mp hlt

theorem positioned_map_snd (ms : List (Member σ)) : (positioned ms).map Prod.snd = ms := by
  simp [positioned, Function.comp_def]

theorem exists_positioned {a : Member σ} (ha : a ∈ ms) : ∃ i, (i, a) ∈ positioned ms := by
  obtain ⟨i, hi⟩ := List.mem_iff_getElem?.mp ha
  exact ⟨i, mem_positioned.mpr hi⟩

/-- There is one listing at a place. -/
theorem eq_of_mem_positioned {p q : Positioned σ} (hp : p ∈ positioned ms) (hq : q ∈ positioned ms)
    (h : p.1 = q.1) : p = q := by
  rw [mem_positioned] at hp hq
  rw [h, hq, Option.some_inj] at hp
  exact Prod.ext h hp.symm

theorem mem_of_positioned {p : Positioned σ} (hp : p ∈ positioned ms) : p.2 ∈ ms :=
  List.mem_of_getElem? (mem_positioned.mp hp)

/-! ## Finding members -/

/-- The members of a name are those whose names pass a test. -/
theorem exists_named_eq_filter (comparer : NameComparer) (ms : List (Member σ)) (name : String) :
    ∃ q : String → Bool, named comparer ms name = (positioned ms).filter fun p => q p.2.name := by
  by_cases h : ((positioned ms).filter fun p => p.2.name == name).isEmpty = true
  · exact ⟨fun n => comparer.normalize n == comparer.normalize name, if_pos h⟩
  · exact ⟨fun n => n == name, if_neg h⟩

/-- Whether a listing is among those whose names pass a test depends on its name. -/
theorem mem_map_fst_filter_iff {q : String → Bool} {p : Positioned σ} (hp : p ∈ positioned ms) :
    p.1 ∈ ((positioned ms).filter fun p => q p.2.name).map Prod.fst ↔ q p.2.name = true := by
  constructor
  · intro hmem
    obtain ⟨p', hp', heq⟩ := List.mem_map.mp hmem
    obtain ⟨hp', hn⟩ := List.mem_filter.mp hp'
    rwa [eq_of_mem_positioned hp' hp heq] at hn
  · intro hn
    exact List.mem_map_of_mem (List.mem_filter.mpr ⟨hp, hn⟩)

/-- A test of names keeps all listings of a member or none. -/
theorem mem_map_snd_filter_iff {q : String → Bool} {m : Member σ} (hm : m ∈ ms) :
    m ∈ ((positioned ms).filter fun p => q p.2.name).map Prod.snd ↔ q m.name = true := by
  constructor
  · intro hmem
    obtain ⟨p, hp, rfl⟩ := List.mem_map.mp hmem
    exact (List.mem_filter.mp hp).2
  · intro hn
    obtain ⟨i, hi⟩ := exists_positioned hm
    exact List.mem_map.mpr ⟨(i, m), List.mem_filter.mpr ⟨hi, hn⟩, rfl⟩

/-- A name that leads to one of two members of the same name leads to the other. -/
theorem mem_positionsOf_iff_of_name_eq (comparer : NameComparer) (name : String) {i j : Nat}
    {a b : Member σ} (ha : ms[i]? = some a) (hb : ms[j]? = some b) (h : a.name = b.name) :
    i ∈ positionsOf comparer ms name ↔ j ∈ positionsOf comparer ms name := by
  obtain ⟨q, hq⟩ := exists_named_eq_filter comparer ms name
  rw [positionsOf, hq, mem_map_fst_filter_iff (p := (i, a)) (mem_positioned.mpr ha),
    mem_map_fst_filter_iff (p := (j, b)) (mem_positioned.mpr hb), h]

/-- A search finds the first member of the name, and no different one after it. -/
theorem named_eq_cons_of_findMember {p : Positioned σ}
    (h : findMember typeName comparer ms name = .ok p) :
    ∃ ps, named comparer ms name = p :: ps ∧ ∀ q ∈ ps, (q.2 == p.2) = true := by
  unfold findMember at h
  split at h
  · cases h
  · next p' ps heq =>
    split at h
    · cases h
    · next hnone =>
      cases h
      exact ⟨ps, heq, fun q hq => by simpa using List.find?_eq_none.mp hnone q hq⟩

/-- The member found is a first listing, and every other of its name is the same member. -/
theorem findMember_eq_ok {p : Positioned σ} (h : findMember typeName comparer ms name = .ok p) :
    p ∈ positioned ms ∧ ∀ q ∈ positioned ms, q.2.name = p.2.name →
      p.1 ≤ q.1 ∧ (q.2 == p.2) = true := by
  obtain ⟨t, ht⟩ := exists_named_eq_filter comparer ms name
  obtain ⟨ps, heq, hsame⟩ := named_eq_cons_of_findMember h
  have hlt : (p :: ps).Pairwise fun p q => p.1 < q.1 := by
    rw [← heq, ht]
    exact (pairwise_positioned ms).filter _
  have hp : p ∈ named comparer ms name := heq ▸ List.mem_cons_self
  rw [ht, List.mem_filter] at hp
  refine ⟨hp.1, fun q hq hname => ?_⟩
  have hqmem : q ∈ named comparer ms name := by
    rw [ht, List.mem_filter, hname]
    exact ⟨hq, hp.2⟩
  rw [heq] at hqmem
  rcases List.mem_cons.mp hqmem with rfl | hqmem
  · exact ⟨Nat.le_refl _, BEq.rfl⟩
  · exact ⟨Nat.le_of_lt ((List.pairwise_cons.mp hlt).1 q hqmem), hsame q hqmem⟩

end Crosswalk
