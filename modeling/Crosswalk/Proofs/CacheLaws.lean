import Crosswalk.Proofs.CacheRuns

/-!
# The laws of a cache

A ticket stands for one entry, whatever is asked or cleared later (`Cache.eq_of_ticket_eq`).
So two answers share a compiled mapping exactly when their lists are equal and the cache
kept it from the one to the other, and clearing takes nothing from what was handed out.

`Cache.Laws` collects what a run of calls says of the answers that follow it, of the size of
the cache and of the defaults that it remembers; every run has them (`Cache.laws_after`).
-/

namespace Crosswalk

variable {C : Catalog} {s t s' t' : C.Key}

namespace Cache

variable {cache : Cache C} {rs : List (Request C)}

/-! ## Answers and lists -/

/-- A failed answer is the failure of the list asked for, and leaves the cache as it is. -/
theorem answer_eq_error (h : cache.Holds rs) {a : Ask C s t} {e : MappingError}
    (ha : (cache.answer a).1 = .error e) : a.list = .error e ∧ (cache.answer a).2 = cache := by
  cases hlist : a.list with
  | ok ms =>
    obtain ⟨c, cache', hanswer, -⟩ := h.answer hlist
    rw [hanswer] at ha
    cases ha
  | error e' =>
    have hanswer := h.answer_of_error hlist
    rw [hanswer] at ha ⊢
    cases ha
    exact ⟨rfl, rfl⟩

/-- An answer holds a list equal to the one asked for, and is held from then on. -/
theorem answer_eq_ok (h : cache.Holds rs) {a : Ask C s t}
    {c : Compiled (C.Owner s) (C.Owner t)} (ha : (cache.answer a).1 = .ok c) :
    ∃ ms, a.list = .ok ms ∧ (c.mappings == ms) = true ∧
      ⟨s, t, c⟩ ∈ (cache.answer a).2.compiled := by
  cases hlist : a.list with
  | ok ms =>
    obtain ⟨d, cache', hanswer, -, hmem, hsame⟩ := h.answer hlist
    rw [hanswer] at ha ⊢
    cases ha
    exact ⟨ms, rfl, hsame, hmem⟩
  | error e =>
    rw [h.answer_of_error hlist] at ha
    cases ha

/-! ## Defaults -/

/-- Compiling makes no default. -/
theorem defaults_compile (cache : Cache C) (ms : List (Mapping (C.Owner s) (C.Owner t))) :
    (cache.compile s t ms).2.defaults = cache.defaults := by
  cases hfind : cache.find? s t ms with
  | some c => rw [compile_of_find?_some hfind]
  | none => rw [compile_of_find?_none hfind]

theorem defaults_build (cache : Cache C) (k : Configuration (C.Owner s) (C.Owner t)) :
    (cache.build s t k).2.defaults = cache.defaults := by
  cases hlist : k.validate with
  | error e => rw [build_of_error hlist]
  | ok ms =>
    rw [build_of_ok hlist]
    exact cache.defaults_compile ms

/-- A default is remembered from the first request for it that does not fail. -/
theorem containsDefault_answer (h : cache.Holds rs) (a : Ask C s' t') :
    (cache.answer a).2.containsDefault s t = true ↔ cache.containsDefault s t = true ∨
      (Call.ask s' t' a = .ask s t .default ∧ ∃ ms, (Ask.default : Ask C s t).list = .ok ms) := by
  cases a with
  | compile ms =>
    simp only [containsDefault_iff, answer, defaults_compile]
    refine (or_iff_left ?_).symm
    rintro ⟨hcall, -⟩
    cases hcall
  | build k =>
    simp only [containsDefault_iff, answer, defaults_build]
    refine (or_iff_left ?_).symm
    rintro ⟨hcall, -⟩
    cases hcall
  | default =>
    cases hlist : (Ask.default : Ask C s' t').list with
    | error e =>
      rw [h.answer_of_error hlist]
      refine (or_iff_left ?_).symm
      rintro ⟨hcall, ms, hms⟩
      cases hcall
      cases hlist.symm.trans hms
    | ok ms =>
      cases hdefault : cache.default? s' t' with
      | some c =>
        rw [answer, defaultMapping, hdefault]
        refine (or_iff_left_of_imp ?_).symm
        rintro ⟨hcall, -⟩
        cases hcall
        exact Option.isSome_of_eq_some hdefault
      | none =>
        have hvalid : (defaultConfiguration C s' t').validate = .ok ms := hlist
        rw [answer, defaultMapping, hdefault, build_of_ok hvalid]
        simp only [containsDefault_iff, defaults_compile, List.mem_append, List.mem_singleton,
          exists_or]
        refine or_congr_right ⟨?_, ?_⟩
        · rintro ⟨c, hc⟩
          cases hc
          exact ⟨rfl, ms, hlist⟩
        · rintro ⟨hcall, -⟩
          cases hcall
          exact ⟨_, rfl⟩

/-- There is a default for a pair just when it was asked for since the last clearing, and validates.
-/
theorem containsDefault_after (identity : Nat) (calls : List (Call C)) :
    ((empty C identity).after calls).containsDefault s t = true ↔
      .ask s t .default ∈ Call.sinceClear calls ∧
        ∃ ms, (Ask.default : Ask C s t).list = .ok ms := by
  induction calls using List.reverseRecOn with
  | nil => simp [containsDefault, default?, after, empty, Call.sinceClear]
  | append_singleton calls call ih =>
    cases call with
    | clear => simp [containsDefault, default?, clear]
    | ask s' t' a =>
      rw [after_ask, containsDefault_answer (holds_after identity calls), ih,
        Call.sinceClear_ask, List.mem_append, List.mem_singleton, or_and_right,
        eq_comm (a := Call.ask s' t' a)]

/-! ## Tickets -/

/-- A ticket stands for one entry, which the cache keeps from one answer with it to another. -/
theorem eq_of_ticket_eq (h : cache.Holds rs) {calls : List (Call C)} {e f : CacheEntry C}
    (he : e ∈ cache.compiled) (hf : f ∈ (cache.after calls).compiled)
    (hticket : e.ticket = f.ticket) : e = f ∧ .clear ∉ calls := by
  rcases cache.mem_after calls hf with ⟨hmem, hkept⟩ | hissued
  · exact ⟨h.eq_of_serial_eq he hmem (congrArg Ticket.serial hticket), hkept⟩
  · have hlt := h.issued e he
    rw [hticket] at hlt
    omega

section

variable {identity : Nat} {calls later : List (Call C)} {a : Ask C s t} {b : Ask C s' t'}
  {p : Compiled (C.Owner s) (C.Owner t)} {q : Compiled (C.Owner s') (C.Owner t')}

/-- The cache after an answer holds the requests up to it. -/
theorem holds_answer (identity : Nat) (calls : List (Call C)) (a : Ask C s t) :
    (((empty C identity).after calls).answer a).2.Holds
      (Call.requests (calls ++ [.ask s t a])) := by
  rw [← after_ask]
  exact holds_after identity _

theorem holds_later (identity : Nat) (calls later : List (Call C)) (a : Ask C s t) :
    ((((empty C identity).after calls).answer a).2.after later).Holds
      (Call.requests (calls ++ [.ask s t a] ++ later)) := by
  rw [← after_ask, ← after_append]
  exact holds_after identity _

/-- What is answered later stays until then what it is, or is new. -/
theorem entry_eq_of_ticket_eq (hp : (((empty C identity).after calls).answer a).1 = .ok p)
    (hq : (((((empty C identity).after calls).answer a).2.after later).answer b).1 = .ok q)
    (hticket : p.ticket = q.ticket) :
    (⟨s, t, p⟩ : CacheEntry C) = ⟨s', t', q⟩ ∧ .clear ∉ later := by
  obtain ⟨-, -, -, hpmem⟩ := answer_eq_ok (holds_after identity calls) hp
  obtain ⟨-, -, -, hqmem⟩ := answer_eq_ok (holds_later identity calls later a) hq
  rw [← after_ask] at hqmem
  obtain ⟨heq, hclear⟩ := eq_of_ticket_eq (holds_answer identity calls a) hpmem hqmem hticket
  exact ⟨heq, fun h => hclear (List.mem_append_left _ h)⟩

end

/-- Answers share a compiled mapping just when their lists are equal and nothing was cleared
between. -/
theorem shares_iff_of_answers {identity : Nat} {calls between : List (Call C)} {a b : Ask C s t}
    {p q : Compiled (C.Owner s) (C.Owner t)} {ms ns : List (Mapping (C.Owner s) (C.Owner t))}
    (ha : a.list = .ok ms) (hb : b.list = .ok ns)
    (hp : (((empty C identity).after calls).answer a).1 = .ok p)
    (hq : (((((empty C identity).after calls).answer a).2.after between).answer b).1 = .ok q) :
    p.shares q = true ↔ (ms == ns) = true ∧ .clear ∉ between := by
  have hlater := holds_later identity calls between a
  obtain ⟨ms', ha', hpsame, hpmem⟩ := answer_eq_ok (holds_after identity calls) hp
  obtain ⟨ns', hb', hqsame, hqmem⟩ := answer_eq_ok hlater hq
  obtain rfl : ms = ms' := Except.ok.inj (ha.symm.trans ha')
  obtain rfl : ns = ns' := Except.ok.inj (hb.symm.trans hb')
  rw [Compiled.shares, beq_iff_eq]
  constructor
  · intro hticket
    obtain ⟨heq, hclear⟩ := entry_eq_of_ticket_eq hp hq hticket
    cases heq
    exact ⟨BEq.trans (BEq.symm hpsame) hqsame, hclear⟩
  · rintro ⟨hsame, hclear⟩
    -- The first compiled mapping is still held, for a list equal to the one asked for.
    have hpkept := mem_after_of_not_clear _ between hclear hpmem
    have hpq : (p.mappings == q.mappings) = true :=
      BEq.trans hpsame (BEq.trans hsame (BEq.symm hqsame))
    have hheld := (grows_answer _ b).kept _ hpkept
    have hholds := holds_later identity calls (between ++ [.ask s t b]) a
    rw [after_ask] at hholds
    cases hholds.eq_of_request_beq hheld hqmem ((Request.mk_beq_mk _ _).trans hpq)
    rfl

/-! ## Laws -/

/-- What a run of calls says of the cache and of the answers that follow. -/
structure Laws (cache : Cache C) (calls : List (Call C)) : Prop where
  /-- A request fails with the error of its configuration, and then changes nothing. -/
  failed : ∀ {s t} (a : Ask C s t) e, (cache.answer a).1 = .error e →
    a.list = .error e ∧ (cache.answer a).2 = cache
  answered : ∀ {s t} (a : Ask C s t) c, (cache.answer a).1 = .ok c →
    ∃ ms, a.list = .ok ms ∧ (c.mappings == ms) = true
  shares_iff : ∀ {s t} (a b : Ask C s t) (between : List (Call C)) p q ms ns,
    a.list = .ok ms → b.list = .ok ns → (cache.answer a).1 = .ok p →
      (((cache.answer a).2.after between).answer b).1 = .ok q →
        (p.shares q = true ↔ (ms == ns) = true ∧ .clear ∉ between)
  size_eq : cache.size = (Call.requests calls).eraseDups.length
  containsDefault_iff : ∀ s t, cache.containsDefault s t = true ↔
    .ask s t .default ∈ Call.sinceClear calls ∧ ∃ ms, (Ask.default : Ask C s t).list = .ok ms
  /-- A remembered default is what is held for its list. -/
  default_held : ∀ {s t} c, cache.default? s t = some c →
    ∃ ms, (Ask.default : Ask C s t).list = .ok ms ∧ cache.find? s t ms = some c ∧
      cache.find? s t c.mappings = some c
  /-- Whatever is asked or cleared after an answer, its ticket stands for its mappings. -/
  kept : ∀ {s t s' t'} (a : Ask C s t) (later : List (Call C)) (b : Ask C s' t') p q,
    (cache.answer a).1 = .ok p → (((cache.answer a).2.after later).answer b).1 = .ok q →
      p.ticket = q.ticket → (⟨s, t, p⟩ : CacheEntry C) = ⟨s', t', q⟩
  /-- Whatever has been run before, an answer carries out its mappings. -/
  carriedOut : ∀ {s t} (a : Ask C s t) p, (cache.answer a).1 = .ok p →
    ∀ u x y, (p.run u x y).1 = transform p.mappings x y

/-- Every run of calls of an empty cache has the laws. -/
theorem laws_after (identity : Nat) (calls : List (Call C)) :
    ((empty C identity).after calls).Laws calls where
  failed _ _ ha := answer_eq_error (holds_after identity calls) ha
  answered _ _ ha := by
    obtain ⟨ms, hlist, hsame, -⟩ := answer_eq_ok (holds_after identity calls) ha
    exact ⟨ms, hlist, hsame⟩
  shares_iff _ _ _ _ _ _ _ ha hb hp hq := shares_iff_of_answers ha hb hp hq
  size_eq := by
    rw [← (holds_after identity calls).firsts, List.length_map, size]
  containsDefault_iff _ _ := containsDefault_after identity calls
  default_held c hc := by
    have hholds := holds_after identity calls
    obtain ⟨hmem, ms, hlist, hsame⟩ := hholds.defaults _ (mem_of_default? hc)
    exact ⟨ms, hlist, hholds.find?_eq_some_iff.mpr ⟨hmem, hsame⟩,
      hholds.find?_eq_some_iff.mpr ⟨hmem, BEq.rfl⟩⟩
  kept _ _ _ _ _ hp hq hticket := (entry_eq_of_ticket_eq hp hq hticket).1
  carriedOut _ _ _ _ _ _ := rfl

end Cache

end Crosswalk
