import Crosswalk.Proofs.Requests
import Mathlib.Data.List.Nodup
import Mathlib.Data.List.Pairwise

/-!
# Runs of a cache

What a cache holds after a run of calls is told by the requests since the last clear
(`Cache.Holds`): the first of equal requests, each under a ticket of its own, and default
compiled mappings among them. A step keeps this (`Cache.Holds.answer`), hence every run does
(`Cache.holds_after`).

A request that does not fail is met by an entry that the cache holds from then on, and a
failing one changes nothing. What a later cache holds was there before, with no clear between,
or has a ticket issued since (`Cache.mem_after`).
-/

namespace Crosswalk

variable {C : Catalog} {s t : C.Key}

/-! ## Entries -/

namespace CacheEntry

/-- What the entry is held for. -/
def request (e : CacheEntry C) : Request C := ⟨e.source, e.target, e.compiled.mappings⟩

/-- The ticket of the compiled mapping that the entry holds. -/
def ticket (e : CacheEntry C) : Ticket := e.compiled.ticket

theorem at?_eq_some_iff {e : CacheEntry C} {c : Compiled (C.Owner s) (C.Owner t)} :
    e.at? s t = some c ↔ e = ⟨s, t, c⟩ := by
  obtain ⟨s', t', d⟩ := e
  constructor
  · intro h
    by_cases hpair : s' = s ∧ t' = t
    · obtain ⟨rfl, rfl⟩ := hpair
      have hd : (⟨s', t', d⟩ : CacheEntry C).at? s' t' = some d := dif_pos ⟨rfl, rfl⟩
      rw [hd, Option.some_inj] at h
      rw [h]
    · simp [at?, hpair] at h
  · intro h
    rw [h]
    exact dif_pos ⟨rfl, rfl⟩

end CacheEntry

namespace Cache

variable {cache cache' : Cache C} {ms : List (Mapping (C.Owner s) (C.Owner t))}
  {c : Compiled (C.Owner s) (C.Owner t)} {rs : List (Request C)}

/-! ## Looking up -/

/-- What is found is held, and its list is equal to the one asked for. -/
theorem mem_of_find? (h : cache.find? s t ms = some c) :
    ⟨s, t, c⟩ ∈ cache.compiled ∧ (c.mappings == ms) = true := by
  obtain ⟨e, he, hc⟩ := List.exists_of_findSome?_eq_some h
  obtain ⟨hat, hsame⟩ := Option.filter_eq_some_iff.mp hc
  exact ⟨CacheEntry.at?_eq_some_iff.mp hat ▸ he, hsame⟩

/-- Where nothing is found, nothing is held for an equal request. -/
theorem ne_of_find?_eq_none (h : cache.find? s t ms = none) {e : CacheEntry C}
    (he : e ∈ cache.compiled) : (e.request == ⟨s, t, ms⟩) = false := by
  by_contra hsame
  obtain ⟨ns, hns, hbeq⟩ := Request.exists_of_beq_mk (Bool.not_eq_false _ ▸ hsame)
  obtain ⟨s', t', d⟩ := e
  cases hns
  have hnone := List.findSome?_eq_none_iff.mp h _ he
  have hat : (⟨s', t', d⟩ : CacheEntry C).at? s' t' = some d :=
    CacheEntry.at?_eq_some_iff.mpr rfl
  rw [hat, Option.filter_some, if_pos hbeq] at hnone
  cases hnone

/-- A default is contained just when some entry is remembered for the pair. -/
theorem containsDefault_iff :
    cache.containsDefault s t = true ↔ ∃ c, ⟨s, t, c⟩ ∈ cache.defaults := by
  rw [containsDefault, default?, List.findSome?_isSome_iff]
  constructor
  · rintro ⟨e, he, hsome⟩
    obtain ⟨c, hc⟩ := Option.isSome_iff_exists.mp hsome
    exact ⟨c, CacheEntry.at?_eq_some_iff.mp hc ▸ he⟩
  · rintro ⟨c, hc⟩
    exact ⟨_, hc, Option.isSome_of_eq_some (CacheEntry.at?_eq_some_iff.mpr rfl)⟩

theorem mem_of_default? (h : cache.default? s t = some c) : ⟨s, t, c⟩ ∈ cache.defaults := by
  obtain ⟨e, he, hc⟩ := List.exists_of_findSome?_eq_some h
  exact CacheEntry.at?_eq_some_iff.mp hc ▸ he

/-! ## Calls -/

/-- The answer of the cache, and the cache after it. -/
def answer (cache : Cache C) :
    Ask C s t → Except MappingError (Compiled (C.Owner s) (C.Owner t)) × Cache C
  | .compile ms => (.ok (cache.compile s t ms).1, (cache.compile s t ms).2)
  | .build c => cache.build s t c
  | .default => cache.defaultMapping s t

/-- The cache after one call. -/
def step (cache : Cache C) : Call C → Cache C
  | .ask _ _ a => (cache.answer a).2
  | .clear => cache.clear

/-- The cache after the calls. -/
def after (cache : Cache C) (calls : List (Call C)) : Cache C := calls.foldl step cache

/-- Calls can be made in two parts. -/
theorem after_append (cache : Cache C) (calls calls' : List (Call C)) :
    cache.after (calls ++ calls') = (cache.after calls).after calls' :=
  List.foldl_append

@[simp]
theorem after_ask (cache : Cache C) (calls : List (Call C)) (a : Ask C s t) :
    cache.after (calls ++ [.ask s t a]) = ((cache.after calls).answer a).2 :=
  after_append _ _ _

@[simp]
theorem after_clear (cache : Cache C) (calls : List (Call C)) :
    cache.after (calls ++ [.clear]) = (cache.after calls).clear :=
  after_append _ _ _

/-- What is held for an equal request is given again. -/
theorem compile_of_find?_some (h : cache.find? s t ms = some c) :
    cache.compile s t ms = (c, cache) := by
  rw [compile, h]

/-- The entry of a list that the cache does not hold. -/
def newEntry (cache : Cache C) (ms : List (Mapping (C.Owner s) (C.Owner t))) : CacheEntry C :=
  ⟨s, t, ⟨⟨cache.identity, cache.issued⟩, ms⟩⟩

/-- A new request gets a compiled mapping with the next ticket. -/
theorem compile_of_find?_none (h : cache.find? s t ms = none) :
    cache.compile s t ms = (⟨⟨cache.identity, cache.issued⟩, ms⟩,
      { cache with
        issued := cache.issued + 1
        compiled := cache.compiled ++ [cache.newEntry ms] }) := by
  rw [compile, h]
  rfl

/-- A configuration that does not validate leaves the cache as it is. -/
theorem build_of_error {k : Configuration (C.Owner s) (C.Owner t)} {e : MappingError}
    (h : k.validate = .error e) : cache.build s t k = (.error e, cache) := by
  rw [build, h]

theorem build_of_ok {k : Configuration (C.Owner s) (C.Owner t)} (h : k.validate = .ok ms) :
    cache.build s t k = (.ok (cache.compile s t ms).1, (cache.compile s t ms).2) := by
  rw [build, h]

/-! ## What a cache holds -/

/-- The cache holds the first of equal requests. -/
structure Holds (cache : Cache C) (rs : List (Request C)) : Prop where
  firsts : cache.compiled.map CacheEntry.request = rs.eraseDups
  increasing : cache.compiled.Pairwise fun a b => a.ticket.serial < b.ticket.serial
  issued : ∀ e ∈ cache.compiled, e.ticket.serial < cache.issued
  /-- A remembered default is held for the list of the default configuration. -/
  defaults : ∀ e ∈ cache.defaults, e ∈ cache.compiled ∧
    ∃ ms, (defaultConfiguration C e.source e.target).validate = .ok ms ∧
      (e.compiled.mappings == ms) = true

namespace Holds

theorem empty (identity : Nat) : (Cache.empty C identity).Holds [] where
  firsts := rfl
  increasing := .nil
  issued := by simp [Cache.empty]
  defaults := by simp [Cache.empty]

/-- After a clearing the cache holds nothing. -/
theorem clear (cache : Cache C) : cache.clear.Holds [] where
  firsts := rfl
  increasing := .nil
  issued := by simp [Cache.clear]
  defaults := by simp [Cache.clear]

/-- Entries for equal requests are one. -/
theorem eq_of_request_beq (h : cache.Holds rs) {e f : CacheEntry C} (he : e ∈ cache.compiled)
    (hf : f ∈ cache.compiled) (hsame : (e.request == f.request) = true) : e = f := by
  have hdiffer : cache.compiled.Pairwise fun a b => (a.request == b.request) = false := by
    have := pairwise_eraseDups rs
    rwa [← h.firsts, List.pairwise_map] at this
  have hsymm : Std.Symm fun a b : CacheEntry C => (a.request == b.request) = false :=
    ⟨fun a b hab => BEq.comm.trans hab⟩
  by_contra hne
  rw [hdiffer.forall he hf hne] at hsame
  cases hsame

/-- Entries of equal tickets are one. -/
theorem eq_of_serial_eq (h : cache.Holds rs) {e f : CacheEntry C} (he : e ∈ cache.compiled)
    (hf : f ∈ cache.compiled) (hserial : e.ticket.serial = f.ticket.serial) : e = f := by
  have hnodup : (cache.compiled.map fun e => e.ticket.serial).Nodup :=
    List.pairwise_map.mpr (h.increasing.imp Nat.ne_of_lt)
  exact List.inj_on_of_nodup_map hnodup he hf hserial

/-- What is found for a request is the one entry held for an equal one. -/
theorem find?_eq_some_iff (h : cache.Holds rs) :
    cache.find? s t ms = some c ↔ ⟨s, t, c⟩ ∈ cache.compiled ∧ (c.mappings == ms) = true := by
  refine ⟨mem_of_find?, fun ⟨hmem, hsame⟩ => ?_⟩
  have hrequest : ((⟨s, t, c⟩ : CacheEntry C).request == ⟨s, t, ms⟩) = true :=
    (Request.mk_beq_mk _ _).trans hsame
  cases hfind : cache.find? s t ms with
  | none =>
    rw [ne_of_find?_eq_none hfind hmem] at hrequest
    cases hrequest
  | some d =>
    obtain ⟨hd, hdsame⟩ := mem_of_find? hfind
    have hdc : (d.mappings == c.mappings) = true := BEq.trans hdsame (BEq.symm hsame)
    cases h.eq_of_request_beq hd hmem ((Request.mk_beq_mk _ _).trans hdc)
    rfl

/-- An entry held for a list is for the first of the equal requests. -/
theorem find?_requests (h : cache.Holds rs) (hmem : ⟨s, t, c⟩ ∈ cache.compiled)
    (hsame : (c.mappings == ms) = true) :
    rs.find? (· == ⟨s, t, ms⟩) = some ⟨s, t, c.mappings⟩ := by
  have hrequest : ((⟨s, t, c.mappings⟩ : Request C) == ⟨s, t, ms⟩) = true :=
    (Request.mk_beq_mk _ _).trans hsame
  rw [← find?_eraseDups, ← h.firsts]
  cases hfind : (cache.compiled.map CacheEntry.request).find? (· == ⟨s, t, ms⟩) with
  | none =>
    have hnone := List.find?_eq_none.mp hfind _ (List.mem_map_of_mem hmem)
    exact (hnone hrequest).elim
  | some r =>
    obtain ⟨e, he, rfl⟩ := List.mem_map.mp (List.mem_of_find?_eq_some hfind)
    have hfound := List.find?_some hfind
    rw [h.eq_of_request_beq he hmem (BEq.trans hfound (BEq.symm hrequest))]
    rfl

/-- A request for a list that is held changes nothing. -/
theorem append_held (h : cache.Holds rs) (hmem : ⟨s, t, c⟩ ∈ cache.compiled)
    (hsame : (c.mappings == ms) = true) : cache.Holds (rs ++ [⟨s, t, ms⟩]) := by
  refine ⟨?_, h.increasing, h.issued, h.defaults⟩
  have hheld : rs.eraseDups.any (· == ⟨s, t, ms⟩) = true := by
    rw [← h.firsts, List.any_map, List.any_eq_true]
    exact ⟨_, hmem, (Request.mk_beq_mk _ _).trans hsame⟩
  rw [eraseDups_concat, if_pos hheld, h.firsts]

/-- A request for a list that is not held adds an entry under a new ticket. -/
theorem append_new (h : cache.Holds rs) (hnew : cache.find? s t ms = none) :
    Holds { cache with
      issued := cache.issued + 1
      compiled := cache.compiled ++ [cache.newEntry ms] } (rs ++ [⟨s, t, ms⟩]) where
  firsts := by
    have hnone : ¬rs.eraseDups.any (· == ⟨s, t, ms⟩) = true := by
      rw [← h.firsts, List.any_map, List.any_eq_true]
      rintro ⟨e, he, hsame⟩
      rw [Function.comp_apply, ne_of_find?_eq_none hnew he] at hsame
      cases hsame
    rw [eraseDups_concat, if_neg hnone, ← h.firsts, List.map_append]
    rfl
  increasing := by
    refine List.pairwise_append.mpr ⟨h.increasing, List.pairwise_singleton _ _, ?_⟩
    intro a ha b hb
    rw [List.mem_singleton.mp hb]
    exact h.issued a ha
  issued := by
    intro e he
    rcases List.mem_append.mp he with he | he
    · exact Nat.lt_succ_of_lt (h.issued e he)
    · rw [List.mem_singleton.mp he]
      exact Nat.lt_succ_self _
  defaults := by
    intro e he
    obtain ⟨hmem, hdefault⟩ := h.defaults e he
    exact ⟨List.mem_append_left _ hmem, hdefault⟩

/-! ## Answers -/

/-- Compiling keeps the invariant, with one more request. -/
theorem compile (h : cache.Holds rs) (ms : List (Mapping (C.Owner s) (C.Owner t))) :
    (cache.compile s t ms).2.Holds (rs ++ [⟨s, t, ms⟩]) ∧
      ⟨s, t, (cache.compile s t ms).1⟩ ∈ (cache.compile s t ms).2.compiled ∧
      ((cache.compile s t ms).1.mappings == ms) = true := by
  cases hfind : cache.find? s t ms with
  | some c =>
    obtain ⟨hmem, hsame⟩ := mem_of_find? hfind
    rw [compile_of_find?_some hfind]
    exact ⟨h.append_held hmem hsame, hmem, hsame⟩
  | none =>
    rw [compile_of_find?_none hfind]
    exact ⟨h.append_new hfind, List.mem_append_right _ (List.mem_singleton.mpr rfl), BEq.rfl⟩

/-- A default may be remembered once its mapping is held. -/
theorem remember (h : cache.Holds rs) (hmem : ⟨s, t, c⟩ ∈ cache.compiled)
    (hdefault : (defaultConfiguration C s t).validate = .ok ms)
    (hsame : (c.mappings == ms) = true) :
    Holds { cache with defaults := cache.defaults ++ [⟨s, t, c⟩] } rs := by
  refine ⟨h.firsts, h.increasing, h.issued, fun e he => ?_⟩
  rcases List.mem_append.mp he with he | he
  · exact h.defaults e he
  · rw [List.mem_singleton.mp he]
    exact ⟨hmem, ms, hdefault, hsame⟩

/-- A request that does not fail is met by an entry that the cache then holds. -/
theorem answer (h : cache.Holds rs) {a : Ask C s t} (hlist : a.list = .ok ms) :
    ∃ c cache', cache.answer a = (.ok c, cache') ∧ cache'.Holds (rs ++ [⟨s, t, ms⟩]) ∧
      ⟨s, t, c⟩ ∈ cache'.compiled ∧ (c.mappings == ms) = true := by
  cases a with
  | compile ns =>
    cases hlist
    exact ⟨_, _, rfl, h.compile ms⟩
  | build k => exact ⟨_, _, build_of_ok hlist, h.compile ms⟩
  | default =>
    have hvalid : (defaultConfiguration C s t).validate = .ok ms := hlist
    cases hdefault : cache.default? s t with
    | some c =>
      obtain ⟨hmem, ns, hns, hsame⟩ := h.defaults _ (mem_of_default? hdefault)
      obtain rfl : ms = ns := Except.ok.inj (hvalid.symm.trans hns)
      refine ⟨c, cache, ?_, h.append_held hmem hsame, hmem, hsame⟩
      rw [Cache.answer, defaultMapping, hdefault]
    | none =>
      obtain ⟨hholds, hmem, hsame⟩ := h.compile ms
      refine ⟨_, _, ?_, hholds.remember hmem hvalid hsame, hmem, hsame⟩
      rw [Cache.answer, defaultMapping, hdefault, build_of_ok hvalid]

/-- A request that fails changes nothing. -/
theorem answer_of_error (h : cache.Holds rs) {a : Ask C s t} {e : MappingError}
    (hlist : a.list = .error e) : cache.answer a = (.error e, cache) := by
  cases a with
  | compile ns => cases hlist
  | build k => exact build_of_error hlist
  | default =>
    have hvalid : (defaultConfiguration C s t).validate = .error e := hlist
    cases hdefault : cache.default? s t with
    | some c =>
      obtain ⟨-, ns, hns, -⟩ := h.defaults _ (mem_of_default? hdefault)
      cases hvalid.symm.trans hns
    | none => rw [Cache.answer, defaultMapping, hdefault, build_of_error hvalid]

end Holds

/-- After every run the cache holds the first of the equal requests since the last clear. -/
theorem holds_after (identity : Nat) (calls : List (Call C)) :
    ((empty C identity).after calls).Holds (Call.requests calls) := by
  induction calls using List.reverseRecOn with
  | nil => exact .empty identity
  | append_singleton calls call ih =>
    cases call with
    | clear =>
      rw [after_clear, Call.requests_clear]
      exact .clear _
    | ask s t a =>
      rw [after_ask]
      cases hlist : a.list with
      | error e =>
        rw [ih.answer_of_error hlist, Call.requests_ask_of_error calls hlist]
        exact ih
      | ok ms =>
        obtain ⟨c, cache', hanswer, hholds, -⟩ := ih.answer hlist
        rw [hanswer, Call.requests_ask calls hlist]
        exact hholds

/-! ## What stays -/

/-- The one cache holds all that the other does, and what is issued since. -/
structure Grows (cache cache' : Cache C) : Prop where
  issued_le : cache.issued ≤ cache'.issued
  kept : ∀ e ∈ cache.compiled, e ∈ cache'.compiled
  fresh : ∀ e ∈ cache'.compiled, e ∈ cache.compiled ∨ cache.issued ≤ e.ticket.serial

theorem Grows.refl (cache : Cache C) : cache.Grows cache :=
  ⟨Nat.le_refl _, fun _ he => he, fun _ he => .inl he⟩

/-- Compiling forgets nothing. -/
theorem grows_compile (cache : Cache C) (ms : List (Mapping (C.Owner s) (C.Owner t))) :
    cache.Grows (cache.compile s t ms).2 := by
  cases hfind : cache.find? s t ms with
  | some c =>
    rw [compile_of_find?_some hfind]
    exact .refl cache
  | none =>
    rw [compile_of_find?_none hfind]
    refine ⟨Nat.le_succ _, fun e he => List.mem_append_left _ he, fun e he => ?_⟩
    refine (List.mem_append.mp he).imp_right fun he => ?_
    rw [List.mem_singleton.mp he]
    exact Nat.le_refl _

theorem grows_build (cache : Cache C) (k : Configuration (C.Owner s) (C.Owner t)) :
    cache.Grows (cache.build s t k).2 := by
  cases h : k.validate with
  | error e =>
    rw [build_of_error h]
    exact .refl cache
  | ok ms =>
    rw [build_of_ok h]
    exact cache.grows_compile ms

theorem grows_defaultMapping (cache : Cache C) (s t : C.Key) :
    cache.Grows (cache.defaultMapping s t).2 := by
  have hgrows := cache.grows_build (defaultConfiguration C s t)
  unfold defaultMapping
  split
  · exact .refl cache
  · split
    · next hbuild =>
      rw [hbuild] at hgrows
      exact hgrows
    · next hbuild =>
      rw [hbuild] at hgrows
      exact ⟨hgrows.issued_le, hgrows.kept, hgrows.fresh⟩

/-- No answer forgets anything. -/
theorem grows_answer (cache : Cache C) (a : Ask C s t) : cache.Grows (cache.answer a).2 := by
  cases a with
  | compile ms => exact cache.grows_compile ms
  | build k => exact cache.grows_build k
  | default => exact cache.grows_defaultMapping s t

/-- What a later cache holds was there before, with no clear between, or is issued since. -/
theorem mem_after {e : CacheEntry C} (cache : Cache C) (calls : List (Call C))
    (he : e ∈ (cache.after calls).compiled) :
    (e ∈ cache.compiled ∧ .clear ∉ calls) ∨ cache.issued ≤ e.ticket.serial := by
  induction calls generalizing cache with
  | nil => exact .inl ⟨he, List.not_mem_nil⟩
  | cons call calls ih =>
    cases call with
    | clear =>
      rcases ih cache.clear he with ⟨hmem, -⟩ | hissued
      · cases hmem
      · exact .inr hissued
    | ask s t a =>
      have hgrows := cache.grows_answer a
      rcases ih (cache.answer a).2 he with ⟨hmem, hclear⟩ | hissued
      · exact (hgrows.fresh e hmem).imp_left fun hmem => ⟨hmem, by simpa using hclear⟩
      · exact .inr (Nat.le_trans hgrows.issued_le hissued)

/-- Without a clear the cache keeps what it holds. -/
theorem mem_after_of_not_clear {e : CacheEntry C} (cache : Cache C) (calls : List (Call C))
    (hclear : .clear ∉ calls) (he : e ∈ cache.compiled) : e ∈ (cache.after calls).compiled := by
  induction calls generalizing cache with
  | nil => exact he
  | cons call calls ih =>
    cases call with
    | clear => exact absurd List.mem_cons_self hclear
    | ask s t a =>
      exact ih (cache.answer a).2 (fun h => hclear (List.mem_cons_of_mem _ h))
        ((cache.grows_answer a).kept e he)

end Cache

end Crosswalk
