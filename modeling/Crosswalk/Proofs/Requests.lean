import Crosswalk.Cache
import Crosswalk.Proofs.Sameness
import Mathlib.Data.List.DropRight

/-!
# Calls of a cache

A call of a cache asks for the compiled mapping of a list, of a configuration or of the
default configuration of a pair of owner types, or clears the cache. What is asked for is a
list of mappings for a pair (`Request`), unless the configuration fails; two requests are the
same (`==`) when they are for one pair and their lists are. `Call.requests` are those that a
run of calls leaves standing: the ones since its last clear.

`List.eraseDups` keeps the first of equal requests. One more is kept unless an equal one is
there (`eraseDups_concat`), so those kept differ (`pairwise_eraseDups`) and answer for those
left out (`find?_eraseDups`).
-/

namespace Crosswalk

/-! ## First elements -/

section

variable {α : Type} [BEq α] [EquivBEq α]

/-- An element behind a list stays if no equal one stands before. -/
theorem eraseDups_concat (x : α) (l : List α) : (l ++ [x]).eraseDups =
    if l.eraseDups.any (· == x) then l.eraseDups else l.eraseDups ++ [x] := by
  match l with
  | [] => simp [List.eraseDups_cons]
  | a :: l =>
    have ih := eraseDups_concat x (l.filter fun b => !b == a)
    rw [List.cons_append, List.eraseDups_cons, List.eraseDups_cons, List.filter_append,
      List.any_cons]
    cases hxa : x == a with
    | true => simp [hxa, BEq.symm hxa]
    | false =>
      have hax : (a == x) = false := by rw [BEq.comm, hxa]
      simp only [List.filter_cons, hxa, hax, Bool.not_false, if_true, List.filter_nil, ih,
        Bool.false_or]
      split <;> simp
  termination_by l.length
  decreasing_by
    have := List.length_filter_le (fun b => !b == a) l
    simp only [List.length_cons]
    omega

/-- Of equal elements, one stays. -/
theorem pairwise_eraseDups (l : List α) : l.eraseDups.Pairwise fun a b => (a == b) = false := by
  induction l using List.reverseRecOn with
  | nil => simp
  | append_singleton l x ih =>
    rw [eraseDups_concat]
    split
    · exact ih
    · next hnew =>
      have hnew : ∀ a ∈ l.eraseDups, (a == x) = false := by simpa using hnew
      refine List.pairwise_append.mpr ⟨ih, List.pairwise_singleton _ _, fun a ha b hb => ?_⟩
      rw [List.mem_singleton.mp hb]
      exact hnew a ha

/-- An element is found by its equals as before. -/
theorem find?_eraseDups (y : α) (l : List α) :
    l.eraseDups.find? (· == y) = l.find? (· == y) := by
  induction l using List.reverseRecOn with
  | nil => simp
  | append_singleton l x ih =>
    rw [eraseDups_concat, List.find?_append, ← ih]
    split
    · next hold =>
      obtain ⟨a, ha, hax⟩ := List.any_eq_true.mp hold
      cases hxy : x == y with
      | true =>
        -- An equal element stands before, so the new one is not looked at.
        have hfound : (l.eraseDups.find? (· == y)).isSome = true :=
          List.find?_isSome.mpr ⟨a, ha, BEq.trans hax hxy⟩
        obtain ⟨b, hb⟩ := Option.isSome_iff_exists.mp hfound
        rw [hb, Option.some_or]
      | false => simp [hxy]
    · rw [List.find?_append]

end

/-! ## Requests -/

/-- A list of mappings for a pair of owner types. -/
structure Request (C : Catalog) where
  source : C.Key
  target : C.Key
  mappings : List (Mapping (C.Owner source) (C.Owner target))

namespace Request

variable {C : Catalog} {s t : C.Key}

/-- The list, where the request is for the pair. -/
def at? (r : Request C) (s t : C.Key) : Option (List (Mapping (C.Owner s) (C.Owner t))) :=
  if h : r.source = s ∧ r.target = t then some (h.1 ▸ h.2 ▸ r.mappings) else none

instance : BEq (Request C) where
  beq a b := a.at? b.source b.target == some b.mappings

@[simp]
theorem at?_self (ms : List (Mapping (C.Owner s) (C.Owner t))) :
    (⟨s, t, ms⟩ : Request C).at? s t = some ms :=
  dif_pos ⟨rfl, rfl⟩

/-- A request shows its list to its own pair of owner types alone. -/
theorem at?_eq_some_iff {r : Request C} {ms : List (Mapping (C.Owner s) (C.Owner t))} :
    r.at? s t = some ms ↔ r = ⟨s, t, ms⟩ := by
  obtain ⟨s', t', ns⟩ := r
  constructor
  · intro h
    by_cases hpair : s' = s ∧ t' = t
    · obtain ⟨rfl, rfl⟩ := hpair
      rw [at?_self, Option.some_inj] at h
      rw [h]
    · simp [at?, hpair] at h
  · intro h
    rw [h, at?_self]

/-- Requests for one pair are equal if their lists are. -/
theorem mk_beq_mk (ms ns : List (Mapping (C.Owner s) (C.Owner t))) :
    ((⟨s, t, ms⟩ : Request C) == ⟨s, t, ns⟩) = (ms == ns) := by
  show ((⟨s, t, ms⟩ : Request C).at? s t == some ns) = _
  rw [at?_self]
  rfl

/-- A request that equals one for a pair is for that pair. -/
theorem exists_of_beq_mk {r : Request C} {ns : List (Mapping (C.Owner s) (C.Owner t))}
    (h : (r == ⟨s, t, ns⟩) = true) : ∃ ms, r = ⟨s, t, ms⟩ ∧ (ms == ns) = true := by
  change (r.at? s t == some ns) = true at h
  cases hr : r.at? s t with
  | none =>
    rw [hr] at h
    cases h
  | some ms =>
    rw [hr] at h
    exact ⟨ms, at?_eq_some_iff.mp hr, h⟩

theorem beq_congr {a b : Request C} (h : (a == b) = true) (c : Request C) :
    (a == c) = (b == c) := by
  obtain ⟨s, t, ns⟩ := b
  obtain ⟨ms, rfl, hms⟩ := exists_of_beq_mk h
  obtain ⟨s', t', ls⟩ := c
  by_cases hpair : s = s' ∧ t = t'
  · obtain ⟨rfl, rfl⟩ := hpair
    rw [mk_beq_mk, mk_beq_mk, BEq.congr_left hms]
  · show ((⟨s, t, ms⟩ : Request C).at? s' t' == some ls) =
      ((⟨s, t, ns⟩ : Request C).at? s' t' == some ls)
    rw [at?, at?, dif_neg hpair, dif_neg hpair]

instance : EquivBEq (Request C) :=
  EquivBEq.of_congr (fun r => (mk_beq_mk r.mappings r.mappings).trans BEq.rfl) beq_congr

end Request

/-! ## Calls -/

section

variable {C : Catalog} {s t : C.Key}

/-- What a cache is asked for about a pair of owner types. -/
inductive Ask (C : Catalog) (s t : C.Key) where
  /-- The compiled mapping of a list. -/
  | compile (ms : List (Mapping (C.Owner s) (C.Owner t)))
  /-- The compiled mapping of a configuration. -/
  | build (c : Configuration (C.Owner s) (C.Owner t))
  /-- The compiled mapping of the default configuration. -/
  | default

/-- The list asked for. -/
def Ask.list : Ask C s t → Except MappingError (List (Mapping (C.Owner s) (C.Owner t)))
  | compile ms => .ok ms
  | build c => c.validate
  | default => (Cache.defaultConfiguration C s t).validate

/-- A call of a cache. -/
inductive Call (C : Catalog) where
  | ask (s t : C.Key) (a : Ask C s t)
  | clear

namespace Call

/-- The call clears the cache. -/
def isClear : Call C → Bool
  | ask _ _ _ => false
  | clear => true

/-- What the call asks for, unless it fails. -/
def request? : Call C → Option (Request C)
  | ask s t a => a.list.toOption.map fun ms => ⟨s, t, ms⟩
  | clear => none

/-- The calls after the last clear. -/
def sinceClear (calls : List (Call C)) : List (Call C) := calls.rtakeWhile fun c => !c.isClear

/-- The requests since the last clear. -/
def requests (calls : List (Call C)) : List (Request C) := (sinceClear calls).filterMap request?

variable (calls : List (Call C))

@[simp]
theorem sinceClear_ask (a : Ask C s t) :
    sinceClear (calls ++ [.ask s t a]) = sinceClear calls ++ [.ask s t a] :=
  List.rtakeWhile_concat_pos _ _ _ rfl

@[simp]
theorem sinceClear_clear : sinceClear (calls ++ [.clear]) = [] :=
  List.rtakeWhile_concat_neg _ _ _ (by simp [isClear])

/-- A list that is asked for is one more request. -/
theorem requests_ask {a : Ask C s t} {ms : List (Mapping (C.Owner s) (C.Owner t))}
    (h : a.list = .ok ms) : requests (calls ++ [.ask s t a]) = requests calls ++ [⟨s, t, ms⟩] := by
  simp [requests, request?, h, Except.toOption]

/-- A configuration that does not validate requests nothing. -/
theorem requests_ask_of_error {a : Ask C s t} {e : MappingError} (h : a.list = .error e) :
    requests (calls ++ [.ask s t a]) = requests calls := by
  simp [requests, request?, h, Except.toOption]

/-- A clearing forgets the requests. -/
@[simp]
theorem requests_clear : requests (calls ++ [.clear]) = [] := by
  simp [requests]

/-- The mappings in the requests for a pair of owner types since the last clear. -/
def mappings (s t : C.Key) : List (Mapping (C.Owner s) (C.Owner t)) :=
  ((requests calls).filterMap fun r => r.at? s t).flatten

variable {calls}

/-- The mappings of a request are among those of its pair. -/
theorem mem_mappings {ms : List (Mapping (C.Owner s) (C.Owner t))}
    (hms : ⟨s, t, ms⟩ ∈ requests calls) {m : Mapping (C.Owner s) (C.Owner t)} (hm : m ∈ ms) :
    m ∈ mappings calls s t := by
  refine List.mem_flatten.mpr ⟨ms, List.mem_filterMap.mpr ⟨_, hms, ?_⟩, hm⟩
  exact Request.at?_self ms

end Call

end

end Crosswalk
