import Crosswalk.Proofs.Agenda
import Crosswalk.Proofs.LastDirective

/-!
# Verdicts on names

What the directives leave of a member depends on its name, and for a target member on whether
another of its name comes before it: an override reaches the first listing only, and the name of
one leads to one member. So the state after a replay is read off the directives for each name
(`Configuration.ignores`, `Configuration.verdict`), and validation is a function of the lists of
members without their positions (`Configuration.validate_eq_settle_judged`). Over other lists of
the same members the verdicts stay (`Configuration.verdict_relist`).
-/

namespace Crosswalk

variable {σ τ : Type}

/-! ## The member of a name -/

section

variable {comparer : NameComparer} {ms ms' : List (Member σ)} {name n typeName : String}

instance : Decidable (Stands comparer ms name n) :=
  inferInstanceAs (Decidable (_ ∨ _ ∧ _))

theorem stands_congr (h : ∀ m, m ∈ ms ↔ m ∈ ms') :
    Stands comparer ms name n ↔ Stands comparer ms' name n := by
  simp only [Stands, h]

/-- The members that the name stands for. -/
def standing (comparer : NameComparer) (ms : List (Member σ)) (name : String) : List (Member σ) :=
  ms.filter fun m => decide (Stands comparer ms name m.name)

theorem named_map_snd (comparer : NameComparer) (ms : List (Member σ)) (name : String) :
    (named comparer ms name).map Prod.snd = standing comparer ms name := by
  obtain ⟨q, hq⟩ := exists_named_eq_filter comparer ms name
  have hfilter : (named comparer ms name).map Prod.snd = ms.filter fun m => q m.name := by
    conv_rhs => rw [← positioned_map_snd ms, List.filter_map]
    rw [hq]
    rfl
  rw [hfilter]
  refine List.filter_congr fun m hm => ?_
  obtain ⟨i, hi⟩ := exists_positioned hm
  have hmem : (i, m) ∈ named comparer ms name ↔ Stands comparer ms name m.name := by
    rw [mem_named]
    exact and_iff_right (mem_positioned.mp hi)
  rw [hq, List.mem_filter, and_iff_right hi] at hmem
  rw [Bool.eq_iff_iff, hmem, decide_eq_true_iff]

/-- The one member of the name, whatever its position. -/
def soleMember (typeName : String) (comparer : NameComparer) (ms : List (Member σ))
    (name : String) : Except MappingError (Member σ) :=
  match standing comparer ms name with
  | [] => .error (.memberNotFound (ownerLabel typeName ms) name)
  | m :: rest =>
    match rest.find? fun q => !(q == m) with
    | some q => .error (.ambiguousMember (ownerLabel typeName ms) m.name q.name
        (comparer.normalize name))
    | none => .ok m

/-- A search finds the sole member of the name, at some position. -/
theorem findMember_map_snd (typeName : String) (comparer : NameComparer) (ms : List (Member σ))
    (name : String) :
    (findMember typeName comparer ms name).map Prod.snd = soleMember typeName comparer ms name := by
  rw [findMember, soleMember, ← named_map_snd]
  cases named comparer ms name with
  | nil => rfl
  | cons p ps =>
    simp only [List.map_cons, List.find?_map, Function.comp_def]
    cases ps.find? fun q => !(q.2 == p.2) <;> rfl

end

/-! ## What is said of a name -/

/-- What the last of the directives that reach has to say. -/
def lastSay {α : Type} (reaches : Directive σ → Bool) (effect : Directive σ → α) (initial : α)
    (ds : List (Directive σ)) : α :=
  ds.foldl (fun a d => if reaches d then effect d else a) initial

theorem lastSay_cons {α : Type} (reaches : Directive σ → Bool) (effect : Directive σ → α)
    (initial : α) (d : Directive σ) (ds : List (Directive σ)) :
    lastSay reaches effect initial (d :: ds) =
      lastSay reaches effect (if reaches d then effect d else initial) ds :=
  rfl

/-- Nothing was said, or what was said stems from a directive that reaches. -/
theorem lastSay_cases {α : Type} (reaches : Directive σ → Bool) (effect : Directive σ → α)
    (initial : α) (ds : List (Directive σ)) :
    lastSay reaches effect initial ds = initial ∨
      ∃ d ∈ ds, reaches d = true ∧ lastSay reaches effect initial ds = effect d := by
  induction ds generalizing initial with
  | nil => exact .inl rfl
  | cons d ds ih =>
    rw [lastSay_cons]
    rcases ih (if reaches d then effect d else initial) with heq | ⟨e, he, hreach, heq⟩
    · by_cases hd : reaches d = true
      · exact .inr ⟨d, List.mem_cons_self, hd, by rw [heq, if_pos hd]⟩
      · exact .inl (by rw [heq, if_neg hd])
    · exact .inr ⟨e, List.mem_cons_of_mem _ he, hreach, heq⟩

/-- What each step changes by the say of its directive, a run changes by the last say. -/
theorem Replay.view_of_run {c : Configuration σ τ} {α : Type} (view : Replay σ → α)
    {reaches : Directive σ → Bool} {effect : Directive σ → α}
    (hstep : ∀ {d r r'}, Replay.step c r d = .ok r' →
      view r' = if reaches d then effect d else view r) :
    ∀ {ds : List (Directive σ)} {r r' : Replay σ}, run c r ds = .ok r' →
      view r' = lastSay reaches effect (view r) ds
  | [], _, _, h => by
    cases h
    rfl
  | d :: ds, r, r', h => by
    obtain ⟨r₁, h₁, h₂⟩ := Except.bind_eq_ok_iff.mp h
    rw [view_of_run view hstep h₂, hstep h₁]
    rfl

namespace Configuration

/-- The directive reaches source members called `n`. -/
def reachesSources (c : Configuration σ τ) (n : String) : Directive σ → Bool
  | .ignoreSource name | .reset name =>
    decide (Stands c.options.nameComparer c.sourceMembers name n)
  | .ignoreTarget _ | .bind _ _ => false

/-- The directive reaches target members called `n`: their first listing, or a later one. -/
def reachesTargets (c : Configuration σ τ) (n : String) (first : Bool) : Directive σ → Bool
  | .ignoreTarget name | .reset name =>
    decide (Stands c.options.nameComparer c.targetMembers name n)
  | .bind name _ => first && decide (Stands c.options.nameComparer c.targetMembers name n)
  | .ignoreSource _ => false

/-- The directives leave out source members called `n`. -/
def ignores (c : Configuration σ τ) (n : String) : Bool :=
  lastSay (c.reachesSources n) Directive.ignoresSource false c.directives

/-- What the directives leave of target members called `n`: of their first listing, or of a later
one. -/
def verdict (c : Configuration σ τ) (n : String) (first : Bool) : Treatment σ :=
  lastSay (c.reachesTargets n first) Directive.treatment .auto c.directives

/-- No member of the name is among those before. -/
def isFirst (before : List (Member τ)) (n : String) : Bool := before.all fun u => u.name != n

/-- The target members with the verdicts on them, after those before. -/
def judge (c : Configuration σ τ) : List (Member τ) → List (Member τ) → List (Treated σ τ)
  | _, [] => []
  | before, t :: ts => (t, c.verdict t.name (isFirst before t.name)) :: c.judge (before ++ [t]) ts

/-- The source members that the verdicts admit. -/
def acquitted (c : Configuration σ τ) : List (Member σ) :=
  c.sourceMembers.filter fun s => s.canRead && !c.ignores s.name

/-- The first fault among the names that overrides give. -/
def checkNames (c : Configuration σ τ) : List (Directive σ) → Except MappingError Unit
  | [] => .ok ()
  | .bind name _ :: ds =>
    (soleMember c.targetType c.options.nameComparer c.targetMembers name).bind fun _ =>
      c.checkNames ds
  | _ :: ds => c.checkNames ds

variable {c : Configuration σ τ} {r r' : Replay σ} {d : Directive σ} {n : String} {i : Nat}

theorem isFirst_iff {before : List (Member τ)} :
    isFirst before n = true ↔ ∀ u ∈ before, u.name ≠ n := by
  simp only [isFirst, List.all_eq_true, bne_iff_ne]

theorem isFirst_eq_false_iff {before : List (Member τ)} :
    isFirst before n = false ↔ ∃ u ∈ before, u.name = n := by
  rw [Bool.eq_false_iff, Ne, isFirst_iff]
  push Not
  rfl

/-! ### Laws of the verdicts -/

/-- What is ignored is not overridden. -/
theorem exclusive_verdict (c : Configuration σ τ) (n : String) (first : Bool) :
    (c.verdict n first).Exclusive := by
  rcases lastSay_cases (c.reachesTargets n first) Directive.treatment .auto c.directives with
    heq | ⟨d, -, -, heq⟩
  · rw [verdict, heq]
    exact fun _ => rfl
  · rw [verdict, heq]
    exact d.exclusive_treatment

/-- A later listing is never overridden. -/
theorem override?_verdict_later (c : Configuration σ τ) (n : String) :
    (c.verdict n false).override? = none := by
  rcases lastSay_cases (c.reachesTargets n false) Directive.treatment .auto c.directives with
    heq | ⟨d, -, hreach, heq⟩
  · rw [verdict, heq]
    rfl
  · rw [verdict, heq]
    cases d with
    | bind => cases hreach
    | ignoreSource | ignoreTarget | reset => rfl

/-- The first listing is treated as later ones are, unless it is overridden. -/
theorem verdict_first (c : Configuration σ τ) (n : String) :
    c.verdict n true = c.verdict n false ∨ ∃ b, c.verdict n true = .overridden b := by
  have hsay : ∀ (ds : List (Directive σ)) (t t' : Treatment σ),
      (t = t' ∨ ∃ b, t = .overridden b) →
      lastSay (c.reachesTargets n true) Directive.treatment t ds =
          lastSay (c.reachesTargets n false) Directive.treatment t' ds ∨
        ∃ b, lastSay (c.reachesTargets n true) Directive.treatment t ds = .overridden b := by
    intro ds
    induction ds with
    | nil => exact fun t t' h => h
    | cons d ds ih =>
      intro t t' h
      rw [lastSay_cons, lastSay_cons]
      refine ih _ _ ?_
      -- An override reaches the first listing alone, other directives both or neither.
      cases d with
      | ignoreSource name => exact h
      | ignoreTarget name | reset name =>
        by_cases hreach : Stands c.options.nameComparer c.targetMembers name n
        · exact .inl (by simp [reachesTargets, hreach])
        · simpa [reachesTargets, hreach] using h
      | bind name b =>
        by_cases hreach : Stands c.options.nameComparer c.targetMembers name n
        · exact .inr ⟨b, by simp [reachesTargets, hreach, Directive.treatment]⟩
        · simpa [reachesTargets, hreach] using h
  exact hsay _ _ _ (.inl rfl)

/-- Where the first listing is left to its name, all are. -/
theorem verdict_eq_auto (h : c.verdict n true = .auto) (first : Bool) :
    c.verdict n first = .auto := by
  cases first with
  | true => exact h
  | false =>
    rcases verdict_first c n with heq | ⟨b, hb⟩
    · rw [← heq, h]
    · cases h.symm.trans hb

/-- Where some listing is ignored, later ones are. -/
theorem isIgnored_verdict_later {first : Bool} (h : (c.verdict n first).isIgnored = true) :
    (c.verdict n false).isIgnored = true := by
  cases first with
  | false => exact h
  | true =>
    rcases verdict_first c n with heq | ⟨b, hb⟩
    · rwa [heq] at h
    · rw [hb] at h
      cases h

/-- An override stems from a directive whose name stands for the member. -/
theorem exists_bind_of_verdict {first : Bool} {b : Binding σ}
    (h : c.verdict n first = .overridden b) : ∃ name, .bind name b ∈ c.directives ∧
      Stands c.options.nameComparer c.targetMembers name n := by
  rcases lastSay_cases (c.reachesTargets n first) Directive.treatment .auto c.directives with
    heq | ⟨d, hd, hreach, heq⟩
  · rw [verdict, heq] at h
    cases h
  · rw [verdict, heq] at h
    cases d with
    | bind name b' =>
      cases h
      simp only [reachesTargets, Bool.and_eq_true, decide_eq_true_eq] at hreach
      exact ⟨name, hd, hreach.2⟩
    | ignoreSource | ignoreTarget | reset => cases h

/-! ### Judged lists -/

section

variable {before before' ts us : List (Member τ)}

/-- The verdicts on a list go on where the members before are known. -/
theorem judge_append (c : Configuration σ τ) (before ts us : List (Member τ)) :
    c.judge before (ts ++ us) = c.judge before ts ++ c.judge (before ++ ts) us := by
  induction ts generalizing before with
  | nil => rw [List.nil_append, List.append_nil, judge, List.nil_append]
  | cons t ts ih =>
    simp only [List.cons_append, judge, ih, List.append_assoc, List.nil_append]

theorem judge_congr {c' : Configuration σ τ} (h : c'.verdict = c.verdict) :
    c'.judge before ts = c.judge before ts := by
  induction ts generalizing before with
  | nil => rfl
  | cons t ts ih => rw [judge, judge, h, ih]

/-- It matters which members are before, not in which order or how often. -/
theorem judge_of_mem_iff (h : ∀ t, t ∈ before' ↔ t ∈ before) :
    c.judge before' ts = c.judge before ts := by
  induction ts generalizing before before' with
  | nil => rfl
  | cons t ts ih =>
    have hfirst : isFirst before' t.name = isFirst before t.name := by
      rw [Bool.eq_iff_iff, isFirst_iff, isFirst_iff]
      simp only [h]
    have hrest : c.judge (before' ++ [t]) ts = c.judge (before ++ [t]) ts :=
      ih fun u => by rw [List.mem_append, List.mem_append, h]
    rw [judge, judge, hfirst, hrest]

theorem mem_judge_of_split {t : Member τ} (h : ts = us ++ t :: before') :
    (t, c.verdict t.name (isFirst (before ++ us) t.name)) ∈ c.judge before ts := by
  rw [h, judge_append]
  exact List.mem_append_right _ List.mem_cons_self

/-- Each listing is judged by what is listed before it. -/
theorem exists_split_of_mem_judge {p : Treated σ τ} (h : p ∈ c.judge before ts) :
    ∃ us t vs, ts = us ++ t :: vs ∧ p = (t, c.verdict t.name (isFirst (before ++ us) t.name)) := by
  induction ts generalizing before with
  | nil => cases h
  | cons t ts ih =>
    rcases List.mem_cons.mp h with rfl | h
    · exact ⟨[], t, ts, rfl, by rw [List.append_nil]⟩
    · obtain ⟨us, u, vs, rfl, hp⟩ := ih h
      exact ⟨t :: us, u, vs, rfl, by rw [hp, List.append_assoc, List.singleton_append]⟩

end

/-! ### Replays give the verdicts -/

theorem reachesSource_iff {s : Member σ} (hs : c.sourceMembers[i]? = some s) :
    c.ReachesSource i d ↔ c.reachesSources s.name d = true := by
  cases d with
  | ignoreSource name | reset name =>
    rw [reachesSources, decide_eq_true_iff]
    exact ⟨fun h => h.stands hs, fun h => ⟨s, hs, h⟩⟩
  | ignoreTarget | bind => exact ⟨False.elim, nofun⟩

/-- A replay ignores the source members whose names are ignored. -/
theorem ignoresSource_of_replay (h : c.replay = .ok r) {s : Member σ}
    (hs : c.sourceMembers[i]? = some s) : r.ignoresSource i = c.ignores s.name := by
  refine Replay.view_of_run (fun r => r.ignoresSource i) (fun {d r r'} hstep => ?_) h
  split
  · next hreach => exact Replay.ignoresSource_of_reaches hstep ((reachesSource_iff hs).mpr hreach)
  · next hreach =>
    exact Replay.ignoresSource_of_unreached hstep fun h => hreach ((reachesSource_iff hs).mp h)

/-- Where an override succeeds, it reaches the first listing of a name that its own stands for. -/
theorem reachesTarget_iff (hstep : r.step c d = .ok r') {t : Member τ}
    (ht : c.targetMembers[i]? = some t) :
    c.ReachesTarget i d ↔
      c.reachesTargets t.name (isFirst (c.targetMembers.take i) t.name) d = true := by
  cases d with
  | ignoreSource => exact ⟨False.elim, nofun⟩
  | ignoreTarget name | reset name =>
    rw [reachesTargets, decide_eq_true_iff]
    exact ⟨fun h => h.stands ht, fun h => ⟨t, ht, h⟩⟩
  | bind name b =>
    obtain ⟨p, hp, -⟩ := Except.map_eq_ok_iff.mp hstep
    have hsame := (exists_findMember_iff.mp ⟨p, hp⟩).2
    rw [reachesTargets, Bool.and_eq_true, decide_eq_true_iff, isFirst_iff]
    constructor
    · intro h
      have hstands := h.1.stands ht
      refine ⟨fun u hu hname => ?_, hstands⟩
      obtain ⟨j, hj, hu⟩ := List.mem_take_iff_getElem.mp hu
      have hlisted : c.targetMembers[j]? = some u := hu ▸ List.getElem?_eq_getElem _
      exact h.2 j (Nat.lt_of_lt_of_le hj (Nat.min_le_left ..)) ⟨u, hlisted, hname ▸ hstands⟩
    · rintro ⟨hfirst, hstands⟩
      refine ⟨⟨t, ht, hstands⟩, fun j hj ⟨u, hu, hustands⟩ => ?_⟩
      have hbeq := hsame u (List.mem_of_getElem? hu) t (List.mem_of_getElem? ht) hustands hstands
      refine hfirst u ?_ (Member.name_eq_of_beq hbeq)
      rw [List.mem_iff_getElem?]
      exact ⟨j, by rw [List.getElem?_take_of_lt hj, hu]⟩

/-- A replay treats each target listing by the verdict on its name. -/
theorem treatment_of_replay (h : c.replay = .ok r) {t : Member τ}
    (ht : c.targetMembers[i]? = some t) :
    r.treatment i = c.verdict t.name (isFirst (c.targetMembers.take i) t.name) := by
  refine Replay.view_of_run (fun r => r.treatment i) (fun {d r r'} hstep => ?_) h
  split
  · next hreach =>
    exact Replay.treatment_of_reaches hstep ((reachesTarget_iff hstep ht).mpr hreach)
  · next hreach =>
    exact Replay.treatment_of_unreached hstep fun h => hreach ((reachesTarget_iff hstep ht).mp h)

/-- The source members that are admitted are those acquitted. -/
theorem admitted_of_replay (h : c.replay = .ok r) : c.admitted r = c.acquitted := by
  have hfilter : c.eligibleSources r =
      (positioned c.sourceMembers).filter fun p => p.2.canRead && !c.ignores p.2.name :=
    List.filter_congr fun p hp => by rw [ignoresSource_of_replay h (mem_positioned.mp hp)]
  rw [admitted, hfilter, acquitted]
  conv_rhs => rw [← positioned_map_snd c.sourceMembers, List.filter_map]
  rfl

/-- The target members as they are treated are those judged. -/
theorem treated_of_replay (h : c.replay = .ok r) : c.treated r = c.judge [] c.targetMembers := by
  have hsuffix : ∀ {before rest : List (Member τ)}, c.targetMembers = before ++ rest →
      (rest.zipIdx before.length).map (fun p => r.treated (p.2, p.1)) = c.judge before rest := by
    intro before rest
    induction rest generalizing before with
    | nil => exact fun _ => rfl
    | cons t rest ih =>
      intro hsplit
      have ht : c.targetMembers[before.length]? = some t := by simp [hsplit]
      have hrest := @ih (before ++ [t]) (by simp [hsplit])
      rw [List.length_append, List.length_singleton] at hrest
      have htake : c.targetMembers.take before.length = before := by simp [hsplit]
      rw [List.zipIdx_cons, List.map_cons, hrest, judge, Replay.treated, treatment_of_replay h ht,
        htake]
  rw [treated, positioned, List.map_map]
  exact hsuffix (List.nil_append _).symm

/-- A run of directives fails just as the check of the names of its overrides. -/
theorem run_eq_checkNames (c : Configuration σ τ) (r : Replay σ) (ds : List (Directive σ)) :
    (Replay.run c r ds).map (fun _ => ()) = c.checkNames ds := by
  induction ds generalizing r with
  | nil => rfl
  | cons d ds ih =>
    cases d with
    | ignoreSource | ignoreTarget | reset => exact ih _
    | bind name b =>
      rw [Replay.run, Replay.step, checkNames, ← findMember_map_snd]
      simp only [Except.bind_map, Except.map_bind, ih]

/-- Validation depends on the lists of members and the verdicts on their names. -/
theorem validate_eq_settle_judged (c : Configuration σ τ) :
    c.validate = (c.checkNames c.directives).bind fun _ =>
      c.settle c.acquitted (c.judge [] c.targetMembers) := by
  rw [validate_eq_settle, ← run_eq_checkNames c .start, Except.bind_map]
  cases h : c.replay with
  | error e =>
    rw [replay] at h
    rw [h]
    rfl
  | ok r =>
    have hsettle := congrArg₂ c.settle (admitted_of_replay h) (treated_of_replay h)
    rw [replay] at h
    rw [h]
    exact hsettle

/-! ## Other lists of members -/

/-- The configuration over other lists of members. -/
def relist (c : Configuration σ τ) (sources : List (Member σ)) (targets : List (Member τ)) :
    Configuration σ τ :=
  { c with sourceMembers := sources, targetMembers := targets }

variable {sources : List (Member σ)} {targets : List (Member τ)}

theorem ignores_relist (h : ∀ s, s ∈ sources ↔ s ∈ c.sourceMembers) :
    (c.relist sources targets).ignores = c.ignores := by
  funext n
  have hreaches : (c.relist sources targets).reachesSources n = c.reachesSources n := by
    funext d
    cases d with
    | ignoreSource | reset => exact decide_eq_decide.mpr (stands_congr h)
    | ignoreTarget | bind => rfl
  rw [ignores, ignores, hreaches]
  rfl

theorem verdict_relist (h : ∀ t, t ∈ targets ↔ t ∈ c.targetMembers) :
    (c.relist sources targets).verdict = c.verdict := by
  funext n first
  have hreaches : (c.relist sources targets).reachesTargets n first = c.reachesTargets n first := by
    funext d
    cases d with
    | ignoreTarget | reset => exact decide_eq_decide.mpr (stands_congr h)
    | bind => exact congrArg (first && ·) (decide_eq_decide.mpr (stands_congr h))
    | ignoreSource => rfl
  rw [verdict, verdict, hreaches]
  rfl

end Configuration

end Crosswalk
