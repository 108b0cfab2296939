import Crosswalk.Proofs.Locality

/-!
# The last directive decides

A name stands for the members of exactly that name, where there are any, and otherwise for those
of the same name under the comparer (`Stands`). Ignoring and resetting reach every member that the
name stands for, an override the first of them only. What a directive reaches it puts into the one
collection and takes out of the other as it says, and leaves the rest of both as it was
(`Replay.treatment_of_reaches`, `Replay.treatment_of_unreached`), so the last directive that reaches
a member decides what becomes of it, and a member is never both ignored and overridden
(`Replay.lastWins_of_replay`). A replay fails at the first override whose name does not
lead to one member (`Replay.run_eq_error_iff`).
-/

namespace Crosswalk

variable {σ τ : Type}

/-! ## What a name stands for -/

section

variable {comparer : NameComparer} {ms : List (Member σ)} {name typeName : String} {i : Nat}

/-- The name stands for members called `n`: exactly, or under the comparer where no member has
exactly the name. -/
def Stands (comparer : NameComparer) (ms : List (Member σ)) (name n : String) : Prop :=
  n = name ∨ (∀ m ∈ ms, m.name ≠ name) ∧ comparer.normalize n = comparer.normalize name

/-- The name stands for the member at the position. -/
def Called (comparer : NameComparer) (ms : List (Member σ)) (name : String) (i : Nat) : Prop :=
  ∃ m, ms[i]? = some m ∧ Stands comparer ms name m.name

theorem Called.stands (h : Called comparer ms name i) {m : Member σ} (hm : ms[i]? = some m) :
    Stands comparer ms name m.name := by
  obtain ⟨m', hm', hstands⟩ := h
  rwa [Option.some_inj.mp (hm.symm.trans hm')]

/-- A name that some member has stands for it alone. -/
theorem stands_iff_of_mem {m : Member σ} (hm : m ∈ ms) (hname : m.name = name) {n : String} :
    Stands comparer ms name n ↔ n = name :=
  ⟨fun h => h.elim id fun ⟨hnone, _⟩ => absurd hname (hnone m hm), .inl⟩

theorem mem_named {p : Positioned σ} :
    p ∈ named comparer ms name ↔ ms[p.1]? = some p.2 ∧ Stands comparer ms name p.2.name := by
  by_cases hexact : ∃ m ∈ ms, m.name = name
  · obtain ⟨m, hm, hname⟩ := hexact
    obtain ⟨i, hi⟩ := exists_positioned hm
    have hsome : ((positioned ms).filter fun p => p.2.name == name).isEmpty = false := by
      rw [List.isEmpty_eq_false_iff_exists_mem]
      exact ⟨(i, m), List.mem_filter.mpr ⟨hi, beq_iff_eq.mpr hname⟩⟩
    rw [stands_iff_of_mem hm hname, named, hsome, if_neg Bool.false_ne_true, List.mem_filter,
      mem_positioned, beq_iff_eq]
  · have hnone : ∀ m ∈ ms, m.name ≠ name := fun m hm hname => hexact ⟨m, hm, hname⟩
    have hempty : ((positioned ms).filter fun p => p.2.name == name).isEmpty = true := by
      rw [List.isEmpty_iff, List.filter_eq_nil_iff]
      intro p hp
      simpa using hnone p.2 (mem_of_positioned hp)
    rw [named, hempty, if_pos rfl, List.mem_filter, mem_positioned, beq_iff_eq]
    refine and_congr_right fun hlisted => ⟨fun hkey => .inr ⟨hnone, hkey⟩, fun h => ?_⟩
    exact h.elim (fun hname => absurd hname (hnone _ (List.mem_of_getElem? hlisted))) And.right

/-- The positions of a name are those of the members that are called. -/
theorem mem_positionsOf : i ∈ positionsOf comparer ms name ↔ Called comparer ms name i := by
  simp only [positionsOf, List.mem_map, mem_named, Called, Prod.exists, exists_and_right,
    exists_eq_right]

theorem pairwise_named (comparer : NameComparer) (ms : List (Member σ)) (name : String) :
    (named comparer ms name).Pairwise fun p q => p.1 < q.1 := by
  obtain ⟨q, hq⟩ := exists_named_eq_filter comparer ms name
  rw [hq]
  exact (pairwise_positioned ms).filter _

/-- The name stands for no member before the position. -/
def FirstCalled (comparer : NameComparer) (ms : List (Member σ)) (name : String) (i : Nat) : Prop :=
  Called comparer ms name i ∧ ∀ j < i, ¬Called comparer ms name j

theorem FirstCalled.eq {j : Nat} (hi : FirstCalled comparer ms name i)
    (hj : FirstCalled comparer ms name j) : i = j := by
  rcases Nat.lt_trichotomy i j with hlt | heq | hlt
  · exact absurd hi.1 (hj.2 i hlt)
  · exact heq
  · exact absurd hj.1 (hi.2 j hlt)

/-- The member at the head of those of a name is the first that the name stands for. -/
theorem firstCalled_of_named {p : Positioned σ} {ps : List (Positioned σ)}
    (h : named comparer ms name = p :: ps) :
    ms[p.1]? = some p.2 ∧ FirstCalled comparer ms name p.1 := by
  have hp : p ∈ named comparer ms name := h ▸ List.mem_cons_self
  obtain ⟨hlisted, hstands⟩ := mem_named.mp hp
  refine ⟨hlisted, ⟨p.2, hlisted, hstands⟩, fun j hj ⟨m, hm, hstands'⟩ => ?_⟩
  have hmem : (j, m) ∈ p :: ps := h ▸ mem_named.mpr ⟨hm, hstands'⟩
  have hlt := pairwise_named comparer ms name
  rw [h, List.pairwise_cons] at hlt
  rcases List.mem_cons.mp hmem with rfl | hmem
  · exact Nat.lt_irrefl _ hj
  · exact Nat.lt_asymm hj (hlt.1 _ hmem)

/-- Why a name does not lead to one member. -/
inductive Misnamed (typeName : String) (comparer : NameComparer) (ms : List (Member σ))
    (name : String) : MappingError → Prop
  /-- It stands for none. -/
  | missing (h : ∀ i, ¬Called comparer ms name i) :
      Misnamed typeName comparer ms name (.memberNotFound (ownerLabel typeName ms) name)
  /-- It stands for different members: the first of all, and the first that differs from it. -/
  | ambiguous {i j a b} (hi : FirstCalled comparer ms name i) (ha : ms[i]? = some a)
      (hj : Called comparer ms name j) (hb : ms[j]? = some b) (hdiffer : (b == a) = false)
      (hfirst : ∀ k < j, Called comparer ms name k → ∀ m, ms[k]? = some m → (m == a) = true) :
      Misnamed typeName comparer ms name
        (.ambiguousMember (ownerLabel typeName ms) a.name b.name (comparer.normalize name))

/-- A search fails because no member is called, or because two are that differ. -/
theorem misnamed_of_findMember {e : MappingError}
    (h : findMember typeName comparer ms name = .error e) :
    Misnamed typeName comparer ms name e := by
  unfold findMember at h
  split at h
  · next hnamed =>
    cases h
    refine .missing fun i ⟨m, hm, hstands⟩ => ?_
    have hmem : (i, m) ∈ named comparer ms name := mem_named.mpr ⟨hm, hstands⟩
    rw [hnamed] at hmem
    cases hmem
  · next p ps hnamed =>
    split at h
    · next q hq =>
      cases h
      obtain ⟨hp, hfirst⟩ := firstCalled_of_named hnamed
      have hdiffer := List.find?_some hq
      obtain ⟨-, before, after, hps, hbefore⟩ := List.find?_eq_some_iff_append.mp hq
      have hqmem : q ∈ named comparer ms name := by
        rw [hnamed, hps]
        simp
      obtain ⟨hlisted, hstands⟩ := mem_named.mp hqmem
      refine .ambiguous hfirst hp ⟨q.2, hlisted, hstands⟩ hlisted (by simpa using hdiffer) ?_
      -- A listing before `q` that the name stands for is `p` or stands between the two.
      rintro k hk ⟨m, hm, hstands'⟩ m' hm'
      obtain rfl : m = m' := Option.some_inj.mp (hm.symm.trans hm')
      have hmem : (k, m) ∈ named comparer ms name := mem_named.mpr ⟨hm, hstands'⟩
      have hlt := pairwise_named comparer ms name
      rw [hnamed, hps] at hmem hlt
      rcases List.mem_cons.mp hmem with rfl | hmem
      · exact BEq.rfl
      · rcases List.mem_append.mp hmem with hmem | hmem
        · simpa using hbefore _ hmem
        · have hnot : ¬k < q.1 := by
            have hlt' := (List.pairwise_append.mp (List.pairwise_cons.mp hlt).2).2.1
            rcases List.mem_cons.mp hmem with rfl | hmem
            · exact Nat.lt_irrefl _
            · exact Nat.lt_asymm ((List.pairwise_cons.mp hlt').1 _ hmem)
          exact absurd hk hnot
    · cases h

/-- A search that succeeds finds the first member that is called. -/
theorem firstCalled_of_findMember {p : Positioned σ}
    (h : findMember typeName comparer ms name = .ok p) :
    ms[p.1]? = some p.2 ∧ FirstCalled comparer ms name p.1 := by
  obtain ⟨ps, hnamed, -⟩ := named_eq_cons_of_findMember h
  exact firstCalled_of_named hnamed

/-- A name that leads to one member stands for listings of that member only. -/
theorem beq_of_stands {p : Positioned σ} (h : findMember typeName comparer ms name = .ok p)
    {m : Member σ} (hm : m ∈ ms) (hstands : Stands comparer ms name m.name) :
    (m == p.2) = true := by
  obtain ⟨ps, hnamed, hsame⟩ := named_eq_cons_of_findMember h
  obtain ⟨i, hi⟩ := exists_positioned hm
  have hmem : (i, m) ∈ named comparer ms name := mem_named.mpr ⟨mem_positioned.mp hi, hstands⟩
  rw [hnamed] at hmem
  rcases List.mem_cons.mp hmem with rfl | hmem
  · exact BEq.rfl
  · exact hsame _ hmem

/-- A name leads to one member just when it stands for some member, and for no other. -/
theorem exists_findMember_iff : (∃ p, findMember typeName comparer ms name = .ok p) ↔
    (∃ m ∈ ms, Stands comparer ms name m.name) ∧ ∀ a ∈ ms, ∀ b ∈ ms,
      Stands comparer ms name a.name → Stands comparer ms name b.name → (a == b) = true := by
  constructor
  · rintro ⟨p, hp⟩
    obtain ⟨hlisted, ⟨m, hm, hstands⟩, -⟩ := firstCalled_of_findMember hp
    refine ⟨⟨m, List.mem_of_getElem? hm, hstands⟩, fun a ha b hb hastands hbstands => ?_⟩
    exact BEq.trans (beq_of_stands hp ha hastands) (BEq.symm (beq_of_stands hp hb hbstands))
  · rintro ⟨⟨m, hm, hstands⟩, hsame⟩
    cases h : findMember typeName comparer ms name with
    | ok p => exact ⟨p, rfl⟩
    | error e =>
      cases misnamed_of_findMember h with
      | missing hnone =>
        obtain ⟨i, hi⟩ := List.mem_iff_getElem?.mp hm
        exact absurd ⟨m, hi, hstands⟩ (hnone i)
      | ambiguous hi ha hj hb hdiffer _ =>
        rw [hsame _ (List.mem_of_getElem? hb) _ (List.mem_of_getElem? ha) (hj.stands hb)
          (hi.1.stands ha)] at hdiffer
        cases hdiffer

/-- There is one fault at most. -/
theorem Misnamed.unique {e e' : MappingError} (h : Misnamed typeName comparer ms name e)
    (h' : Misnamed typeName comparer ms name e') : e = e' := by
  cases h with
  | missing hnone =>
    cases h' with
    | missing => rfl
    | ambiguous hi => exact absurd hi.1 (hnone _)
  | @ambiguous i j a b hi ha hj hb hdiffer hfirst =>
    cases h' with
    | missing hnone => exact absurd hi.1 (hnone _)
    | @ambiguous i' j' a' b' hi' ha' hj' hb' hdiffer' hfirst' =>
      obtain rfl := hi.eq hi'
      obtain rfl := Option.some_inj.mp (ha.symm.trans ha')
      have hj : j = j' := by
        rcases Nat.lt_trichotomy j j' with hlt | heq | hlt
        · rw [hfirst' j hlt hj b hb] at hdiffer
          cases hdiffer
        · exact heq
        · rw [hfirst j' hlt hj' b' hb'] at hdiffer'
          cases hdiffer'
      subst hj
      obtain rfl := Option.some_inj.mp (hb.symm.trans hb')
      rfl

/-- A search fails just as the name is misnamed. -/
theorem findMember_eq_error_iff {e : MappingError} :
    findMember typeName comparer ms name = .error e ↔ Misnamed typeName comparer ms name e := by
  refine ⟨misnamed_of_findMember, fun h => ?_⟩
  cases hfind : findMember typeName comparer ms name with
  | error e' => rw [(misnamed_of_findMember hfind).unique h]
  | ok p =>
    cases h with
    | missing hnone => exact absurd (firstCalled_of_findMember hfind).2.1 (hnone _)
    | ambiguous hi ha hj hb hdiffer _ =>
      have hsame := (exists_findMember_iff.mp ⟨p, hfind⟩).2
      rw [hsame _ (List.mem_of_getElem? hb) _ (List.mem_of_getElem? ha) (hj.stands hb)
        (hi.1.stands ha)] at hdiffer
      cases hdiffer

end

/-! ## What a directive reaches -/

/-- The name that the directive gives. -/
def Directive.name : Directive σ → String
  | .ignoreSource name | .ignoreTarget name | .bind name _ | .reset name => name

/-- What the directive has both collections hold of the target positions that it reaches. -/
def Directive.treatment : Directive σ → Treatment σ
  | .ignoreTarget _ => .ignored
  | .bind _ b => .overridden b
  | .ignoreSource _ | .reset _ => .auto

/-- The directive leaves out the source members that it reaches. -/
def Directive.ignoresSource : Directive σ → Bool
  | .ignoreSource _ => true
  | .ignoreTarget _ | .bind _ _ | .reset _ => false

/-- No directive both ignores and overrides. -/
theorem Directive.exclusive_treatment (d : Directive σ) : d.treatment.Exclusive := by
  intro hignored
  cases d with
  | bind => cases hignored
  | ignoreSource | ignoreTarget | reset => rfl

theorem Directive.isIgnored_treatment_iff {d : Directive σ} :
    d.treatment.isIgnored = true ↔ ∃ name, d = .ignoreTarget name := by
  cases d <;>
    simp [Directive.treatment, Treatment.auto, Treatment.ignored, Treatment.overridden]

theorem Directive.override?_treatment_iff {d : Directive σ} {b : Binding σ} :
    d.treatment.override? = some b ↔ ∃ name, d = .bind name b := by
  cases d <;>
    simp [Directive.treatment, Treatment.auto, Treatment.ignored, Treatment.overridden]

theorem Directive.ignoresSource_iff {d : Directive σ} :
    d.ignoresSource = true ↔ ∃ name, d = .ignoreSource name := by
  cases d <;> simp [Directive.ignoresSource]

namespace Configuration

variable {c : Configuration σ τ}

/-- The directive reaches the source member at the position. -/
def ReachesSource (c : Configuration σ τ) (i : Nat) : Directive σ → Prop
  | .ignoreSource name | .reset name => Called c.options.nameComparer c.sourceMembers name i
  | .ignoreTarget _ | .bind _ _ => False

/-- The directive reaches the target member at the position: an override the first of its name
only. -/
def ReachesTarget (c : Configuration σ τ) (i : Nat) : Directive σ → Prop
  | .ignoreTarget name | .reset name => Called c.options.nameComparer c.targetMembers name i
  | .bind name _ => FirstCalled c.options.nameComparer c.targetMembers name i
  | .ignoreSource _ => False

/-- The name does not lead to one target member. -/
def MisnamedTarget (c : Configuration σ τ) (name : String) (e : MappingError) : Prop :=
  Misnamed c.targetType c.options.nameComparer c.targetMembers name e

/-- The name stands for no target member, or for two that differ. -/
def Unbindable (c : Configuration σ τ) (name : String) : Prop :=
  (∀ t ∈ c.targetMembers, ¬Stands c.options.nameComparer c.targetMembers name t.name) ∨
    ∃ t ∈ c.targetMembers, ∃ u ∈ c.targetMembers,
      Stands c.options.nameComparer c.targetMembers name t.name ∧
      Stands c.options.nameComparer c.targetMembers name u.name ∧ (t == u) = false

/-- A name can be bound just when the search for it succeeds. -/
theorem not_unbindable_iff {name : String} : ¬c.Unbindable name ↔
    ∃ p, findMember c.targetType c.options.nameComparer c.targetMembers name = .ok p := by
  rw [exists_findMember_iff, Unbindable]
  push Not
  simp only [Bool.not_eq_false, ne_eq]

end Configuration

namespace Replay

variable {c : Configuration σ τ} {r r' : Replay σ} {d : Directive σ} {i : Nat}

/-- A directive gives the targets that it reaches its treatment. -/
theorem treatment_of_reaches (h : r.step c d = .ok r') (hi : c.ReachesTarget i d) :
    r'.treatment i = d.treatment := by
  cases d with
  | ignoreSource name => exact hi.elim
  | ignoreTarget name =>
    cases h
    exact (treatment_ignore ..).trans (if_pos (mem_positionsOf.mpr hi))
  | reset name =>
    cases h
    exact (treatment_reset ..).trans (if_pos (mem_positionsOf.mpr hi))
  | bind name b =>
    obtain ⟨p, hp, rfl⟩ := Except.map_eq_ok_iff.mp h
    obtain rfl := FirstCalled.eq hi (firstCalled_of_findMember hp).2
    exact (treatment_override ..).trans (if_pos rfl)

/-- A directive leaves the targets that it does not reach as they were. -/
theorem treatment_of_unreached (h : r.step c d = .ok r') (hi : ¬c.ReachesTarget i d) :
    r'.treatment i = r.treatment i := by
  cases d with
  | ignoreSource name =>
    cases h
    rfl
  | ignoreTarget name =>
    cases h
    exact (treatment_ignore ..).trans (if_neg fun hmem => hi (mem_positionsOf.mp hmem))
  | reset name =>
    cases h
    exact (treatment_reset ..).trans (if_neg fun hmem => hi (mem_positionsOf.mp hmem))
  | bind name b =>
    obtain ⟨p, hp, rfl⟩ := Except.map_eq_ok_iff.mp h
    refine (treatment_override ..).trans (if_neg fun heq => hi ?_)
    rw [heq]
    exact (firstCalled_of_findMember hp).2

/-- A directive that reaches a source ignores it or admits it. -/
theorem ignoresSource_of_reaches (h : r.step c d = .ok r') (hi : c.ReachesSource i d) :
    r'.ignoresSource i = d.ignoresSource := by
  cases d with
  | ignoreSource name =>
    cases h
    have hmem : i ∈ c.sourcePositions name := mem_positionsOf.mpr hi
    rw [ignoresSource_ignoreSources, decide_eq_true hmem, Bool.true_or, Directive.ignoresSource]
  | reset name =>
    cases h
    have hmem : i ∈ c.sourcePositions name := mem_positionsOf.mpr hi
    show (r.admitSources _).ignoresSource i = _
    rw [ignoresSource_admitSources, decide_eq_true hmem, Bool.not_true, Bool.false_and,
      Directive.ignoresSource]
  | ignoreTarget | bind => exact hi.elim

/-- A directive leaves the sources that it does not reach as they were. -/
theorem ignoresSource_of_unreached (h : r.step c d = .ok r') (hi : ¬c.ReachesSource i d) :
    r'.ignoresSource i = r.ignoresSource i := by
  refine ignoresSource_of_step h fun hmem => hi ?_
  cases d with
  | ignoreSource name | reset name => exact mem_positionsOf.mp hmem
  | ignoreTarget | bind => cases hmem

/-- A directive with the name of some source member leaves those of other names. -/
theorem ignoresSource_of_exact (h : r.step c d = .ok r') {s u : Member σ}
    (hs : s ∈ c.sourceMembers) (hname : s.name = d.name) (hu : c.sourceMembers[i]? = some u)
    (hother : u.name ≠ d.name) : r'.ignoresSource i = r.ignoresSource i := by
  refine ignoresSource_of_unreached h fun hreach => hother ?_
  cases d with
  | ignoreSource name | reset name => exact (stands_iff_of_mem hs hname).mp (hreach.stands hu)
  | ignoreTarget | bind => exact hreach.elim

/-- A directive with the name of some target member leaves those of other names. -/
theorem treatment_of_exact (h : r.step c d = .ok r') {t u : Member τ} (ht : t ∈ c.targetMembers)
    (hname : t.name = d.name) (hu : c.targetMembers[i]? = some u) (hother : u.name ≠ d.name) :
    r'.treatment i = r.treatment i := by
  refine treatment_of_unreached h fun hreach => hother ?_
  cases d with
  | ignoreTarget name | reset name => exact (stands_iff_of_mem ht hname).mp (hreach.stands hu)
  | bind name b => exact (stands_iff_of_mem ht hname).mp (hreach.1.stands hu)
  | ignoreSource => exact hreach.elim

end Replay

/-! ## Runs of directives -/

/-- The last of the directives that reach is `d`. -/
def LastReaching (reaches : Directive σ → Prop) (ds : List (Directive σ)) (d : Directive σ) :
    Prop :=
  ∃ before after, ds = before ++ d :: after ∧ reaches d ∧ ∀ e ∈ after, ¬reaches e

/-- Some directive is the last to reach, or none reaches. -/
theorem exists_lastReaching_or_none (reaches : Directive σ → Prop) (ds : List (Directive σ)) :
    (∃ d, LastReaching reaches ds d) ∨ ∀ d ∈ ds, ¬reaches d := by
  induction ds with
  | nil => exact .inr (List.forall_mem_nil _)
  | cons d ds ih =>
    rcases ih with ⟨d', before, after, rfl, hlast⟩ | hnone
    · exact .inl ⟨d', d :: before, after, rfl, hlast⟩
    · by_cases hd : reaches d
      · exact .inl ⟨d, [], ds, rfl, hd, hnone⟩
      · exact .inr (List.forall_mem_cons.mpr ⟨hd, hnone⟩)

namespace Replay

variable {c : Configuration σ τ} {r r' : Replay σ} {ds : List (Directive σ)} {d : Directive σ}
  {i : Nat}

/-- What no directive reaches, a run leaves as it was. -/
theorem view_of_run_unreached {α : Type} (view : Replay σ → α) {reaches : Directive σ → Prop}
    (hunreached : ∀ {d r r'}, Replay.step c r d = .ok r' → ¬reaches d → view r' = view r)
    (h : run c r ds = .ok r') (hnone : ∀ d ∈ ds, ¬reaches d) : view r' = view r := by
  refine run_induction (I := fun r' => view r' = view r) rfl (fun d hd r₁ r₂ hr hstep => ?_) h
  rw [hunreached hstep (hnone d hd), hr]

/-- What does not hold at first holds after a run just when the last directive that reaches brings
it about. The one argument serves the treatments and the ignored source members. -/
theorem view_of_run_iff {α : Type} (view : Replay σ → α) (P : α → Prop)
    {reaches : Directive σ → Prop} {effect : Directive σ → α}
    (hreaches : ∀ {d r r'}, Replay.step c r d = .ok r' → reaches d → view r' = effect d)
    (hunreached : ∀ {d r r'}, Replay.step c r d = .ok r' → ¬reaches d → view r' = view r)
    (h : run c r ds = .ok r') (hfirst : ¬P (view r)) :
    P (view r') ↔ ∃ d, LastReaching reaches ds d ∧ P (effect d) := by
  have hlast : ∀ d, LastReaching reaches ds d → view r' = effect d := by
    rintro d ⟨before, after, rfl, hd, hafter⟩
    rw [run_append] at h
    obtain ⟨r₁, -, h⟩ := Except.bind_eq_ok_iff.mp h
    obtain ⟨r₂, hstep, h⟩ := Except.bind_eq_ok_iff.mp h
    rw [view_of_run_unreached view hunreached h hafter, hreaches hstep hd]
  constructor
  · intro hP
    rcases exists_lastReaching_or_none reaches ds with ⟨d, hd⟩ | hnone
    · exact ⟨d, hd, hlast d hd ▸ hP⟩
    · rw [view_of_run_unreached view hunreached h hnone] at hP
      exact absurd hP hfirst
  · rintro ⟨d, hd, hP⟩
    rwa [hlast d hd]

/-- What becomes of a member is what the last directive that reaches it says. -/
structure LastWins (c : Configuration σ τ) (r : Replay σ) : Prop where
  ignoredTarget : ∀ i, r.ignoresTarget i = true ↔
    ∃ name, LastReaching (c.ReachesTarget i) c.directives (.ignoreTarget name)
  overridden : ∀ i b, r.override? i = some b ↔
    ∃ name, LastReaching (c.ReachesTarget i) c.directives (.bind name b)
  exclusive : ∀ i, ¬(r.ignoresTarget i = true ∧ (r.override? i).isSome = true)
  ignoredSource : ∀ i, r.ignoresSource i = true ↔
    ∃ name, LastReaching (c.ReachesSource i) c.directives (.ignoreSource name)

theorem lastWins_of_replay (h : c.replay = .ok r) : r.LastWins c where
  ignoredTarget i := by
    have hlast := view_of_run_iff (fun r => r.treatment i) (fun t => t.isIgnored = true)
      treatment_of_reaches treatment_of_unreached h nofun
    simp only [Directive.isIgnored_treatment_iff, ↓existsAndEq, and_true] at hlast
    exact hlast
  overridden i b := by
    have hlast := view_of_run_iff (fun r => r.treatment i) (fun t => t.override? = some b)
      treatment_of_reaches treatment_of_unreached h nofun
    simp only [Directive.override?_treatment_iff, ↓existsAndEq, and_true] at hlast
    exact hlast
  exclusive i := by
    rintro ⟨hignored, hover⟩
    have hnone : r.override? i = none := (Configuration.regular_of_replay h).exclusive i hignored
    rw [hnone] at hover
    cases hover
  ignoredSource i := by
    have hlast := view_of_run_iff (fun r => r.ignoresSource i) (fun ignored => ignored = true)
      ignoresSource_of_reaches ignoresSource_of_unreached h nofun
    simpa only [Directive.ignoresSource_iff, ↓existsAndEq, and_true] using hlast

/-! ## Failing runs -/

theorem step_eq_error_iff {e : MappingError} : r.step c d = .error e ↔
    ∃ name b, d = .bind name b ∧ c.MisnamedTarget name e := by
  cases d with
  | bind name b =>
    simp [step, Except.map_eq_error_iff, findMember_eq_error_iff, Configuration.MisnamedTarget]
  | ignoreSource | ignoreTarget | reset => simp [step]

/-- Only an override can fail, and only by its name. -/
theorem exists_step_iff : (∃ r', r.step c d = .ok r') ↔
    ∀ name b, d = .bind name b → ¬c.Unbindable name := by
  cases d with
  | bind name b => simp [step, Except.map_eq_ok_iff, Configuration.not_unbindable_iff]
  | ignoreSource | ignoreTarget | reset => simp [step]

/-- A run succeeds just when the name of each override leads to one target member. -/
theorem exists_run_iff : (∃ r', run c r ds = .ok r') ↔
    ∀ name b, .bind name b ∈ ds → ¬c.Unbindable name := by
  induction ds generalizing r with
  | nil => simp [run]
  | cons d ds ih =>
    simp only [run, Except.bind_eq_ok_iff]
    constructor
    · rintro ⟨r', r₁, hstep, hrun⟩ name b hmem
      rcases List.mem_cons.mp hmem with heq | hmem
      · exact exists_step_iff.mp ⟨r₁, hstep⟩ name b heq.symm
      · exact ih.mp ⟨r', hrun⟩ name b hmem
    · intro hnamed
      obtain ⟨r₁, hstep⟩ := (exists_step_iff (r := r)).mpr fun name b heq =>
        hnamed name b (heq ▸ List.mem_cons_self)
      obtain ⟨r', hrun⟩ := (ih (r := r₁)).mpr fun name b hmem =>
        hnamed name b (List.mem_cons_of_mem _ hmem)
      exact ⟨r', r₁, hstep, hrun⟩

/-- A run fails at the first override whose name does not lead to one target member. -/
theorem run_eq_error_iff {e : MappingError} : run c r ds = .error e ↔
    ∃ before name b after, ds = before ++ .bind name b :: after ∧
      (∀ name' b', .bind name' b' ∈ before → ¬c.Unbindable name') ∧ c.MisnamedTarget name e := by
  induction ds generalizing r with
  | nil => simp [run]
  | cons d ds ih =>
    rw [run, Except.bind_eq_error_iff, step_eq_error_iff]
    constructor
    · rintro (⟨name, b, rfl, hfault⟩ | ⟨r₁, hstep, hrun⟩)
      · exact ⟨[], name, b, ds, rfl, by simp, hfault⟩
      · obtain ⟨before, name, b, after, rfl, hbefore, hfault⟩ := ih.mp hrun
        refine ⟨d :: before, name, b, after, rfl, fun name' b' hmem => ?_, hfault⟩
        rcases List.mem_cons.mp hmem with heq | hmem
        · exact exists_step_iff.mp ⟨r₁, hstep⟩ name' b' heq.symm
        · exact hbefore name' b' hmem
    · rintro ⟨before, name, b, after, hds, hbefore, hfault⟩
      cases before with
      | nil =>
        obtain ⟨rfl, -⟩ := List.cons.inj hds
        exact .inl ⟨name, b, rfl, hfault⟩
      | cons d' before =>
        obtain ⟨rfl, rfl⟩ := List.cons.inj hds
        obtain ⟨r₁, hstep⟩ := (exists_step_iff (r := r)).mpr fun name' b' heq =>
          hbefore name' b' (heq ▸ List.mem_cons_self)
        refine .inr ⟨r₁, hstep, ih.mpr ⟨before, name, b, after, rfl, ?_, hfault⟩⟩
        exact fun name' b' hmem => hbefore name' b' (List.mem_cons_of_mem _ hmem)

end Replay

namespace Configuration

/-- The last directive that reaches a member decides what becomes of it, whatever came before. The
replay fails just when some override names no target member or different ones, at the first such,
whatever comes after it. Where some member has the name of a directive, the directive leaves all
members of that side with other names as they were. -/
theorem replay_lastWins (c : Configuration σ τ) :
    (∀ r, c.replay = .ok r → r.LastWins c) ∧
    ((∃ e, c.replay = .error e) ↔ ∃ name b, .bind name b ∈ c.directives ∧ c.Unbindable name) ∧
    (∀ e, c.replay = .error e ↔ ∃ before name b after,
      c.directives = before ++ .bind name b :: after ∧
      (∀ name' b', .bind name' b' ∈ before → ¬c.Unbindable name') ∧ c.MisnamedTarget name e) ∧
    ∀ (d : Directive σ) (r r' : Replay σ), r.step c d = .ok r' →
      ((∃ s ∈ c.sourceMembers, s.name = d.name) → ∀ i s, c.sourceMembers[i]? = some s →
        s.name ≠ d.name → r'.ignoresSource i = r.ignoresSource i) ∧
      ((∃ t ∈ c.targetMembers, t.name = d.name) → ∀ i t, c.targetMembers[i]? = some t →
        t.name ≠ d.name →
        r'.ignoresTarget i = r.ignoresTarget i ∧ r'.override? i = r.override? i) := by
  refine ⟨fun r hr => Replay.lastWins_of_replay hr, ?_, fun e => Replay.run_eq_error_iff,
    fun d r r' hstep => ⟨?_, ?_⟩⟩
  · rw [Except.exists_error_iff, replay, Replay.exists_run_iff]
    push Not
    rfl
  · rintro ⟨s, hs, hname⟩ i u hu hother
    exact Replay.ignoresSource_of_exact hstep hs hname hu hother
  · rintro ⟨t, ht, hname⟩ i u hu hother
    exact Replay.treatment_eq_iff.mp (Replay.treatment_of_exact hstep ht hname hu hother)

/-- Books to the cards of a catalogue, with two numbers on a card whose names differ in case. -/
def catalogue : Configuration Record Record :=
  let book : RecordSchema := ⟨"Book", [⟨"Id", .int .i32⟩, ⟨"Title", .string⟩]⟩
  let card : RecordSchema := ⟨"Card", [⟨"id", .int .i32⟩, ⟨"ID", .int .i64⟩, ⟨"Title", .string⟩]⟩
  ((((new "Book" "Card" book.members card.members).withNameComparer .ignoreCase).mapMember
    "ID" "Id").ignoreTarget "id").ignoreSource "title"

/-- Ignoring one of the numbers leaves the override of the other. To bind the ignored one admits it,
and to ignore the bound one drops its override. A name that stands for both cannot be bound, though
they are reset afterwards. -/
theorem replay_lastWins_catalogue :
    (∃ r, catalogue.replay = .ok r ∧ r.ignoresTarget 0 = true ∧
      (r.override? 1).isSome = true ∧ r.ignoresSource 0 = false ∧
      r.ignoresSource 1 = true ∧ r.LastWins catalogue) ∧
    (∃ r, (catalogue.mapMember "id" "Id").replay = .ok r ∧ r.ignoresTarget 0 = false ∧
      (r.override? 0).isSome = true) ∧
    (∃ r, (catalogue.ignoreTarget "ID").replay = .ok r ∧ r.ignoresTarget 1 = true ∧
      r.override? 1 = none) ∧
    (∃ r r' : Replay Record, r.step catalogue (.ignoreTarget "id") = .ok r' ∧
      (r'.override? 1).isSome = true ∧ r'.override? 1 = r.override? 1) ∧
    ∃ e, ((catalogue.mapMember "iD" "Id").reset "iD").replay = .error e ∧
      e = .ambiguousMember "Card" "id" "ID" "id" ∧
      ∃ name b, .bind name b ∈ ((catalogue.mapMember "iD" "Id").reset "iD").directives ∧
        ((catalogue.mapMember "iD" "Id").reset "iD").Unbindable name := by
  refine ⟨⟨_, rfl, rfl, rfl, rfl, rfl, (replay_lastWins catalogue).1 _ rfl⟩,
    ⟨_, rfl, rfl, rfl⟩, ⟨_, rfl, rfl, rfl⟩, ?_,
    ⟨_, rfl, rfl, (replay_lastWins _).2.1.mp ⟨_, rfl⟩⟩⟩
  have hexact := ((replay_lastWins catalogue).2.2.2 (.ignoreTarget "id")
    (Replay.start.override 1 (.member "Id")) _ rfl).2
  refine ⟨_, _, rfl, ?_, (hexact ⟨_, List.mem_cons_self, rfl⟩ 1 _ rfl (by decide)).2⟩
  rfl

end Configuration

end Crosswalk
