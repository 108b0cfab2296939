import Crosswalk.Proofs.Verdicts

/-!
# Ignoring is deleting

An ignored member stays listed and is walked past. It is not indexed, so it is neither ambiguous
nor missed, and it puts nothing on the agenda (`Configuration.agenda_filter`). Where all that the
directives do is ignore members by their names, validation gives what it gives without
directives over the lists without those members (`Configuration.validate_withoutIgnored`). A
failure may call the owner otherwise, since a label is read off the first member of a list, which
may be one of those that are gone (`MappingError.unlabelled`).
-/

namespace Crosswalk

variable {σ τ : Type}

/-! ## Failures but for the label of the owner -/

namespace MappingError

/-- The failure with the label of a list of members left blank. -/
def unlabelled : MappingError → MappingError
  | ambiguousMember _ first second normalized => ambiguousMember "" first second normalized
  | unmappedTarget _ member => unmappedTarget "" member
  | unmappedSource _ member => unmappedSource "" member
  | memberNotFound _ member => memberNotFound "" member
  | e => e

theorem kind_unlabelled (e : MappingError) : e.unlabelled.kind = e.kind := by
  cases e <;> rfl

theorem member?_unlabelled (e : MappingError) : e.unlabelled.member? = e.member? := by
  cases e <;> rfl

end MappingError

/-- The first members of the names are the same whatever the owner is called. -/
theorem firstOfEach_unlabelled (comparer : NameComparer) (owner owner' : String)
    (known ms : List (Member σ)) :
    (firstOfEach comparer owner known ms).mapError MappingError.unlabelled =
      (firstOfEach comparer owner' known ms).mapError MappingError.unlabelled := by
  induction ms generalizing known with
  | nil => rfl
  | cons m ms ih =>
    rw [firstOfEach, firstOfEach]
    split
    · exact ih _
    · split
      · exact ih _
      · rfl

/-! ## Ignoring by names -/

/-- The directive ignores source members of the name. -/
def Directive.ignoresSourceNamed (name : String) : Directive σ → Bool
  | .ignoreSource n => n == name
  | _ => false

/-- The directive ignores target members of the name. -/
def Directive.ignoresTargetNamed (name : String) : Directive σ → Bool
  | .ignoreTarget n => n == name
  | _ => false

/-- Where all that reach say one thing, it is said if any reaches. -/
theorem lastSay_eq_ite {α : Type} {reaches test : Directive σ → Bool} {effect : Directive σ → α}
    {a initial : α} {ds : List (Directive σ)} (hreaches : ∀ d ∈ ds, reaches d = test d)
    (heffect : ∀ d ∈ ds, test d = true → effect d = a) :
    lastSay reaches effect initial ds = if ds.any test then a else initial := by
  induction ds generalizing initial with
  | nil => rfl
  | cons d ds ih =>
    rw [List.forall_mem_cons] at hreaches heffect
    rw [lastSay_cons, ih hreaches.2 heffect.2, List.any_cons, hreaches.1]
    cases hd : test d with
    | false => rfl
    | true => rw [if_pos rfl, heffect.1 hd, ite_self, Bool.true_or, if_pos rfl]

namespace Configuration

/-- Each directive ignores source members by the name of one, or target members. -/
def IgnoresListed (c : Configuration σ τ) : Prop :=
  ∀ d ∈ c.directives, (∃ s ∈ c.sourceMembers, d = .ignoreSource s.name) ∨
    ∃ t ∈ c.targetMembers, d = .ignoreTarget t.name

/-- The lists without the members of the names that the directives ignore, and no directives. -/
def withoutIgnored (c : Configuration σ τ) : Configuration σ τ :=
  { c with
    sourceMembers := c.sourceMembers.filter fun s =>
      !c.directives.any (Directive.ignoresSourceNamed s.name)
    targetMembers := c.targetMembers.filter fun t =>
      !c.directives.any (Directive.ignoresTargetNamed t.name)
    directives := [] }

variable {c : Configuration σ τ}

/-- By listed names, a source member is ignored if some directive gives its name. -/
theorem ignores_of_ignoresListed (h : c.IgnoresListed) (n : String) :
    c.ignores n = c.directives.any (Directive.ignoresSourceNamed n) := by
  have hreaches : ∀ d ∈ c.directives, c.reachesSources n d = d.ignoresSourceNamed n := by
    intro d hd
    rcases h d hd with ⟨s, hs, rfl⟩ | ⟨t, ht, rfl⟩
    · simp only [reachesSources, stands_iff_of_mem hs rfl, Directive.ignoresSourceNamed]
      rw [Bool.eq_iff_iff, decide_eq_true_iff, beq_iff_eq, eq_comm]
    · rfl
  have heffect : ∀ d ∈ c.directives, d.ignoresSourceNamed n = true → d.ignoresSource = true := by
    intro d hd hnamed
    rcases h d hd with ⟨s, -, rfl⟩ | ⟨t, -, rfl⟩
    · rfl
    · cases hnamed
  rw [ignores, lastSay_eq_ite hreaches heffect]
  cases c.directives.any _ <;> rfl

/-- By listed names, a target member is ignored at each of its listings or at none. -/
theorem verdict_of_ignoresListed (h : c.IgnoresListed) (n : String) (first : Bool) :
    c.verdict n first =
      if c.directives.any (Directive.ignoresTargetNamed n) then .ignored else .auto := by
  have hreaches : ∀ d ∈ c.directives, c.reachesTargets n first d = d.ignoresTargetNamed n := by
    intro d hd
    rcases h d hd with ⟨s, hs, rfl⟩ | ⟨t, ht, rfl⟩
    · rfl
    · simp only [reachesTargets, stands_iff_of_mem ht rfl, Directive.ignoresTargetNamed]
      rw [Bool.eq_iff_iff, decide_eq_true_iff, beq_iff_eq, eq_comm]
  have heffect : ∀ d ∈ c.directives, d.ignoresTargetNamed n = true → d.treatment = .ignored := by
    intro d hd hnamed
    rcases h d hd with ⟨s, -, rfl⟩ | ⟨t, -, rfl⟩
    · cases hnamed
    · rfl
  exact lastSay_eq_ite hreaches heffect

/-- Verdicts that do not tell listings apart. -/
theorem judge_eq_map {f : String → Treatment σ} (h : ∀ n first, c.verdict n first = f n)
    (before ts : List (Member τ)) : c.judge before ts = ts.map fun t => (t, f t.name) := by
  induction ts generalizing before with
  | nil => rfl
  | cons t ts ih => rw [judge, h, ih, List.map_cons]

/-- The source members that are left are those that are not ignored. -/
theorem acquitted_withoutIgnored (h : c.IgnoresListed) :
    c.withoutIgnored.acquitted = c.acquitted := by
  simp only [acquitted, withoutIgnored, List.filter_filter, ignores_of_ignoresListed h]
  refine List.filter_congr fun s _ => ?_
  rw [ignores, lastSay, List.foldl_nil, Bool.not_false, Bool.and_true]

/-- The target members that are left are those without the verdict that ignores them. -/
theorem judge_withoutIgnored (h : c.IgnoresListed) :
    c.withoutIgnored.judge [] c.withoutIgnored.targetMembers =
      (c.judge [] c.targetMembers).filter fun p => !p.2.isIgnored := by
  have hauto : ∀ n first, c.withoutIgnored.verdict n first = .auto := fun _ _ => rfl
  rw [judge_eq_map hauto, judge_eq_map (verdict_of_ignoresListed h), List.filter_map]
  have hsame : ((fun p : Treated σ τ => !p.2.isIgnored) ∘ fun t : Member τ =>
      (t, if c.directives.any (Directive.ignoresTargetNamed t.name) then Treatment.ignored
        else .auto)) = fun t => !c.directives.any (Directive.ignoresTargetNamed t.name) := by
    funext t
    show (!(if _ then Treatment.ignored else .auto).isIgnored) = _
    split <;> simp_all [Treatment.ignored, Treatment.auto]
  rw [hsame]
  refine List.map_congr_left fun t ht => ?_
  rw [if_neg (by simpa using (List.mem_filter.mp ht).2)]

/-! ## Ignored members are passed over -/

/-- An ignored member puts nothing on the agenda, and takes no name. -/
theorem agenda_filter (c : Configuration σ τ) (taken : List String) {ts : List (Treated σ τ)}
    (h : ∀ p ∈ ts, p.2.Exclusive) :
    c.agenda taken (ts.filter fun p => !p.2.isIgnored) = c.agenda taken ts := by
  induction ts generalizing taken with
  | nil => rfl
  | cons p ts ih =>
    rw [List.forall_mem_cons] at h
    cases hp : p.2.isIgnored with
    | false =>
      rw [List.filter_cons_of_pos (by simp [hp]), agenda, agenda]
      simp only [ih _ h.2]
    | true =>
      have hauto : p.2.override? = none := h.1 hp
      have hclosed : ¬p.isOpen = true := by simp [Treated.isOpen, hp]
      have hidle : ¬c.due taken p = true := fun h => hclosed ((due_iff_of_auto hauto).mp h).1
      rw [List.filter_cons_of_neg (by simp [hp]), ih _ h.2, agenda_of_not_due hidle, take,
        if_neg hclosed]

theorem filter_isOpen_filter (ts : List (Treated σ τ)) :
    (ts.filter fun p => !p.2.isIgnored).filter Treated.isOpen = ts.filter Treated.isOpen := by
  rw [List.filter_filter]
  refine List.filter_congr fun p _ => ?_
  rw [Treated.isOpen, Bool.and_assoc, Bool.and_self]

/-- What is not overridden is filled alike, or fails alike but for the label. -/
theorem fill_withoutIgnored (c : Configuration σ τ) (ss : List (Member σ)) (t : Member τ) :
    (c.withoutIgnored.fill ss ⟨t, none⟩).mapError MappingError.unlabelled =
      (c.fill ss ⟨t, none⟩).mapError MappingError.unlabelled := by
  have hfind : (ss.find? fun s => c.withoutIgnored.keyOf s == c.withoutIgnored.keyOf t) =
      ss.find? fun s => c.keyOf s == c.keyOf t := rfl
  have hmode : c.withoutIgnored.options.mode = c.options.mode := rfl
  simp only [fill, hfind, hmode]
  cases ss.find? fun s => c.keyOf s == c.keyOf t with
  | some s => rfl
  | none =>
    dsimp only
    split <;> rfl

/-- Without overrides, what is left when the ignored members are gone settles alike. -/
theorem settle_withoutIgnored (c : Configuration σ τ) (ss : List (Member σ))
    {ts : List (Treated σ τ)} (hauto : ∀ p ∈ ts, p.2.override? = none) :
    (c.withoutIgnored.settle ss (ts.filter fun p => !p.2.isIgnored)).mapError
        MappingError.unlabelled = (c.settle ss ts).mapError MappingError.unlabelled := by
  have hagenda : c.withoutIgnored.agenda [] (ts.filter fun p => !p.2.isIgnored) =
      c.agenda [] ts := by
    rw [agenda_filter _ _ fun p hp _ => hauto p hp]
    exact agenda_congr rfl
  have hfill : ∀ task ∈ c.agenda [] ts,
      (c.withoutIgnored.fill ss task).mapError MappingError.unlabelled =
        (c.fill ss task).mapError MappingError.unlabelled := by
    intro task htask
    obtain ⟨p, hp, rfl⟩ := exists_of_mem_agenda htask
    rw [hauto p hp]
    exact c.fill_withoutIgnored ss p.1
  have hsources := firstOfEach_unlabelled c.options.nameComparer
    (ownerLabel c.withoutIgnored.sourceType c.withoutIgnored.sourceMembers)
    (ownerLabel c.sourceType c.sourceMembers) [] ss
  have htargets := firstOfEach_unlabelled c.options.nameComparer
    (ownerLabel c.withoutIgnored.targetType c.withoutIgnored.targetMembers)
    (ownerLabel c.targetType c.targetMembers) [] ((ts.filter Treated.isOpen).map Prod.fst)
  have hmissed : ∀ filled, c.withoutIgnored.missed? ss (c.agenda [] ts) filled =
      c.missed? ss (c.agenda [] ts) filled := fun _ => rfl
  have hcomparer : c.withoutIgnored.options.nameComparer = c.options.nameComparer := rfl
  simp only [settle, hagenda, filter_isOpen_filter, hmissed, hcomparer, Except.mapError_bind,
    Except.mapError_collect, Except.collect_congr hfill, hsources, htargets]
  congr 1
  funext _
  congr 1
  funext _
  congr 1
  funext filled
  cases c.missed? ss (c.agenda [] ts) filled <;> rfl

/-- Ignoring a name never fails, whatever it leads to. -/
theorem checkNames_of_ignoresListed (h : c.IgnoresListed) : c.checkNames c.directives = .ok () := by
  have hsuffix : ∀ ds : List (Directive σ), (∀ d ∈ ds, d ∈ c.directives) →
      c.checkNames ds = .ok () := by
    intro ds
    induction ds with
    | nil => exact fun _ => rfl
    | cons d ds ih =>
      intro hmem
      rw [List.forall_mem_cons] at hmem
      rcases h d hmem.1 with ⟨s, -, rfl⟩ | ⟨t, -, rfl⟩
      · exact ih hmem.2
      · exact ih hmem.2
  exact hsuffix _ fun _ => id

/-- Ignoring members by their names gives the list that deleting them gives. Where one fails, so
does the other, in the same way but for the label of the owner. -/
theorem validate_withoutIgnored (c : Configuration σ τ) (h : c.IgnoresListed) :
    (∀ ms, c.validate = .ok ms ↔ c.withoutIgnored.validate = .ok ms) ∧
    ∀ e, c.validate = .error e → ∃ e', c.withoutIgnored.validate = .error e' ∧
      e'.kind = e.kind ∧ e'.member? = e.member? ∧ e'.unlabelled = e.unlabelled := by
  have hauto : ∀ p ∈ c.judge [] c.targetMembers, p.2.override? = none := by
    rw [judge_eq_map (verdict_of_ignoresListed h)]
    intro p hp
    obtain ⟨t, -, rfl⟩ := List.mem_map.mp hp
    dsimp only
    split <;> rfl
  have hsame : c.withoutIgnored.validate.mapError MappingError.unlabelled =
      c.validate.mapError MappingError.unlabelled := by
    rw [validate_eq_settle_judged, validate_eq_settle_judged c, checkNames_of_ignoresListed h,
      acquitted_withoutIgnored h, judge_withoutIgnored h]
    exact c.settle_withoutIgnored c.acquitted hauto
  refine ⟨fun ms => ?_, fun e he => ?_⟩
  · rw [← Except.mapError_eq_ok_iff, ← hsame, Except.mapError_eq_ok_iff]
  · rw [he] at hsame
    obtain ⟨e', he', hunlabelled⟩ := Except.mapError_eq_error_iff.mp hsame
    refine ⟨e', he', ?_, ?_, hunlabelled⟩
    · rw [← e'.kind_unlabelled, hunlabelled, e.kind_unlabelled]
    · rw [← e'.member?_unlabelled, hunlabelled, e.member?_unlabelled]

/-- Letters to envelopes, without the seal and without a second address whose name differs in
case. -/
def envelopes : Configuration Record Record :=
  let letter : RecordSchema :=
    ⟨"Letter", [⟨"TO", .int .i32⟩, ⟨"To", .string⟩, ⟨"Text", .string⟩]⟩
  let envelope : RecordSchema := ⟨"Envelope", [⟨"Seal", .bool⟩, ⟨"to", .string⟩]⟩
  ((((new "Letter" "Envelope" letter.members envelope.members).withNameComparer
    .ignoreCase).withMode .allTargetMembers).ignoreSource "TO").ignoreTarget "Seal"

theorem validate_withoutIgnored_envelopes : envelopes.IgnoresListed ∧
    (∃ ms, envelopes.validate = .ok ms ∧ ms.length = 1 ∧
      envelopes.withoutIgnored.validate = .ok ms) ∧
    envelopes.withoutIgnored.sourceMembers.length = 2 ∧
    envelopes.withoutIgnored.targetMembers.length = 1 := by
  have hlisted : envelopes.IgnoresListed := by
    intro d hd
    rcases List.mem_pair.mp hd with rfl | rfl
    · exact .inl ⟨_, List.mem_cons_self, rfl⟩
    · exact .inr ⟨_, List.mem_cons_self, rfl⟩
  have hms : ∃ ms, envelopes.validate = .ok ms ∧ ms.length = 1 := ⟨_, rfl, rfl⟩
  obtain ⟨ms, hms, hlength⟩ := hms
  exact ⟨hlisted, ⟨ms, hms, hlength, ((validate_withoutIgnored envelopes hlisted).1 ms).mp hms⟩,
    rfl, rfl⟩

end Configuration

end Crosswalk
