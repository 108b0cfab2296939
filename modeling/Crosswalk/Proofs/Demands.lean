import Crosswalk.Proofs.Verdicts
import Mathlib.Data.List.Induction

/-!
# What is to be filled

Whether a target member is to be filled, and by which override, is a question about the set of
listed members (`Configuration.Demands`), as long as no name of an override and no normalized name
of an open member leads to different ones (`Configuration.Bound`, `Configuration.Distinct`). The
agenda has a task for each such member, up to `==`, and no other
(`Configuration.demands_of_mem_tasks`, `Configuration.exists_task_of_demands`), in the order of the
first listings (`Configuration.pairwise_tasks`). A validation succeeds just when these tasks are
fulfilled (`Configuration.validate_eq_ok_iff_fulfils`).
-/

namespace Crosswalk

variable {σ τ : Type}

namespace Configuration

/-- A listed target member with the verdict on it, after those before. -/
def entry (c : Configuration σ τ) (before : List (Member τ)) (t : Member τ) : Treated σ τ :=
  (t, c.verdict t.name (isFirst before t.name))

/-- The normalized names that the open ones of the members have taken. -/
def taken (c : Configuration σ τ) (before : List (Member τ)) : List String :=
  (c.judge [] before).foldl c.take []

/-- The tasks of the members after those before. -/
def tasks (c : Configuration σ τ) (before ts : List (Member τ)) : List (Task σ τ) :=
  c.agenda (c.taken before) (c.judge before ts)

/-- The members that may be filled, listing by listing. -/
def openMembers (c : Configuration σ τ) (ts : List (Member τ)) : List (Member τ) :=
  ((c.judge [] ts).filter Treated.isOpen).map Prod.fst

/-- Some listing of the member may be filled. -/
def Opens (c : Configuration σ τ) (t : Member τ) : Prop :=
  t.canWrite = true ∧ (c.verdict t.name true).isIgnored = false

/-- The target member is to be filled, by an override or by its name. -/
inductive Demands (c : Configuration σ τ) (t : Member τ) : Option (Binding σ) → Prop
  | override {b} (h : c.verdict t.name true = .overridden b) : Demands c t (some b)
  | auto (h : c.verdict t.name true = .auto) (hwrite : t.canWrite = true) : Demands c t none

/-- The name of each override leads to one target member. -/
def Bound (c : Configuration σ τ) : Prop :=
  ∀ name b, .bind name b ∈ c.directives → ¬c.Unbindable name

/-- Open members of one normalized name are the same. -/
def Distinct (c : Configuration σ τ) : Prop :=
  ∀ t ∈ c.targetMembers, ∀ u ∈ c.targetMembers, c.Opens t → c.Opens u →
    c.keyOf t = c.keyOf u → (t == u) = true

variable {c : Configuration σ τ} {before after ts : List (Member τ)} {t u : Member τ} {n : String}

/-! ## Names taken -/

theorem keyOf_eq_of_beq (c : Configuration σ τ) {ρ : Type} {a b : Member ρ} (h : (a == b) = true) :
    c.keyOf a = c.keyOf b :=
  congrArg c.options.nameComparer.normalize (Member.name_eq_of_beq h)

theorem judge_append_singleton (c : Configuration σ τ) (before : List (Member τ)) (t : Member τ) :
    c.judge [] (before ++ [t]) = c.judge [] before ++ [c.entry before t] := by
  rw [judge_append, List.nil_append]
  rfl

theorem taken_append_singleton (c : Configuration σ τ) (before : List (Member τ)) (t : Member τ) :
    c.taken (before ++ [t]) = c.take (c.taken before) (c.entry before t) := by
  rw [taken, judge_append_singleton, List.foldl_append]
  rfl

theorem tasks_cons (c : Configuration σ τ) (before ts : List (Member τ)) (t : Member τ) :
    c.tasks before (t :: ts) =
      if c.due (c.taken before) (c.entry before t) then
        ⟨t, (c.entry before t).2.override?⟩ :: c.tasks (before ++ [t]) ts
      else c.tasks (before ++ [t]) ts := by
  rw [tasks, tasks, taken_append_singleton]
  rfl

theorem tasks_append (c : Configuration σ τ) (ts us : List (Member τ)) :
    c.tasks [] (ts ++ us) = c.tasks [] ts ++ c.tasks ts us := by
  rw [tasks, judge_append, agenda_append]
  rfl

/-- The tasks depend on the verdicts and the comparer alone. -/
theorem tasks_congr {c' : Configuration σ τ} (hverdict : c'.verdict = c.verdict)
    (hcomparer : c'.options.nameComparer = c.options.nameComparer) :
    c'.tasks [] ts = c.tasks [] ts := by
  rw [tasks, tasks, judge_congr hverdict]
  exact agenda_congr hcomparer

theorem openMembers_congr {c' : Configuration σ τ} (hverdict : c'.verdict = c.verdict) :
    c'.openMembers ts = c.openMembers ts := by
  rw [openMembers, openMembers, judge_congr hverdict]

theorem isOpen_entry_iff : (c.entry before t).isOpen = true ↔ t.canWrite = true ∧
    (c.verdict t.name (isFirst before t.name)).isIgnored = false := by
  rw [entry, Treated.isOpen, Bool.and_eq_true, Bool.not_eq_true']

/-- Where later listings of a member are open, each listing is. -/
theorem isOpen_entry_of_later (hwrite : t.canWrite = true)
    (hopen : (c.verdict t.name false).isIgnored = false) (before : List (Member τ)) :
    (c.entry before t).isOpen = true := by
  refine isOpen_entry_iff.mpr ⟨hwrite, Bool.eq_false_iff.mpr fun hignored => ?_⟩
  rw [isIgnored_verdict_later hignored] at hopen
  cases hopen

/-- A listing that is open opens its member. -/
theorem opens_of_isOpen_entry (h : (c.entry before t).isOpen = true) : c.Opens t := by
  obtain ⟨hwrite, hopen⟩ := isOpen_entry_iff.mp h
  refine ⟨hwrite, Bool.eq_false_iff.mpr fun hignored => ?_⟩
  cases hfirst : isFirst before t.name with
  | true =>
    rw [hfirst, hignored] at hopen
    cases hopen
  | false =>
    rw [hfirst, isIgnored_verdict_later hignored] at hopen
    cases hopen

/-- A taken name was taken by the first open member of that name. -/
theorem exists_of_mem_taken {key : String} (h : key ∈ c.taken ts) :
    ∃ before t after, ts = before ++ t :: after ∧ (c.entry before t).isOpen = true ∧
      c.keyOf t = key ∧ key ∉ c.taken before := by
  induction ts using List.reverseRecOn with
  | nil => cases h
  | append_singleton ts t ih =>
    by_cases hbefore : key ∈ c.taken ts
    · obtain ⟨before, u, after, rfl, hu⟩ := ih hbefore
      exact ⟨before, u, after ++ [t], by simp, hu⟩
    · rw [taken_append_singleton, mem_take] at h
      obtain ⟨hopen, hkey⟩ := h.resolve_left hbefore
      exact ⟨ts, t, [], rfl, hopen, hkey, hbefore⟩

/-- An open member takes its normalized name, or finds it taken. -/
theorem keyOf_mem_taken_of_split (h : ts = before ++ t :: after)
    (hopen : (c.entry before t).isOpen = true) : c.keyOf t ∈ c.taken ts := by
  rw [h, taken]
  refine mem_foldl_take.mpr (.inr ⟨c.entry before t, ?_, hopen, rfl⟩)
  exact mem_judge_of_split rfl

/-- A listed member whose later listings are open has taken its name. -/
theorem keyOf_mem_taken (ht : t ∈ ts) (hwrite : t.canWrite = true)
    (hopen : (c.verdict t.name false).isIgnored = false) : c.keyOf t ∈ c.taken ts := by
  obtain ⟨before, after, hsplit⟩ := List.append_of_mem ht
  exact keyOf_mem_taken_of_split hsplit (isOpen_entry_of_later hwrite hopen before)

/-- Where a member equal to one before is open, the one before has taken the name. -/
theorem keyOf_mem_taken_of_listed (hu : u ∈ before) (hsame : (u == t) = true)
    (hopen : (c.entry before t).isOpen = true) : c.keyOf t ∈ c.taken before := by
  obtain ⟨-, hname, -, -, -, hwrite⟩ := Member.beq_iff.mp hsame
  obtain ⟨htwrite, htopen⟩ := isOpen_entry_iff.mp hopen
  rw [isFirst_eq_false_iff.mpr ⟨u, hu, hname⟩, ← hname] at htopen
  rw [← c.keyOf_eq_of_beq hsame]
  exact keyOf_mem_taken hu (hwrite.trans htwrite) htopen

/-- A member equal to one before is not due. -/
theorem not_due_of_listed (hu : u ∈ before) (hsame : (u == t) = true) :
    ¬c.due (c.taken before) (c.entry before t) = true := by
  have hauto : (c.entry before t).2.override? = none := by
    rw [entry, isFirst_eq_false_iff.mpr ⟨u, hu, Member.name_eq_of_beq hsame⟩]
    exact override?_verdict_later c t.name
  rw [due_iff_of_auto hauto]
  exact fun h => h.2 (keyOf_mem_taken_of_listed hu hsame h.1)

/-! ## Tasks and demands -/

/-- A task is that of some listing, which is due when the members before it have taken their names.
-/
theorem mem_tasks_iff {task : Task σ τ} : task ∈ c.tasks before ts ↔
    ∃ us t vs, ts = us ++ t :: vs ∧
      c.due (c.taken (before ++ us)) (c.entry (before ++ us) t) = true ∧
      task = ⟨t, (c.entry (before ++ us) t).2.override?⟩ := by
  induction ts generalizing before with
  | nil => simp [tasks, judge, agenda]
  | cons t ts ih =>
    have hrest : task ∈ c.tasks (before ++ [t]) ts ↔ ∃ us u vs, ts = us ++ u :: vs ∧
        c.due (c.taken (before ++ t :: us)) (c.entry (before ++ t :: us) u) = true ∧
        task = ⟨u, (c.entry (before ++ t :: us) u).2.override?⟩ := by
      rw [ih]
      simp only [List.append_assoc, List.singleton_append]
    rw [tasks_cons]
    constructor
    · intro h
      split at h
      · next hdue =>
        rcases List.mem_cons.mp h with rfl | h
        · exact ⟨[], t, ts, rfl, by simpa using hdue, by simp⟩
        · obtain ⟨us, u, vs, rfl, hu⟩ := hrest.mp h
          exact ⟨t :: us, u, vs, rfl, hu⟩
      · obtain ⟨us, u, vs, rfl, hu⟩ := hrest.mp h
        exact ⟨t :: us, u, vs, rfl, hu⟩
    · rintro ⟨us, u, vs, hsplit, hdue, rfl⟩
      cases us with
      | nil =>
        obtain ⟨rfl, rfl⟩ := List.cons.inj hsplit
        rw [List.append_nil] at hdue ⊢
        rw [if_pos hdue]
        exact List.mem_cons_self
      | cons v us =>
        obtain ⟨rfl, rfl⟩ := List.cons.inj hsplit
        have hmem := hrest.mpr ⟨us, u, vs, rfl, hdue, rfl⟩
        split
        · exact List.mem_cons_of_mem _ hmem
        · exact hmem

/-- Members of the name of an override are the same. -/
theorem Bound.beq_of_overridden (h : c.Bound) {first : Bool} {b : Binding σ}
    (hb : c.verdict n first = .overridden b) (ht : t ∈ c.targetMembers) (hu : u ∈ c.targetMembers)
    (htn : t.name = n) (hun : u.name = n) : (t == u) = true := by
  obtain ⟨name, hmem, hstands⟩ := exists_bind_of_verdict hb
  by_contra hdiffer
  refine h name b hmem (.inr ⟨t, ht, u, hu, htn ▸ hstands, hun ▸ hstands, ?_⟩)
  exact Bool.eq_false_iff.mpr hdiffer

/-- What is on the agenda is demanded. -/
theorem demands_of_mem_tasks (hbound : c.Bound) {task : Task σ τ}
    (h : task ∈ c.tasks [] c.targetMembers) :
    task.target ∈ c.targetMembers ∧ c.Demands task.target task.override? := by
  obtain ⟨before, t, after, hsplit, hdue, rfl⟩ := mem_tasks_iff.mp h
  rw [List.nil_append] at hdue ⊢
  have ht : t ∈ c.targetMembers := by simp [hsplit]
  refine ⟨ht, ?_⟩
  cases hover : (c.entry before t).2.override? with
  | some b =>
    have hb := (c.exclusive_verdict t.name _).eq_overridden hover
    cases hfirst : isFirst before t.name with
    | true => exact .override (hfirst ▸ hb)
    | false =>
      have hlater := override?_verdict_later c t.name
      rw [← hfirst] at hlater
      cases hover.symm.trans hlater
  | none =>
    obtain ⟨hwrite, hopen⟩ := isOpen_entry_iff.mp ((due_iff_of_auto hover).mp hdue).1
    have hauto := Treatment.eq_auto hover hopen
    refine .auto ?_ hwrite
    cases hfirst : isFirst before t.name with
    | true => exact hfirst ▸ hauto
    | false =>
      rcases verdict_first c t.name with heq | ⟨b, hb⟩
      · rw [heq, ← hfirst]
        exact hauto
      · -- The overridden first listing of the name is the same member, so this one is not due.
        obtain ⟨u, hu, hname⟩ := isFirst_eq_false_iff.mp hfirst
        have hulisted : u ∈ c.targetMembers := by simp [hsplit, hu]
        exact absurd hdue
          (not_due_of_listed hu (hbound.beq_of_overridden hb hulisted ht hname rfl))

/-- There is a first listing of the name of a member. -/
theorem exists_first (ht : t ∈ ts) :
    ∃ before u after, ts = before ++ u :: after ∧ u.name = t.name ∧
      isFirst before t.name = true := by
  obtain ⟨u, hu⟩ := Option.isSome_iff_exists.mp
    (List.find?_isSome.mpr ⟨t, ht, beq_self_eq_true t.name⟩ :
      (ts.find? fun u => u.name == t.name).isSome = true)
  obtain ⟨hname, before, after, hsplit, hbefore⟩ := List.find?_eq_some_iff_append.mp hu
  refine ⟨before, u, after, hsplit, beq_iff_eq.mp hname, isFirst_iff.mpr fun v hv => ?_⟩
  simpa using hbefore v hv

/-- What is demanded is on the agenda, up to equal members. -/
theorem exists_task_of_demands (hbound : c.Bound) (hdistinct : c.Distinct)
    (ht : t ∈ c.targetMembers) {b? : Option (Binding σ)} (h : c.Demands t b?) :
    ∃ task ∈ c.tasks [] c.targetMembers, (task.target == t) = true ∧ task.override? = b? := by
  cases h with
  | @override b hb =>
    obtain ⟨before, u, after, hsplit, hname, hfirst⟩ := exists_first ht
    have hu : u ∈ c.targetMembers := by simp [hsplit]
    have hover : (c.entry before u).2.override? = some b := by
      rw [entry, hname, hfirst, hb]
      rfl
    refine ⟨⟨u, some b⟩, ?_, hbound.beq_of_overridden hb hu ht hname rfl, rfl⟩
    refine mem_tasks_iff.mpr ⟨before, u, after, hsplit, ?_, ?_⟩
    · rw [List.nil_append, due, hover, Option.isSome_some, Bool.true_or]
    · rw [List.nil_append, hover]
  | auto hauto hwrite =>
    have htaken : c.keyOf t ∈ c.taken c.targetMembers :=
      keyOf_mem_taken ht hwrite (by rw [verdict_eq_auto hauto]; rfl)
    obtain ⟨before, u, after, hsplit, hopen, hkey, hnew⟩ := exists_of_mem_taken htaken
    have hu : u ∈ c.targetMembers := by simp [hsplit]
    have hsame : (u == t) = true :=
      hdistinct u hu t ht (opens_of_isOpen_entry hopen) ⟨hwrite, by rw [hauto]; rfl⟩ hkey
    have hover : (c.entry before u).2.override? = none := by
      rw [entry, Member.name_eq_of_beq hsame, verdict_eq_auto hauto]
      rfl
    refine ⟨⟨u, none⟩, mem_tasks_iff.mpr ⟨before, u, after, hsplit, ?_, ?_⟩, hsame, rfl⟩
    · rw [List.nil_append, due_iff_of_auto hover]
      exact ⟨hopen, hkey ▸ hnew⟩
    · rw [List.nil_append, hover]

/-- The tasks are in the order of the first listings of their members. -/
theorem pairwise_tasks (c : Configuration σ τ) (ts : List (Member τ)) :
    (c.tasks [] ts).Pairwise fun p q => ts.idxOf p.target < ts.idxOf q.target := by
  have hsuffix : ∀ rest before : List (Member τ), ts = before ++ rest →
      (∀ task ∈ c.tasks before rest, before.length ≤ ts.idxOf task.target) ∧
        (c.tasks before rest).Pairwise fun p q => ts.idxOf p.target < ts.idxOf q.target := by
    intro rest
    induction rest with
    | nil => exact fun _ _ => ⟨List.forall_mem_nil _, List.Pairwise.nil⟩
    | cons t rest ih =>
      intro before hsplit
      obtain ⟨hafter, hordered⟩ := ih (before ++ [t]) (by simp [hsplit])
      rw [List.length_append, List.length_singleton] at hafter
      rw [tasks_cons]
      split
      · next hdue =>
        have hnone : ∀ u ∈ before, (u == t) = false := fun u hu =>
          Bool.eq_false_iff.mpr fun hsame => not_due_of_listed hu hsame hdue
        have hplace : ts.idxOf t = before.length := by
          rw [hsplit, List.idxOf, List.findIdx_append, List.findIdx_eq_length_of_false hnone,
            if_neg (Nat.lt_irrefl _), List.findIdx_cons, BEq.rfl, cond_true, Nat.zero_add]
        rw [List.forall_mem_cons, List.pairwise_cons]
        refine ⟨⟨Nat.le_of_eq hplace.symm, fun task htask => ?_⟩, fun task htask => ?_, hordered⟩
        · exact Nat.le_of_succ_le (hafter task htask)
        · rw [hplace]
          exact hafter task htask
      · exact ⟨fun task htask => Nat.le_of_succ_le (hafter task htask), hordered⟩
  exact (hsuffix ts [] rfl).2

/-! ## Validation by demands -/

/-- The names of the overrides pass just when each leads to one target member. -/
theorem checkNames_eq_ok_iff : c.checkNames c.directives = .ok () ↔ c.Bound := by
  rw [← run_eq_checkNames c .start, Except.map_eq_ok_iff, Bound,
    ← Replay.exists_run_iff (r := .start)]
  simp only [and_true]

theorem mem_openMembers_of_split (hsplit : ts = before ++ t :: after)
    (hopen : (c.entry before t).isOpen = true) : t ∈ c.openMembers ts :=
  List.mem_map.mpr ⟨_, List.mem_filter.mpr ⟨mem_judge_of_split hsplit, hopen⟩, rfl⟩

theorem opens_of_mem_openMembers (h : t ∈ c.openMembers ts) : t ∈ ts ∧ c.Opens t := by
  obtain ⟨p, hp, rfl⟩ := List.mem_map.mp h
  obtain ⟨hp, hopen⟩ := List.mem_filter.mp hp
  obtain ⟨before, t, after, hsplit, rfl⟩ := exists_split_of_mem_judge hp
  exact ⟨by simp [hsplit], opens_of_isOpen_entry hopen⟩

/-- A member that opens is open at some listing, or an equal one is. -/
theorem exists_openMember (hbound : c.Bound) (ht : t ∈ c.targetMembers) (h : c.Opens t) :
    ∃ u ∈ c.openMembers c.targetMembers, (u == t) = true := by
  rcases verdict_first c t.name with heq | ⟨b, hb⟩
  · obtain ⟨before, after, hsplit⟩ := List.append_of_mem ht
    have hopen := isOpen_entry_of_later h.1 (heq ▸ h.2) before
    exact ⟨t, mem_openMembers_of_split hsplit hopen, BEq.rfl⟩
  · -- The first listing of the name is open, as it is overridden, and it is the same member.
    obtain ⟨before, u, after, hsplit, hname, hfirst⟩ := exists_first ht
    have hu : u ∈ c.targetMembers := by simp [hsplit]
    have hsame := hbound.beq_of_overridden hb hu ht hname rfl
    refine ⟨u, mem_openMembers_of_split hsplit (isOpen_entry_iff.mpr ⟨?_, ?_⟩), hsame⟩
    · rw [(Member.beq_iff.mp hsame).2.2.2.2.2, h.1]
    · rw [hname, hfirst, h.2]

/-- The target side is free of ambiguity just when open members of one normalized name are the same.
-/
theorem exists_firstOfEach_openMembers_iff (hbound : c.Bound) {owner : String} :
    (∃ known, firstOfEach c.options.nameComparer owner [] (c.openMembers c.targetMembers) =
      .ok known) ↔ c.Distinct := by
  rw [exists_firstOfEach_iff]
  constructor
  · intro h t ht u hu htopen huopen hkey
    obtain ⟨a, ha, hat⟩ := exists_openMember hbound ht htopen
    obtain ⟨b, hb, hbu⟩ := exists_openMember hbound hu huopen
    have hab : (a == b) = true :=
      h a ha b hb ((c.keyOf_eq_of_beq hat).trans (hkey.trans (c.keyOf_eq_of_beq hbu).symm))
    exact BEq.trans (BEq.symm hat) (BEq.trans hab hbu)
  · intro h a ha b hb hkey
    obtain ⟨ha, haopen⟩ := opens_of_mem_openMembers ha
    obtain ⟨hb, hbopen⟩ := opens_of_mem_openMembers hb
    exact h a ha b hb haopen hbopen hkey

/-- No source member is missed just when each one has the name of an automatic task or of a member
that an override reads. -/
theorem missed?_eq_none_iff {ss : List (Member σ)} {tasks : List (Task σ τ)}
    {filled : List (Filled σ τ)} : c.missed? ss tasks filled = none ↔
      (c.options.mode.requiresAllSources = true → ∀ s ∈ ss,
        (∃ task ∈ tasks, task.override? = none ∧ c.keyOf task.target = c.keyOf s) ∨
          ∃ f ∈ filled, c.keyOf s ∈ f.readNames) := by
  have hnames : ∀ key, key ∈ c.pairedNames tasks ↔
      ∃ task ∈ tasks, task.override? = none ∧ c.keyOf task.target = key := by
    intro key
    simp only [pairedNames, List.mem_map, List.mem_filter, Option.isNone_iff_eq_none, and_assoc]
  rw [missed?]
  split
  · next hmode =>
    simp only [hmode, forall_const, List.find?_eq_none, ← hnames, List.contains_eq_mem,
      Bool.and_eq_true, Bool.not_eq_true', decide_eq_false_iff_not, not_and, not_not,
      List.mem_flatMap, or_iff_not_imp_left]
  · next hmode => simp [hmode]

/-- Validation fills the tasks one by one, once the names are in order. -/
theorem validate_eq_tasks (c : Configuration σ τ) :
    c.validate = (c.checkNames c.directives).bind fun _ =>
      (firstOfEach c.options.nameComparer (ownerLabel c.sourceType c.sourceMembers) []
        c.acquitted).bind fun _ =>
      (firstOfEach c.options.nameComparer (ownerLabel c.targetType c.targetMembers) []
        (c.openMembers c.targetMembers)).bind fun _ =>
      (Except.collect (c.fill c.acquitted) (c.tasks [] c.targetMembers)).bind fun filled =>
        match c.missed? c.acquitted (c.tasks [] c.targetMembers) filled with
        | some s => .error (.unmappedSource (ownerLabel c.sourceType c.sourceMembers) s.name)
        | none => .ok (filled.map Filled.mapping) := by
  rw [validate_eq_settle_judged]
  rfl

/-- What a successful validation fills the members with, whatever the order of the lists. -/
structure Fulfils (c : Configuration σ τ) (filled : List (Filled σ τ)) : Prop where
  bound : c.Bound
  /-- Admitted source members of one normalized name are the same. -/
  sources : ∀ a ∈ c.acquitted, ∀ b ∈ c.acquitted, c.keyOf a = c.keyOf b → (a == b) = true
  distinct : c.Distinct
  collected : Except.collect (c.fill c.acquitted) (c.tasks [] c.targetMembers) = .ok filled
  /-- Where the mode minds, each admitted source member is paired by its name or read. -/
  complete : c.options.mode.requiresAllSources = true → ∀ s ∈ c.acquitted,
    (∃ task ∈ c.tasks [] c.targetMembers, task.override? = none ∧
      c.keyOf task.target = c.keyOf s) ∨ ∃ f ∈ filled, c.keyOf s ∈ f.readNames

/-- A validation succeeds just when what is demanded is fulfilled. -/
theorem validate_eq_ok_iff_fulfils {ms : List (Mapping σ τ)} :
    c.validate = .ok ms ↔ ∃ filled, c.Fulfils filled ∧ filled.map Filled.mapping = ms := by
  simp only [validate_eq_tasks, Except.bind_eq_ok_iff]
  constructor
  · rintro ⟨_, hnames, known, hsources, known', htargets, filled, hfilled, h⟩
    have hbound := checkNames_eq_ok_iff.mp hnames
    split at h
    · cases h
    · next hmissed =>
      cases h
      exact ⟨filled, ⟨hbound, exists_firstOfEach_iff.mp ⟨known, hsources⟩,
        (exists_firstOfEach_openMembers_iff hbound).mp ⟨known', htargets⟩, hfilled,
        missed?_eq_none_iff.mp hmissed⟩, rfl⟩
  · rintro ⟨filled, h, rfl⟩
    obtain ⟨known, hsources⟩ := exists_firstOfEach_iff.mpr h.sources
    obtain ⟨known', htargets⟩ := (exists_firstOfEach_openMembers_iff h.bound).mpr h.distinct
    refine ⟨(), checkNames_eq_ok_iff.mpr h.bound, known, hsources, known', htargets, filled,
      h.collected, ?_⟩
    rw [missed?_eq_none_iff.mpr h.complete]

end Configuration

end Crosswalk
