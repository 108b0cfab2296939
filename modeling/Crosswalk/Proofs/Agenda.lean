import Crosswalk.Proofs.PairingSoundness

/-!
# Validation without positions

Positions tell the listings of a member apart while the directives are replayed. What comes after
depends on the members in their order and on their treatments alone. An index finds what a search
through the listings finds (`find?_indexFrom`). A walk works off an agenda of target members, the
overridden ones and the first open one of each normalized name (`Configuration.agenda`), and
fills each on its own: no later one has a name that an earlier one used up
(`Configuration.walk_eq_collect`). Hence validation is a function of the admitted source members
and of the target members with their treatments (`Configuration.validate_eq_settle`).
-/

namespace Crosswalk

variable {σ τ : Type}

/-! ## Searching for indexing -/

/-- The listing that an entry is of. -/
def IndexEntry.listing (e : IndexEntry σ) : Positioned σ := (e.position, e.member)

/-- The first entry whose name passes a test is of the first listing whose name does. -/
theorem find?_indexFrom {comparer : NameComparer} {owner : String} (q : String → Bool) :
    ∀ {ps : List (Positioned σ)} {index index' : List (IndexEntry σ)},
      indexFrom comparer owner index ps = .ok index' →
      (index'.find? fun e => q e.key).map IndexEntry.listing =
        ((index.find? fun e => q e.key).map IndexEntry.listing).or
          (ps.find? fun p => q (comparer.normalize p.2.name))
  | [], _, _, h => by
    cases h
    simp
  | (i, m) :: ps, index, index', h => by
    unfold indexFrom at h
    split at h
    · rw [find?_indexFrom q h, List.find?_append, List.find?_cons, List.find?_cons]
      cases q (comparer.normalize m.name) <;>
        cases index.find? (fun e => q e.key) <;> simp [IndexEntry.listing]
    · next e he =>
      split at h
      · rw [find?_indexFrom q h, List.find?_cons]
        obtain ⟨hmem, hkey⟩ := mem_of_lookup he
        cases hq : q (comparer.normalize m.name) with
        | false => rfl
        | true =>
          -- The entry that stands for this listing passes the test, so the search ends before.
          have hsome : (index.find? fun e => q e.key).isSome = true :=
            List.find?_isSome.mpr ⟨e, hmem, by rw [hkey, hq]⟩
          obtain ⟨e', he'⟩ := Option.isSome_iff_exists.mp hsome
          rw [he', Option.map_some, Option.some_or, Option.some_or]
      · cases h

/-- The first member of each normalized name, after those known. Different members of one name
are a fault. -/
def firstOfEach (comparer : NameComparer) (owner : String) :
    List (Member σ) → List (Member σ) → Except MappingError (List (Member σ))
  | known, [] => .ok known
  | known, m :: ms =>
    match known.find? fun k => comparer.normalize k.name == comparer.normalize m.name with
    | none => firstOfEach comparer owner (known ++ [m]) ms
    | some k =>
      if k == m then firstOfEach comparer owner known ms
      else .error (.ambiguousMember owner k.name m.name (comparer.normalize k.name))

/-- The members of an index, or the fault, are those found without positions. -/
theorem members_indexFrom {comparer : NameComparer} {owner : String} :
    ∀ {ps : List (Positioned σ)} {index : List (IndexEntry σ)},
      (∀ e ∈ index, e.key = comparer.normalize e.member.name) →
      (indexFrom comparer owner index ps).map (List.map IndexEntry.member) =
        firstOfEach comparer owner (index.map IndexEntry.member) (ps.map Prod.snd)
  | [], _, _ => rfl
  | (i, m) :: ps, index, hkeys => by
    have hfind : (index.map IndexEntry.member).find?
        (fun k => comparer.normalize k.name == comparer.normalize m.name) =
          (lookup (comparer.normalize m.name) index).map IndexEntry.member := by
      have hsame : index.filter (fun e => comparer.normalize e.member.name ==
          comparer.normalize m.name) = index.filter fun e => e.key == comparer.normalize m.name :=
        List.filter_congr fun e he => by rw [hkeys e he]
      rw [List.find?_map, lookup, ← List.head?_filter, ← List.head?_filter, ← hsame]
      rfl
    rw [indexFrom, List.map_cons, firstOfEach, hfind]
    cases hlook : lookup (comparer.normalize m.name) index with
    | none =>
      have hkeys' : ∀ e ∈ index ++ [⟨comparer.normalize m.name, i, m⟩],
          e.key = comparer.normalize e.member.name := by
        intro e he
        rcases List.mem_append.mp he with he | he
        · exact hkeys e he
        · rw [List.mem_singleton.mp he]
      have hrest : (indexFrom comparer owner _ ps).map (List.map IndexEntry.member) = _ :=
        members_indexFrom hkeys'
      rwa [List.map_append, List.map_singleton] at hrest
    | some e =>
      dsimp only [Option.map_some]
      split
      · exact members_indexFrom hkeys
      · rw [hkeys e (mem_of_lookup hlook).1]
        rfl

section

variable {comparer : NameComparer} {owner : String}

/-- The search goes on with what is known after the members before. -/
theorem firstOfEach_append (known xs ys : List (Member σ)) :
    firstOfEach comparer owner known (xs ++ ys) =
      (firstOfEach comparer owner known xs).bind fun known' =>
        firstOfEach comparer owner known' ys := by
  induction xs generalizing known with
  | nil => rfl
  | cons x xs ih =>
    rw [List.cons_append, firstOfEach, firstOfEach]
    split
    · exact ih _
    · split
      · exact ih _
      · rfl

/-- What is known stays, and at its place. -/
theorem prefix_of_firstOfEach {known known' ms : List (Member σ)}
    (h : firstOfEach comparer owner known ms = .ok known') : known <+: known' := by
  induction ms generalizing known with
  | nil =>
    cases h
    exact List.prefix_refl _
  | cons m ms ih =>
    rw [firstOfEach] at h
    split at h
    · exact (List.prefix_append _ _).trans (ih h)
    · split at h
      · exact ih h
      · cases h

/-- Each listed member is the first known of its name. -/
theorem exists_find?_of_firstOfEach {known known' ms : List (Member σ)}
    (h : firstOfEach comparer owner known ms = .ok known') {m : Member σ} (hm : m ∈ ms) :
    ∃ k, known'.find? (fun k => comparer.normalize k.name == comparer.normalize m.name) = some k ∧
      (k == m) = true := by
  induction ms generalizing known with
  | nil => cases hm
  | cons a ms ih =>
    rw [firstOfEach] at h
    split at h
    · next hnone =>
      rcases List.mem_cons.mp hm with rfl | hm
      · obtain ⟨rest, rfl⟩ := prefix_of_firstOfEach h
        refine ⟨m, ?_, BEq.rfl⟩
        rw [List.find?_append, List.find?_append, hnone]
        simp
      · exact ih h hm
    · next k hk =>
      split at h
      · next hsame =>
        rcases List.mem_cons.mp hm with rfl | hm
        · obtain ⟨rest, rfl⟩ := prefix_of_firstOfEach h
          exact ⟨k, by rw [List.find?_append, hk, Option.some_or], hsame⟩
        · exact ih h hm
      · cases h

/-- The first members are found just when members of one normalized name are the same. -/
theorem exists_firstOfEach_iff {ms : List (Member σ)} :
    (∃ known, firstOfEach comparer owner [] ms = .ok known) ↔ ∀ a ∈ ms, ∀ b ∈ ms,
      comparer.normalize a.name = comparer.normalize b.name → (a == b) = true := by
  constructor
  · rintro ⟨known, h⟩ a ha b hb hname
    obtain ⟨k, hk, hka⟩ := exists_find?_of_firstOfEach h ha
    obtain ⟨k', hk', hkb⟩ := exists_find?_of_firstOfEach h hb
    rw [hname, hk', Option.some_inj] at hk
    exact BEq.trans (BEq.symm hka) (hk ▸ hkb)
  · intro hsame
    have hfrom : ∀ known ms' : List (Member σ), (∀ m ∈ known, m ∈ ms) → (∀ m ∈ ms', m ∈ ms) →
        ∃ known', firstOfEach comparer owner known ms' = .ok known' := by
      intro known ms' hknown hms'
      induction ms' generalizing known with
      | nil => exact ⟨known, rfl⟩
      | cons m ms' ih =>
        rw [List.forall_mem_cons] at hms'
        rw [firstOfEach]
        split
        · refine ih _ (fun k hk => ?_) hms'.2
          rcases List.mem_append.mp hk with hk | hk
          · exact hknown k hk
          · exact List.mem_singleton.mp hk ▸ hms'.1
        · next k hk =>
          have hname := List.find?_some hk
          have hbeq := hsame k (hknown k (List.mem_of_find?_eq_some hk)) m hms'.1
            (beq_iff_eq.mp hname)
          rw [if_pos hbeq]
          exact ih known hknown hms'.2
    exact hfrom [] ms (List.forall_mem_nil _) fun _ => id

end

/-! ## Tasks -/

/-- A target member with what the directives leave of it. -/
abbrev Treated (σ τ : Type) : Type := Member τ × Treatment σ

/-- The member may be filled. -/
def Treated.isOpen (p : Treated σ τ) : Bool := p.1.canWrite && !p.2.isIgnored

/-- A listed target member with its treatment. -/
def Replay.treated (r : Replay σ) (p : Positioned τ) : Treated σ τ := (p.2, r.treatment p.1)

/-- The listed target member may be filled. -/
def Replay.isOpen (r : Replay σ) (p : Positioned τ) : Bool := (r.treated p).isOpen

/-- A target member to fill, by its override if it has one. -/
structure Task (σ τ : Type) where
  target : Member τ
  override? : Option (Binding σ)

/-- What fills a target member: its mapping, and the normalized names that an override reads. -/
structure Filled (σ τ : Type) where
  mapping : Mapping σ τ
  readNames : List String

namespace Configuration

/-- The source members that take part. -/
def admitted (c : Configuration σ τ) (r : Replay σ) : List (Member σ) :=
  (c.eligibleSources r).map Prod.snd

/-- The target members with their treatments. -/
def treated (c : Configuration σ τ) (r : Replay σ) : List (Treated σ τ) :=
  (positioned c.targetMembers).map r.treated

/-- The normalized names of open members, with that of one more. -/
def take (c : Configuration σ τ) (taken : List String) (p : Treated σ τ) : List String :=
  if p.isOpen then c.keyOf p.1 :: taken else taken

/-- The member is overridden, or open under a normalized name that is not taken. -/
def due (c : Configuration σ τ) (taken : List String) (p : Treated σ τ) : Bool :=
  (p.2.override?).isSome || p.isOpen && !taken.contains (c.keyOf p.1)

/-- The target members to fill: each overridden one, and of the others each open one whose
normalized name no open one had before. -/
def agenda (c : Configuration σ τ) : List String → List (Treated σ τ) → List (Task σ τ)
  | _, [] => []
  | taken, p :: rest =>
    if c.due taken p then ⟨p.1, p.2.override?⟩ :: c.agenda (c.take taken p) rest
    else c.agenda (c.take taken p) rest

/-- The mapping of one target member, from its override or the source member of its name. -/
def fill (c : Configuration σ τ) (ss : List (Member σ)) (task : Task σ τ) :
    Except MappingError (Option (Filled σ τ)) :=
  match task.override? with
  | some b =>
    (c.resolveBinding b).bind fun source =>
    (c.makeMapping source task.target).map fun m => some ⟨m, source.reads.map c.keyOf⟩
  | none =>
    match ss.find? fun s => c.keyOf s == c.keyOf task.target with
    | some s => (c.makeMapping (.member s) task.target).map fun m => some ⟨m, []⟩
    | none =>
      if c.options.mode.requiresAllTargets then
        .error (.unmappedTarget (ownerLabel c.targetType c.targetMembers) task.target.name)
      else .ok none

/-- The normalized names of the target members to fill by name. -/
def pairedNames (c : Configuration σ τ) (tasks : List (Task σ τ)) : List String :=
  (tasks.filter fun task => task.override?.isNone).map fun task => c.keyOf task.target

/-- The first source member whose normalized name no task is filled by and no override reads,
if the mode needs all source members. -/
def missed? (c : Configuration σ τ) (ss : List (Member σ)) (tasks : List (Task σ τ))
    (filled : List (Filled σ τ)) : Option (Member σ) :=
  if c.options.mode.requiresAllSources then
    ss.find? fun s => !(c.pairedNames tasks).contains (c.keyOf s) &&
      !(filled.flatMap Filled.readNames).contains (c.keyOf s)
  else none

/-- The mappings that fill the tasks one by one, or the first fault. -/
def settle (c : Configuration σ τ) (ss : List (Member σ)) (ts : List (Treated σ τ)) :
    Except MappingError (List (Mapping σ τ)) :=
  (firstOfEach c.options.nameComparer (ownerLabel c.sourceType c.sourceMembers) [] ss).bind fun _ =>
  (firstOfEach c.options.nameComparer (ownerLabel c.targetType c.targetMembers) []
    ((ts.filter Treated.isOpen).map Prod.fst)).bind fun _ =>
  (Except.collect (c.fill ss) (c.agenda [] ts)).bind fun filled =>
    match c.missed? ss (c.agenda [] ts) filled with
    | some s => .error (.unmappedSource (ownerLabel c.sourceType c.sourceMembers) s.name)
    | none => .ok (filled.map Filled.mapping)

variable {c : Configuration σ τ} {r : Replay σ} {sources : List (IndexEntry σ)}
  {targets : List (IndexEntry τ)} {done rest : List (Positioned τ)} {taken : List String}

theorem mem_take {p : Treated σ τ} {key : String} :
    key ∈ c.take taken p ↔ key ∈ taken ∨ p.isOpen = true ∧ c.keyOf p.1 = key := by
  unfold take
  split
  · next hopen => simp [hopen, or_comm, eq_comm]
  · next hopen => simp [hopen]

section

variable {p : Treated σ τ} {ts : List (Treated σ τ)}

/-- Without an override, a member is due if it is the first open one of its normalized name. -/
theorem due_iff_of_auto (hp : p.2.override? = none) :
    c.due taken p = true ↔ p.isOpen = true ∧ c.keyOf p.1 ∉ taken := by
  simp [due, hp]

/-- An overridden member is always on the agenda, under its override. -/
theorem agenda_of_override {b : Binding σ} (hb : p.2.override? = some b) :
    c.agenda taken (p :: ts) = ⟨p.1, some b⟩ :: c.agenda (c.take taken p) ts := by
  rw [agenda, due, hb, Option.isSome_some, Bool.true_or, if_pos rfl]

theorem agenda_of_new (hp : p.2.override? = none) (hopen : p.isOpen = true)
    (hnew : c.keyOf p.1 ∉ taken) :
    c.agenda taken (p :: ts) = ⟨p.1, none⟩ :: c.agenda (c.take taken p) ts := by
  rw [agenda, if_pos ((due_iff_of_auto hp).mpr ⟨hopen, hnew⟩), hp]

theorem agenda_of_not_due (h : ¬c.due taken p = true) :
    c.agenda taken (p :: ts) = c.agenda (c.take taken p) ts :=
  if_neg h

/-- The agenda depends on the comparer alone. -/
theorem agenda_congr {c' : Configuration σ τ}
    (h : c'.options.nameComparer = c.options.nameComparer) :
    c'.agenda taken ts = c.agenda taken ts := by
  have hkey : ∀ t : Member τ, c'.keyOf t = c.keyOf t := fun t => by rw [keyOf, keyOf, h]
  have hdue : ∀ taken (p : Treated σ τ), c'.due taken p = c.due taken p :=
    fun taken p => by rw [due, due, hkey]
  have htake : ∀ taken (p : Treated σ τ), c'.take taken p = c.take taken p :=
    fun taken p => by rw [take, take, hkey]
  induction ts generalizing taken with
  | nil => rfl
  | cons p ts ih => rw [agenda, agenda, hdue, htake, ih]

/-- The agenda of a list goes on where the names of the members before are taken. -/
theorem agenda_append (c : Configuration σ τ) (taken : List String) (ps qs : List (Treated σ τ)) :
    c.agenda taken (ps ++ qs) = c.agenda taken ps ++ c.agenda (ps.foldl c.take taken) qs := by
  induction ps generalizing taken with
  | nil => rfl
  | cons p ps ih =>
    rw [List.cons_append, agenda, agenda, ih, List.foldl_cons]
    split <;> rfl

/-- The names taken after several members are those before and those of the open ones. -/
theorem mem_foldl_take {key : String} : key ∈ ts.foldl c.take taken ↔
    key ∈ taken ∨ ∃ p ∈ ts, p.isOpen = true ∧ c.keyOf p.1 = key := by
  induction ts generalizing taken with
  | nil => simp
  | cons p ts ih => rw [List.foldl_cons, ih, mem_take, or_assoc, List.exists_mem_cons_iff]

/-- It matters which names are taken, not in which order or how often. -/
theorem agenda_of_mem_iff {taken' : List String} (h : ∀ key, key ∈ taken' ↔ key ∈ taken) :
    c.agenda taken' ts = c.agenda taken ts := by
  induction ts generalizing taken taken' with
  | nil => rfl
  | cons p ts ih =>
    have hdue : c.due taken' p = c.due taken p := by
      rw [due, due, List.contains_eq_mem, List.contains_eq_mem, decide_eq_decide.mpr (h _)]
    have hrest : c.agenda (c.take taken' p) ts = c.agenda (c.take taken p) ts :=
      ih fun key => by rw [mem_take, mem_take, h]
    rw [agenda, agenda, hdue, hrest]

/-- A task is of a listed member, by its override if it has one. -/
theorem exists_of_mem_agenda {task : Task σ τ} (h : task ∈ c.agenda taken ts) :
    ∃ p ∈ ts, task = ⟨p.1, p.2.override?⟩ := by
  induction ts generalizing taken with
  | nil => cases h
  | cons p ts ih =>
    have hrest : task ∈ c.agenda (c.take taken p) ts → ∃ q ∈ p :: ts, task = ⟨q.1, q.2.override?⟩ :=
      fun h => (ih h).imp fun q hq => ⟨List.mem_cons_of_mem _ hq.1, hq.2⟩
    rw [agenda] at h
    split at h
    · exact (List.mem_cons.mp h).elim (fun heq => ⟨p, List.mem_cons_self, heq⟩) hrest
    · exact hrest h

end

/-! ## The walk as work on an agenda -/

/-- The first entry whose name passes a test holds the first admitted member whose name does. -/
theorem find?_members (hs : c.indexSources r = .ok sources) (q : String → Bool) :
    (sources.find? fun e => q e.key).map IndexEntry.member =
      (c.admitted r).find? fun s => q (c.keyOf s) := by
  have hfind := find?_indexFrom q hs
  rw [List.find?_nil, Option.map_none, Option.none_or] at hfind
  have hmember := congrArg (Option.map Prod.snd) hfind
  rw [Option.map_map] at hmember
  rw [admitted, List.find?_map]
  exact hmember

/-- A target member is indexed at its position just when it is open and no open one of its
normalized name comes before it. -/
theorem listed_iff (ht : c.indexTargets r = .ok targets) {i : Nat} {t : Member τ}
    (hsplit : positioned c.targetMembers = done ++ (i, t) :: rest) :
    (∃ e, lookup (c.keyOf t) targets = some e ∧ e.position = i) ↔
      r.isOpen (i, t) = true ∧
        ∀ q ∈ done, r.isOpen q = true → c.keyOf q.2 ≠ c.keyOf t := by
  have hfind : (lookup (c.keyOf t) targets).map IndexEntry.listing =
      (c.eligibleTargets r).find? fun p => c.keyOf p.2 == c.keyOf t :=
    find?_indexFrom (fun key => key == c.keyOf t) ht
  have hlt := pairwise_positioned c.targetMembers
  rw [hsplit, List.pairwise_append, List.pairwise_cons] at hlt
  obtain ⟨-, ⟨hafter, -⟩, hbefore⟩ := hlt
  have heligible : c.eligibleTargets r =
      (done.filter r.isOpen) ++
        ((i, t) :: rest).filter r.isOpen := by
    rw [← List.filter_append, ← hsplit]
    rfl
  constructor
  · rintro ⟨e, he, rfl⟩
    rw [he, Option.map_some, heligible, List.find?_append] at hfind
    cases hdone : (done.filter r.isOpen).find? fun p => c.keyOf p.2 == c.keyOf t with
    | some q =>
      -- What is found among the members before stands at another position.
      rw [hdone, Option.some_or, Option.some_inj] at hfind
      have hmem := (List.mem_filter.mp (List.mem_of_find?_eq_some hdone)).1
      have hlt := hbefore q hmem (e.position, t) List.mem_cons_self
      rw [← hfind] at hlt
      exact absurd hlt (Nat.lt_irrefl _)
    | none =>
      rw [hdone, Option.none_or] at hfind
      refine ⟨?_, fun q hq hopen hkey => ?_⟩
      · obtain ⟨hmem, hopen⟩ := List.mem_filter.mp (List.mem_of_find?_eq_some hfind.symm)
        rcases List.mem_cons.mp hmem with heq | hmem
        · rwa [heq] at hopen
        · exact absurd (hafter _ hmem) (Nat.lt_irrefl _)
      · refine List.find?_eq_none.mp hdone q (List.mem_filter.mpr ⟨hq, hopen⟩) ?_
        exact beq_iff_eq.mpr hkey
  · rintro ⟨hopen, hnew⟩
    have hdone : (done.filter r.isOpen).find?
        (fun p => c.keyOf p.2 == c.keyOf t) = none := by
      rw [List.find?_eq_none]
      intro q hq hkey
      obtain ⟨hq, hqopen⟩ := List.mem_filter.mp hq
      exact hnew q hq hqopen (beq_iff_eq.mp hkey)
    have hhead : ((i, t) :: rest.filter r.isOpen).find? (fun p => c.keyOf p.2 == c.keyOf t) =
        some (i, t) := List.find?_cons_of_pos BEq.rfl
    rw [heligible, List.find?_append, hdone, Option.none_or, List.filter_cons_of_pos hopen,
      hhead] at hfind
    obtain ⟨e, he, hlisting⟩ := Option.map_eq_some_iff.mp hfind
    exact ⟨e, he, congrArg Prod.fst hlisting⟩

/-- What a walk leaves, given the tasks that it works off and what filled them. -/
def walked (c : Configuration σ τ) (sources : List (IndexEntry σ)) (tasks : List (Task σ τ))
    (filled : List (Filled σ τ)) : Walk σ τ where
  mappings := filled.map Filled.mapping
  remaining := sources.filter fun s => !(c.pairedNames tasks).contains s.key
  readNames := filled.flatMap Filled.readNames

/-- A task by name uses up its name. -/
theorem walked_of_new (c : Configuration σ τ) (sources : List (IndexEntry σ)) (t : Member τ)
    (tasks : List (Task σ τ)) (filled : List (Filled σ τ)) :
    c.walked sources (⟨t, none⟩ :: tasks) filled =
      c.walked (sources.filter fun s => s.key != c.keyOf t) tasks filled := by
  have hnames : c.pairedNames (⟨t, none⟩ :: tasks) = c.keyOf t :: c.pairedNames tasks := rfl
  simp only [walked, hnames, List.filter_filter, List.contains_cons, Bool.not_or, bne,
    Bool.and_comm]

/-- Where a walk is after the members `done`: the open ones have taken their names, and under any
other name the source members left are those that a search finds. -/
structure Remains (c : Configuration σ τ) (r : Replay σ) (ss : List (Member σ))
    (done : List (Positioned τ)) (taken : List String) (sources : List (IndexEntry σ)) : Prop where
  mem_taken : ∀ key, key ∈ taken ↔ ∃ q ∈ done, r.isOpen q = true ∧ c.keyOf q.2 = key
  found : ∀ key, key ∉ taken →
    (lookup key sources).map IndexEntry.member = ss.find? fun s => c.keyOf s == key

namespace Remains

variable {ss : List (Member σ)}

/-- One more member is done, and takes its name if it is open. -/
theorem snoc (h : c.Remains r ss done taken sources) (p : Positioned τ) :
    c.Remains r ss (done ++ [p]) (c.take taken (r.treated p)) sources where
  mem_taken key := by
    rw [mem_take, h.mem_taken]
    simp [or_and_right, exists_or, Replay.isOpen, Replay.treated]
  found key hnot := h.found key fun hmem => hnot (mem_take.mpr (.inl hmem))

/-- Source members of a name that is taken are not needed. -/
theorem filter (h : c.Remains r ss done taken sources) {key : String} (hkey : key ∈ taken) :
    c.Remains r ss done taken (sources.filter fun s => s.key != key) where
  mem_taken := h.mem_taken
  found key' hnot := by
    have hne : key' ≠ key := fun heq => hnot (heq ▸ hkey)
    rw [lookup_filter_of_ne _ hne, h.found key' hnot]

/-- A member without an override is due just when it is indexed at its position. -/
theorem due_iff (h : c.Remains r ss done taken sources) (ht : c.indexTargets r = .ok targets)
    {i : Nat} {t : Member τ} (hsplit : positioned c.targetMembers = done ++ (i, t) :: rest)
    (hi : r.override? i = none) : c.due taken (r.treated (i, t)) = true ↔
      ∃ e, lookup (c.keyOf t) targets = some e ∧ e.position = i := by
  have hkey : c.keyOf t ∉ taken ↔ ∀ q ∈ done, r.isOpen q = true → c.keyOf q.2 ≠ c.keyOf t := by
    rw [h.mem_taken]
    push Not
    rfl
  rw [listed_iff ht hsplit, due_iff_of_auto hi]
  exact and_congr_right fun _ => hkey

end Remains

/-- The walk over the members after those done works off their agenda. -/
theorem walk_eq_collect_of_remains (ht : c.indexTargets r = .ok targets) {ss : List (Member σ)}
    (hsplit : positioned c.targetMembers = done ++ rest)
    (h : c.Remains r ss done taken sources) :
    c.walk r targets sources rest =
      (Except.collect (c.fill ss) (c.agenda taken (rest.map r.treated))).map
        (c.walked sources (c.agenda taken (rest.map r.treated))) := by
  induction rest generalizing done sources taken with
  | nil => simp [walk, agenda, Except.collect, Except.map, walked, pairedNames]
  | cons p rest ih =>
    obtain ⟨i, t⟩ := p
    have hsplit' : positioned c.targetMembers = (done ++ [(i, t)]) ++ rest := by simp [hsplit]
    rw [List.map_cons]
    cases hi : r.override? i with
    | some b =>
      rw [walk_of_override hi, agenda_of_override hi, ih hsplit' (h.snoc (i, t))]
      simp only [Except.collect, fill, Except.map_bind, Except.bind_map, Except.map_map,
        Except.bind_bind]
      rfl
    | none =>
      by_cases hdue : c.due taken (r.treated (i, t)) = true
      · obtain ⟨e, he, hpos⟩ := (h.due_iff ht hsplit hi).mp hdue
        obtain ⟨hopen, hkey⟩ := (due_iff_of_auto hi).mp hdue
        have htaken : c.keyOf t ∈ c.take taken (r.treated (i, t)) :=
          mem_take.mpr (.inr ⟨hopen, rfl⟩)
        have hused := ih hsplit' ((h.snoc (i, t)).filter htaken)
        have hfind : (lookup (c.keyOf t) sources).map IndexEntry.member =
            ss.find? fun s => c.keyOf s == c.keyOf t := h.found _ hkey
        rw [walk_of_listed hi he hpos, agenda_of_new hi hopen hkey, Except.collect]
        cases hs : lookup (c.keyOf t) sources with
        | some s =>
          rw [hs, Option.map_some] at hfind
          simp only [fill, Replay.treated, ← hfind, hused, walked_of_new, Except.map_bind,
            Except.bind_map, Except.map_map]
          rfl
        | none =>
          -- There is nothing to use up, so the walk goes on with all that is left.
          have hsame : (sources.filter fun s => s.key != c.keyOf t) = sources := by
            rw [List.filter_eq_self]
            exact fun s hs' => bne_iff_ne.mpr (lookup_eq_none_iff.mp hs s hs')
          have hwalked : ∀ tasks filled, c.walked sources (⟨t, none⟩ :: tasks) filled =
              c.walked sources tasks filled := fun tasks filled => by rw [walked_of_new, hsame]
          rw [hs, Option.map_none] at hfind
          simp only [fill, Replay.treated, ← hfind, ih hsplit' (h.snoc (i, t))]
          split
          · rfl
          · simp only [Except.bind, Except.map_map, hwalked]
            rfl
      · have hunlisted := mt (h.due_iff ht hsplit hi).mpr hdue
        rw [walk_of_unlisted hi fun e he hpos => hunlisted ⟨e, he, hpos⟩, agenda_of_not_due hdue,
          ih hsplit' (h.snoc (i, t))]

/-- A walk over all target members works off the agenda of all, each task on its own. -/
theorem walk_eq_collect (hs : c.indexSources r = .ok sources)
    (ht : c.indexTargets r = .ok targets) :
    c.walk r targets sources (positioned c.targetMembers) =
      (Except.collect (c.fill (c.admitted r)) (c.agenda [] (c.treated r))).map
        (c.walked sources (c.agenda [] (c.treated r))) := by
  refine walk_eq_collect_of_remains ht (List.nil_append _).symm ⟨by simp, fun key _ => ?_⟩
  exact find?_members hs fun key' => key' == key

/-! ## Validation -/

/-- The index of the source side holds the first admitted member of each normalized name. -/
theorem members_indexSources (c : Configuration σ τ) (r : Replay σ) :
    (c.indexSources r).map (List.map IndexEntry.member) =
      firstOfEach c.options.nameComparer (ownerLabel c.sourceType c.sourceMembers) []
        (c.admitted r) :=
  @members_indexFrom _ _ _ _ [] (List.forall_mem_nil _)

/-- The index of the target side holds the first open member of each normalized name. -/
theorem members_indexTargets (c : Configuration σ τ) (r : Replay σ) :
    (c.indexTargets r).map (List.map IndexEntry.member) =
      firstOfEach c.options.nameComparer (ownerLabel c.targetType c.targetMembers) []
        (((c.treated r).filter Treated.isOpen).map Prod.fst) := by
  rw [treated, List.filter_map, List.map_map]
  exact @members_indexFrom _ _ _ _ [] (List.forall_mem_nil _)

/-- What is left of the source members after the walk is missed just when no task and no override
has its name. -/
theorem checkSources_walked (hs : c.indexSources r = .ok sources) (tasks : List (Task σ τ))
    (filled : List (Filled σ τ)) :
    c.checkSources (c.walked sources tasks filled) =
      match c.missed? (c.admitted r) tasks filled with
      | some s => .error (.unmappedSource (ownerLabel c.sourceType c.sourceMembers) s.name)
      | none => .ok (filled.map Filled.mapping) := by
  have hfind := find?_members hs fun key => !(c.pairedNames tasks).contains key &&
    !(filled.flatMap Filled.readNames).contains key
  rw [checkSources, missed?]
  split
  · rw [walked, List.find?_filter, ← hfind]
    simp only [Bool.decide_and, Bool.decide_eq_true]
    cases (sources.find? _) <;> rfl
  · rfl

/-- Once the directives are replayed, validation depends on the admitted source members and the
treated target members, in their order. -/
theorem validate_eq_settle (c : Configuration σ τ) :
    c.validate = c.replay.bind fun r => c.settle (c.admitted r) (c.treated r) := by
  have hsettle : ∀ r, ((c.indexSources r).bind fun sources => (c.indexTargets r).bind fun targets =>
      (c.walk r targets sources (positioned c.targetMembers)).bind c.checkSources) =
        c.settle (c.admitted r) (c.treated r) := by
    intro r
    rw [settle, ← members_indexSources, ← members_indexTargets]
    cases hs : c.indexSources r with
    | error e => rfl
    | ok sources =>
      cases ht : c.indexTargets r with
      | error e => rfl
      | ok targets =>
        simp only [Except.bind, Except.map, walk_eq_collect hs ht]
        cases Except.collect (c.fill (c.admitted r)) (c.agenda [] (c.treated r)) with
        | error e => rfl
        | ok filled => exact checkSources_walked hs _ filled
  simp only [validate, hsettle]

end Configuration

end Crosswalk
