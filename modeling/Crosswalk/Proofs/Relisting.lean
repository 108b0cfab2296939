import Crosswalk.Proofs.Demands

/-!
# Repeated listings

A member that is listed once more, after a listing of it, changes nothing (`Relisted`). A search
ends before it, the members of a name are as they were, and so are the first members of each
name (`Relisted.soleMember_eq`, `Relisted.firstOfEach_eq`). A repeated target member is a later
listing of its name: no override reaches it, and where it is open the listing before is, which has
taken the name (`Configuration.tasks_relisted`). So validation gives the same list or the same
failure (`Configuration.validate_relisted`).
-/

namespace Crosswalk

variable {σ τ : Type}

/-! ## One more listing -/

/-- The second list has a member of the first once more at most, after a listing of it. -/
inductive Relisted : List (Member σ) → List (Member σ) → Prop
  | same (ms : List (Member σ)) : Relisted ms ms
  | again {before : List (Member σ)} {m : Member σ} (h : m ∈ before) (after : List (Member σ)) :
      Relisted (before ++ after) (before ++ m :: after)

/-- A search does not come to an element that was passed before. -/
theorem find?_append_cons_of_mem {α : Type} {xs : List α} {a : α} (h : a ∈ xs) (ys : List α)
    (p : α → Bool) : (xs ++ a :: ys).find? p = (xs ++ ys).find? p := by
  rw [List.find?_append, List.find?_append, List.find?_cons]
  cases ha : p a with
  | false => rfl
  | true =>
    obtain ⟨b, hb⟩ := Option.isSome_iff_exists.mp (List.find?_isSome.mpr ⟨a, h, ha⟩)
    rw [hb, Option.some_or, Option.some_or]

namespace Relisted

variable {ms ms' : List (Member σ)} {comparer : NameComparer}

/-- A search over the members finds the same one. -/
theorem find?_eq (h : Relisted ms ms') (p : Member σ → Bool) : ms'.find? p = ms.find? p := by
  cases h with
  | same => rfl
  | again hm after => exact find?_append_cons_of_mem hm after p

/-- The listed members are the same. -/
theorem mem_iff (h : Relisted ms ms') (m : Member σ) : m ∈ ms' ↔ m ∈ ms := by
  cases h with
  | same => exact Iff.rfl
  | @again before a hm after =>
    rw [List.mem_append, List.mem_cons, List.mem_append]
    constructor
    · rintro (hbefore | rfl | hafter)
      · exact .inl hbefore
      · exact .inl hm
      · exact .inr hafter
    · exact fun h => h.imp_right .inr

/-- The label of the owner is read off the first member, before which nothing is listed. -/
theorem ownerLabel_eq (h : Relisted ms ms') (typeName : String) :
    ownerLabel typeName ms' = ownerLabel typeName ms := by
  cases h with
  | same => rfl
  | @again before m hm after =>
    cases before with
    | nil => cases hm
    | cons b bs => rfl

/-- Members that are picked out are relisted, or the same. -/
theorem filter (h : Relisted ms ms') (q : Member σ → Bool) :
    Relisted (ms.filter q) (ms'.filter q) := by
  cases h with
  | same => exact .same _
  | @again before m hm after =>
    rw [List.filter_append, List.filter_append, List.filter_cons]
    split
    · next hq => exact .again (List.mem_filter.mpr ⟨hm, hq⟩) _
    · exact .same _

/-- A name leads to the same member, or fails to in the same way. -/
theorem soleMember_eq (h : Relisted ms ms') (typeName : String) (comparer : NameComparer)
    (name : String) :
    soleMember typeName comparer ms' name = soleMember typeName comparer ms name := by
  have hstanding : Relisted (standing comparer ms name) (standing comparer ms' name) := by
    have hcongr : standing comparer ms' name =
        ms'.filter fun m => decide (Stands comparer ms name m.name) :=
      List.filter_congr fun m _ => decide_eq_decide.mpr (stands_congr h.mem_iff)
    rw [hcongr]
    exact h.filter _
  rw [soleMember, soleMember, h.ownerLabel_eq]
  generalize standing comparer ms name = found at hstanding
  generalize standing comparer ms' name = found' at hstanding
  cases hstanding with
  | same => rfl
  | @again before m hm after =>
    cases before with
    | nil => cases hm
    | cons b bs =>
      -- The head is no different member, so it may be searched as well.
      have hrest : (bs ++ m :: after).find? (fun q => !(q == b)) =
          (bs ++ after).find? fun q => !(q == b) := by
        have hfind := find?_append_cons_of_mem hm after fun q => !(q == b)
        simpa only [List.cons_append, List.find?_cons, BEq.rfl, Bool.not_true] using hfind
      simp only [List.cons_append, hrest]

end Relisted

/-! ## First members of each name -/

section

variable {comparer : NameComparer} {owner : String}

/-- The first members of the names are the same, and so is the first clash. -/
theorem Relisted.firstOfEach_eq {ms ms' : List (Member σ)} (h : Relisted ms ms') :
    firstOfEach comparer owner [] ms' = firstOfEach comparer owner [] ms := by
  cases h with
  | same => rfl
  | @again before m hm after =>
    rw [firstOfEach_append, firstOfEach_append]
    cases hbefore : firstOfEach comparer owner [] before with
    | error e => rfl
    | ok known =>
      obtain ⟨k, hk, hsame⟩ := exists_find?_of_firstOfEach hbefore hm
      show firstOfEach comparer owner known (m :: after) = firstOfEach comparer owner known after
      rw [firstOfEach, hk]
      exact if_pos hsame

end

namespace Configuration

variable {c : Configuration σ τ}

/-- The names of the overrides are checked by the members that they lead to alone. -/
theorem checkNames_congr {c' : Configuration σ τ}
    (h : ∀ name, soleMember c'.targetType c'.options.nameComparer c'.targetMembers name =
      soleMember c.targetType c.options.nameComparer c.targetMembers name)
    (ds : List (Directive σ)) : c'.checkNames ds = c.checkNames ds := by
  induction ds with
  | nil => rfl
  | cons d ds ih =>
    cases d with
    | bind name b => rw [checkNames, checkNames, h, ih]
    | ignoreSource | ignoreTarget | reset => exact ih

/-! ## A source member once more -/

section

variable {sources : List (Member σ)}

/-- A source member that is relisted is acquitted at both listings, or at neither. -/
theorem acquitted_relisted (h : Relisted c.sourceMembers sources) :
    Relisted c.acquitted { c with sourceMembers := sources }.acquitted := by
  have hignores : (c.relist sources c.targetMembers).ignores = c.ignores := ignores_relist h.mem_iff
  show Relisted (c.sourceMembers.filter _)
    (sources.filter fun s => s.canRead && !(c.relist sources c.targetMembers).ignores s.name)
  rw [hignores]
  exact h.filter _

/-- Overrides read the same source members. -/
theorem resolveBinding_relisted (h : Relisted c.sourceMembers sources) :
    { c with sourceMembers := sources }.resolveBinding = c.resolveBinding := by
  have hfind : { c with sourceMembers := sources }.findSource = c.findSource := by
    funext name
    rw [findSource, findSource, findMember_map_snd, findMember_map_snd]
    exact h.soleMember_eq ..
  funext b
  cases b with
  | member name => rw [resolveBinding, resolveBinding, hfind]
  | expression e => rw [resolveBinding, resolveBinding, hfind]
  | delegate d => rfl

/-- Each task is filled alike. -/
theorem fill_relisted (h : Relisted c.sourceMembers sources) {ss ss' : List (Member σ)}
    (hss : Relisted ss ss') : { c with sourceMembers := sources }.fill ss' = c.fill ss := by
  funext task
  rw [fill, fill, resolveBinding_relisted h, hss.find?_eq]
  rfl

/-- A source member once more changes nothing. -/
theorem validate_relisted_source (h : Relisted c.sourceMembers sources) :
    { c with sourceMembers := sources }.validate = c.validate := by
  have hss := acquitted_relisted h
  have hnames : { c with sourceMembers := sources }.checkNames c.directives =
      c.checkNames c.directives := checkNames_congr (fun _ => by rfl) _
  have hopen : { c with sourceMembers := sources }.openMembers c.targetMembers =
      c.openMembers c.targetMembers := openMembers_congr rfl
  have htasks : { c with sourceMembers := sources }.tasks [] c.targetMembers =
      c.tasks [] c.targetMembers := tasks_congr rfl rfl
  simp only [validate_eq_tasks, hnames, hopen, htasks, hss.firstOfEach_eq, h.ownerLabel_eq,
    fill_relisted h hss, missed?, hss.find?_eq]
  rfl

end

/-! ## A target member once more -/

section

variable {targets : List (Member τ)}

section

variable {before : List (Member τ)} {t : Member τ}

/-- A name is no more listed before for being listed twice. -/
theorem judge_again (c : Configuration σ τ) (ht : t ∈ before) (after : List (Member τ)) :
    c.judge (before ++ [t]) after = c.judge before after := by
  refine judge_of_mem_iff fun u => ?_
  rw [List.mem_append, List.mem_singleton]
  exact ⟨fun h => h.elim id fun heq => heq ▸ ht, .inl⟩

/-- A later listing is not due, and what it takes is taken. -/
theorem tasks_again (c : Configuration σ τ) (ht : t ∈ before) (after : List (Member τ)) :
    c.tasks before (t :: after) = c.tasks before after := by
  have htaken : ∀ key, key ∈ c.taken (before ++ [t]) ↔ key ∈ c.taken before := by
    intro key
    rw [taken_append_singleton, mem_take]
    refine ⟨fun h => h.elim id fun ⟨hopen, hkey⟩ => ?_, .inl⟩
    exact hkey ▸ keyOf_mem_taken_of_listed ht BEq.rfl hopen
  rw [tasks_cons, if_neg (not_due_of_listed ht BEq.rfl), tasks, tasks, judge_again c ht,
    agenda_of_mem_iff htaken]

/-- Where a later listing is open, so is the one before. -/
theorem mem_openMembers_of_later (ht : t ∈ before) (hopen : (c.entry before t).isOpen = true) :
    t ∈ c.openMembers before := by
  obtain ⟨us, vs, hsplit⟩ := List.append_of_mem ht
  obtain ⟨hwrite, hopen⟩ := isOpen_entry_iff.mp hopen
  rw [isFirst_eq_false_iff.mpr ⟨t, ht, rfl⟩] at hopen
  exact mem_openMembers_of_split hsplit (isOpen_entry_of_later hwrite hopen us)

end

/-- A target member once more makes no task. -/
theorem tasks_relisted (h : Relisted c.targetMembers targets) :
    c.tasks [] targets = c.tasks [] c.targetMembers := by
  generalize c.targetMembers = ts at h
  cases h with
  | same => rfl
  | again ht after => rw [tasks_append, tasks_append, tasks_again c ht]

/-- The open members are relisted, or the same. -/
theorem openMembers_relisted (h : Relisted c.targetMembers targets) :
    Relisted (c.openMembers c.targetMembers) (c.openMembers targets) := by
  generalize c.targetMembers = ts at h
  cases h with
  | same => exact .same _
  | @again before t ht after =>
    have hjudge : c.judge [] (before ++ t :: after) =
        c.judge [] before ++ c.entry before t :: c.judge before after := by
      rw [judge_append, List.nil_append, judge, judge_again c ht, entry]
    rw [openMembers, openMembers, hjudge, judge_append, List.nil_append, List.filter_append,
      List.filter_append, List.map_append, List.map_append, List.filter_cons]
    split
    · next hopen => exact .again (mem_openMembers_of_later ht hopen) _
    · exact .same _

/-- A target member once more changes nothing. -/
theorem validate_relisted_target (h : Relisted c.targetMembers targets) :
    { c with targetMembers := targets }.validate = c.validate := by
  have hverdict : (c.relist c.sourceMembers targets).verdict = c.verdict := verdict_relist h.mem_iff
  have hnames : { c with targetMembers := targets }.checkNames c.directives =
      c.checkNames c.directives := checkNames_congr (h.soleMember_eq _ _) _
  have hacquitted : { c with targetMembers := targets }.acquitted = c.acquitted := rfl
  have hopen : { c with targetMembers := targets }.openMembers targets = c.openMembers targets :=
    openMembers_congr hverdict
  have htasks : { c with targetMembers := targets }.tasks [] targets =
      c.tasks [] c.targetMembers := by
    rw [← tasks_relisted h]
    exact tasks_congr hverdict rfl
  have hfill : { c with targetMembers := targets }.fill = c.fill := by
    funext ss task
    rw [fill, fill, h.ownerLabel_eq]
    rfl
  simp only [validate_eq_tasks, hnames, hacquitted, hopen, htasks,
    (openMembers_relisted h).firstOfEach_eq, h.ownerLabel_eq, hfill]
  rfl

end

/-- A clone of a listed member anywhere after it changes neither the list nor the failure. -/
theorem validate_relisted (c : Configuration σ τ) :
    (∀ (before after : List (Member σ)) (s : Member σ), c.sourceMembers = before ++ after →
      s ∈ before → { c with sourceMembers := before ++ s :: after }.validate = c.validate) ∧
    ∀ (before after : List (Member τ)) (t : Member τ), c.targetMembers = before ++ after →
      t ∈ before → { c with targetMembers := before ++ t :: after }.validate = c.validate := by
  refine ⟨fun before after s hsplit hs => validate_relisted_source ?_,
    fun before after t hsplit ht => validate_relisted_target ?_⟩
  · rw [hsplit]
    exact .again hs after
  · rw [hsplit]
    exact .again ht after

/-- Players to the lines of a roster, which call the number otherwise. -/
def roster : Configuration Record Record :=
  let player : RecordSchema := ⟨"Player", [⟨"No", .int .i32⟩, ⟨"Name", .string⟩]⟩
  let line : RecordSchema := ⟨"Line", [⟨"Number", .int .i32⟩, ⟨"Name", .string⟩]⟩
  (new "Player" "Line" player.members line.members).mapMember "Number" "No"

/-- A number listed again, as what is read and as what is bound. -/
theorem validate_relisted_roster : ∃ no name number name' ms,
    roster.sourceMembers = [no, name] ∧ roster.targetMembers = [number, name'] ∧
    roster.validate = .ok ms ∧ ms.length = 2 ∧
    { roster with sourceMembers := [no, name, no] }.validate = .ok ms ∧
    { roster with targetMembers := [number, number, name'] }.validate = .ok ms := by
  have hms : ∃ ms, roster.validate = .ok ms ∧ ms.length = 2 := ⟨_, rfl, rfl⟩
  obtain ⟨ms, hms, hlength⟩ := hms
  refine ⟨_, _, _, _, ms, rfl, rfl, hms, hlength, ?_, ?_⟩
  · rw [← hms]
    exact (validate_relisted roster).1 [_, _] [] _ rfl List.mem_cons_self
  · rw [← hms]
    exact (validate_relisted roster).2 [_] [_] _ rfl List.mem_cons_self

end Configuration

end Crosswalk
