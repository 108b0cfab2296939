import Crosswalk.Text.TypeName

/-!
# Laws of short type names

A path mark `::` counts where no `<` comes before it (`Marked`). What `afterPath` gives follows the
last mark that counts: none does in it, even together with the second colon of that mark
(`afterPath_eq_some_iff`), and without a mark there is nothing to give
(`afterPath_eq_none_iff`). So the short name is a last segment of the name, which has no mark of its
own and comes after a whole path without arguments (`LastSegment`). The description leaves a choice
only where three colons run, since the first two of them are a mark as well as the last two; the
short name is then the shorter segment (`shortTypeName_laws`).
-/

namespace Crosswalk.Text

/-- A path mark stands before every `<`. -/
def Marked (cs : List Char) : Prop := [':', ':'] <:+: cs.takeWhile (· != '<')

/-- The name is a whole path without arguments, or none, and then a segment `r` with its
arguments. -/
structure LastSegment (name path r : String) : Prop where
  whole : name = path ++ r
  ending : path = "" ∨ ∃ q, path = q ++ "::"
  plain : '<' ∉ path.toList
  segment : ¬Marked r.toList

variable {c : Char} {cs q r : List Char} {name path seg : String}

/-! ## Marks -/

theorem not_marked_nil : ¬Marked [] := by
  simp [Marked]

/-- A text is marked by a double colon at its head, or after it, unless arguments come first. -/
theorem marked_cons_iff : Marked (c :: cs) ↔
    c ≠ '<' ∧ (c = ':' ∧ cs.head? = some ':' ∨ Marked cs) := by
  by_cases hc : c = '<'
  · simp [Marked, hc]
  · have hhead : [':', ':'] <+: c :: cs.takeWhile (· != '<') ↔ c = ':' ∧ cs.head? = some ':' := by
      cases cs with
      | nil => simp
      | cons d cs =>
        by_cases hd : d = '<'
        · simp [hd]
        · simp [hd, eq_comm (a := ':')]
    simp only [Marked, List.takeWhile_cons, bne_iff_ne, ne_eq, hc, not_false_eq_true, if_true,
      List.infix_cons_iff, hhead, true_and]

theorem Marked.cons_colon (h : Marked cs) : Marked (':' :: cs) :=
  marked_cons_iff.mpr ⟨by decide, .inr h⟩

/-! ## After the last mark -/

theorem afterPath_arguments (cs : List Char) : afterPath ('<' :: cs) = none := by
  unfold afterPath
  rfl

/-- The last mark is looked for behind the head, and at the head if there is none. -/
theorem afterPath_cons (hc : c ≠ '<') : afterPath (c :: cs) =
    (afterPath cs).or (if c = ':' ∧ cs.head? = some ':' then some cs.tail else none) := by
  rw [afterPath.eq_def]
  dsimp only
  rw [if_neg hc]
  cases afterPath cs with
  | some r => rfl
  | none =>
    cases cs with
    | nil => simp
    | cons d cs => simp

/-- Nothing comes after a path just where there is no mark. -/
theorem afterPath_eq_none_iff : afterPath cs = none ↔ ¬Marked cs := by
  induction cs with
  | nil => simp [afterPath, not_marked_nil]
  | cons c cs ih =>
    by_cases hc : c = '<'
    · simp [hc, afterPath_arguments, marked_cons_iff]
    · rw [afterPath_cons hc, Option.or_eq_none_iff, ih, marked_cons_iff]
      simp [hc, and_comm]

/-- What is given follows a mark, and no mark comes after the first colon of it. -/
theorem afterPath_eq_some_iff : afterPath cs = some r ↔
    ∃ q, cs = q ++ ':' :: ':' :: r ∧ '<' ∉ q ∧ ¬Marked (':' :: r) := by
  constructor
  · intro h
    induction cs with
    | nil => cases h
    | cons c cs ih =>
      by_cases hc : c = '<'
      · rw [hc, afterPath_arguments] at h
        cases h
      · rw [afterPath_cons hc, Option.or_eq_some_iff] at h
        rcases h with h | ⟨hnone, h⟩
        · obtain ⟨q, rfl, hq, hr⟩ := ih h
          refine ⟨c :: q, rfl, ?_, hr⟩
          simpa [eq_comm] using ⟨hc, hq⟩
        · split at h
          · next hmark =>
            obtain ⟨rfl, hhead⟩ := hmark
            cases cs with
            | nil => cases hhead
            | cons d cs =>
              cases hhead
              cases h
              exact ⟨[], rfl, List.not_mem_nil, afterPath_eq_none_iff.mp hnone⟩
          · cases h
  · rintro ⟨q, rfl, hq, hr⟩
    induction q with
    | nil =>
      rw [List.nil_append, afterPath_cons (by decide), afterPath_eq_none_iff.mpr hr]
      rfl
    | cons a q ih =>
      rw [List.mem_cons, not_or] at hq
      rw [List.cons_append, afterPath_cons (Ne.symm hq.1), ih hq.2, Option.some_or]

/-! ## Short names -/

theorem toList_shortTypeName (name : String) :
    (shortTypeName name).toList = (afterPath name.toList).getD name.toList := by
  rw [shortTypeName]
  cases afterPath name.toList with
  | none => rfl
  | some r => exact String.toList_ofList

/-- A name without a mark is its own short name. -/
theorem shortTypeName_of_not_marked (h : ¬Marked name.toList) : shortTypeName name = name := by
  rw [← String.toList_inj, toList_shortTypeName, afterPath_eq_none_iff.mpr h, Option.getD_none]

/-- The short name follows the last mark. -/
theorem shortTypeName_append {path : String} (hplain : '<' ∉ path.toList)
    (h : ¬Marked (':' :: seg.toList)) : shortTypeName (path ++ "::" ++ seg) = seg := by
  have hsome : afterPath (path ++ "::" ++ seg).toList = some seg.toList := by
    refine afterPath_eq_some_iff.mpr ⟨path.toList, ?_, hplain, h⟩
    simp [String.toList_append]
  rw [← String.toList_inj, toList_shortTypeName, hsome, Option.getD_some]

/-- The short name is a last segment of the name. -/
theorem lastSegment_shortTypeName (name : String) :
    ∃ path, LastSegment name path (shortTypeName name) := by
  cases h : afterPath name.toList with
  | none =>
    have hmark := afterPath_eq_none_iff.mp h
    rw [shortTypeName_of_not_marked hmark]
    exact ⟨"", (String.empty_append).symm, .inl rfl, List.not_mem_nil, hmark⟩
  | some r =>
    obtain ⟨q, hname, hplain, hr⟩ := afterPath_eq_some_iff.mp h
    have hshort : (shortTypeName name).toList = r := by
      rw [toList_shortTypeName, h, Option.getD_some]
    refine ⟨String.ofList q ++ "::", ?_, .inr ⟨_, rfl⟩, ?_, fun hmark => hr ?_⟩
    · rw [← String.toList_inj, hname]
      simp [String.toList_append, hshort]
    · simpa [String.toList_append] using hplain
    · exact (hshort ▸ hmark).cons_colon

/-- A segment that has a mark only with a colon before it starts with a colon. -/
theorem exists_eq_colon_append (h : Marked (':' :: seg.toList)) (hseg : ¬Marked seg.toList) :
    ∃ r, seg = ":" ++ r := by
  have hhead : seg.toList.head? = some ':' := ((marked_cons_iff.mp h).2.resolve_right hseg).2
  obtain ⟨r, hr⟩ := List.head?_eq_some_iff.mp hhead
  refine ⟨String.ofList r, ?_⟩
  rw [← String.toList_inj, hr]
  simp [String.toList_append]

/-- Any last segment is the short name, up to the first of three colons. -/
theorem LastSegment.shortTypeName_cases {path : String} (h : LastSegment name path seg) :
    seg = shortTypeName name ∨
      seg = ":" ++ shortTypeName name ∧ ∃ q, name = q ++ ":::" ++ shortTypeName name := by
  rcases h.ending with rfl | ⟨q, rfl⟩
  · have hname : name = seg := by rw [h.whole, String.empty_append]
    rw [hname, shortTypeName_of_not_marked h.segment]
    exact .inl rfl
  · have hplain : '<' ∉ q.toList := by simpa [String.toList_append] using h.plain
    by_cases hmark : Marked (':' :: seg.toList)
    · -- The segment starts with a colon, and the last mark is one colon later.
      obtain ⟨r, rfl⟩ := exists_eq_colon_append hmark h.segment
      have hname : name = (q ++ ":") ++ "::" ++ r := by
        rw [h.whole, ← String.toList_inj]
        simp [String.toList_append]
      have hlater : '<' ∉ (q ++ ":").toList := by simpa [String.toList_append] using hplain
      have hsegment : ¬Marked (':' :: r.toList) := by
        simpa [String.toList_append] using h.segment
      have hshort : shortTypeName name = r := by
        rw [hname, shortTypeName_append hlater hsegment]
      refine .inr ⟨by rw [hshort], q, ?_⟩
      rw [hshort, hname, ← String.toList_inj]
      simp [String.toList_append]
    · rw [h.whole, shortTypeName_append hplain hmark]
      exact .inl rfl

/-! ## The laws -/

/-- Which part of its name a short name is. -/
structure ShortNameLaws (name : String) : Prop where
  lastSegment : ∃ path, LastSegment name path (shortTypeName name)
  /-- There is no other last segment, but where three colons run before this one the third may
  count as part of it. -/
  unique : ∀ path r, LastSegment name path r → r = shortTypeName name ∨
    r = ":" ++ shortTypeName name ∧ ∃ q, name = q ++ ":::" ++ shortTypeName name
  /-- From the first `<` on nothing changes. -/
  arguments : (shortTypeName name).toList.dropWhile (· != '<') = name.toList.dropWhile (· != '<')
  idempotent : shortTypeName (shortTypeName name) = shortTypeName name

theorem shortTypeName_laws (name : String) : ShortNameLaws name where
  lastSegment := lastSegment_shortTypeName name
  unique _ _ h := h.shortTypeName_cases
  arguments := by
    obtain ⟨path, h⟩ := lastSegment_shortTypeName name
    have hpath : ∀ c ∈ path.toList, (c != '<') = true :=
      fun c hc => bne_iff_ne.mpr fun heq => h.plain (heq ▸ hc)
    have hname : name.toList = path.toList ++ (shortTypeName name).toList := by
      rw [← String.toList_append, ← h.whole]
    rw [hname, List.dropWhile_append_of_pos hpath]
  idempotent := by
    obtain ⟨path, h⟩ := lastSegment_shortTypeName name
    exact shortTypeName_of_not_marked h.segment

/-- Arguments keep their paths, and of three colons the last two are the mark. -/
example : shortTypeName "a::b:::Pair<x::Y>" = "Pair<x::Y>" := by decide

end Crosswalk.Text
