import Crosswalk.Proofs.NameKeys

/-!
# Names that differ in separators and blanks

A normalized key leaves out separators and blanks after lower-casing. Before that they may part a
word, which shows in the capital sigmas: one that ends a word goes to the final sigma. So names that
differ in separators and blanks alone have equal keys just if the same of their capital sigmas end
words (`normalize_of_respaced`), and `ΤΥΠΟΣ_ΟΔΟΥ` has not the key of `ΤΥΠΟΣΟΔΟΥ`
(`normalize_parted`). A full stop never parts a word (`normalize_of_dotted`).
-/

namespace Crosswalk

namespace Text

/-! ## Characters put in and taken out -/

/-- The texts are the same but for characters of a class, put in and taken out anywhere. -/
inductive Respaced (gap : Char → Bool) : List Char → List Char → Prop
  | nil : Respaced gap [] []
  | keep {as bs} (c : Char) (h : Respaced gap as bs) : Respaced gap (c :: as) (c :: bs)
  | insert {as bs c} (hc : gap c = true) (h : Respaced gap as bs) : Respaced gap as (c :: bs)
  | delete {as bs c} (hc : gap c = true) (h : Respaced gap as bs) : Respaced gap (c :: as) bs

variable {gap : Char → Bool} {as bs before before' : List Char} {c : Char}

/-- Texts differ by characters of the class just if without these they are the same. -/
theorem respaced_iff :
    Respaced gap as bs ↔ as.filter (fun c => !gap c) = bs.filter fun c => !gap c := by
  constructor
  · intro h
    induction h with
    | nil => rfl
    | keep c _ ih => rw [List.filter_cons, List.filter_cons, ih]
    | insert hc _ ih => rw [ih, List.filter_cons_of_neg (by simp [hc])]
    | delete hc _ ih => rw [List.filter_cons_of_neg (by simp [hc]), ih]
  · intro h
    induction as generalizing bs with
    | nil =>
      induction bs with
      | nil => exact .nil
      | cons d bs ih =>
        cases hd : gap d with
        | true => exact .insert hd (ih (by simpa [hd] using h))
        | false => simp [hd] at h
    | cons c as ih =>
      cases hc : gap c with
      | true => exact .delete hc (ih (by simpa [hc] using h))
      | false =>
        -- What is kept of the first text is found behind what was put into the second.
        induction bs with
        | nil => simp [hc] at h
        | cons d bs ihbs =>
          cases hd : gap d with
          | true => exact .insert hd (ihbs (by simpa [hd] using h))
          | false =>
            simp only [List.filter_cons, hc, hd, Bool.not_false, if_true, List.cons.injEq] at h
            obtain ⟨rfl, hrest⟩ := h
            exact .keep c (ih hrest)

theorem Respaced.mono {gap' : Char → Bool} (hle : ∀ c, gap c = true → gap' c = true)
    (h : Respaced gap as bs) : Respaced gap' as bs := by
  induction h with
  | nil => exact .nil
  | keep c _ ih => exact .keep c ih
  | insert hc _ ih => exact .insert (hle _ hc) ih
  | delete hc _ ih => exact .delete (hle _ hc) ih

theorem mem_of_respaced (h : Respaced gap as bs) (hc : gap c = false) (hmem : c ∈ bs) : c ∈ as := by
  have hkept : c ∈ as.filter fun c => !gap c := by
    rw [respaced_iff.mp h]
    exact List.mem_filter.mpr ⟨hmem, by simp [hc]⟩
  exact List.mem_of_mem_filter hkept

/-! ## The ends of words -/

/-- For each capital sigma of a text, in order, whether it ends a word, where `before`, read
backwards, stands in front of the text. -/
def wordEndsFrom (before : List Char) : List Char → List Bool
  | [] => []
  | c :: cs =>
    if c = '\u03a3' then endsWord before cs :: wordEndsFrom (c :: before) cs
    else wordEndsFrom (c :: before) cs

/-- For each capital sigma of a text, in order, whether it ends a word. -/
def wordEnds (cs : List Char) : List Bool := wordEndsFrom [] cs

/-- A text without a capital sigma has no end of a word to show. -/
theorem wordEndsFrom_of_not_mem (h : '\u03a3' ∉ as) : wordEndsFrom before as = [] := by
  induction as generalizing before with
  | nil => rfl
  | cons c as ih =>
    obtain ⟨hc, has⟩ := not_or.mp (mt List.mem_cons.mpr h)
    rw [wordEndsFrom, if_neg (Ne.symm hc), ih has]

/-- A gap has no part in what is spelled, and is no sigma. -/
theorem spelled_lowerFrom_of_gap (before : List Char) (hc : isGap c = true) (as : List Char) :
    spelled (lowerFrom before (c :: as)) = spelled (lowerFrom (c :: before) as) ∧
      wordEndsFrom before (c :: as) = wordEndsFrom (c :: before) as := by
  have hsigma : c ≠ '\u03a3' := by
    rintro rfl
    exact absurd hc (by decide)
  rw [lowerFrom, wordEndsFrom, if_neg hsigma, if_neg hsigma, lowerChar_of_isGap hc,
    List.singleton_append, spelled_cons_of_gap hc]
  exact ⟨rfl, rfl⟩

/-- The form of a sigma is spelled, and tells whether it ends a word. -/
theorem spelled_sigma (ends : Bool) (as : List Char) :
    spelled ([if ends then '\u03c2' else '\u03c3'] ++ as) =
      (if ends then '\u03c2' else '\u03c3') :: spelled as :=
  spelled_cons_of_not_gap (by cases ends <;> decide) as

theorem sigma_inj {e e' : Bool} :
    (if e then '\u03c2' else '\u03c3') = (if e' then '\u03c2' else '\u03c3') ↔ e = e' := by
  cases e <;> cases e' <;> decide

/-- What is spelled of the lower case tells which capital sigmas end words, and beyond these only
what is spelled of the text. -/
theorem spelled_lowerFrom_eq_iff (h : Respaced isGap as bs) :
    spelled (lowerFrom before as) = spelled (lowerFrom before' bs) ↔
      wordEndsFrom before as = wordEndsFrom before' bs := by
  induction h generalizing before before' with
  | nil => exact iff_of_true rfl rfl
  | @keep as bs c _ ih =>
    by_cases hc : c = '\u03a3'
    · rw [lowerFrom, lowerFrom, wordEndsFrom, wordEndsFrom, if_pos hc, if_pos hc, if_pos hc,
        if_pos hc, spelled_sigma, spelled_sigma, List.cons_eq_cons, List.cons_eq_cons, sigma_inj]
      exact and_congr_right fun _ => ih
    · rw [lowerFrom, lowerFrom, wordEndsFrom, wordEndsFrom, if_neg hc, if_neg hc, if_neg hc,
        if_neg hc, spelled_append, spelled_append, List.append_cancel_left_eq]
      exact ih
  | insert hc _ ih =>
    obtain ⟨hspelled, hends⟩ := spelled_lowerFrom_of_gap before' hc _
    rw [hspelled, hends]
    exact ih
  | delete hc _ ih =>
    obtain ⟨hspelled, hends⟩ := spelled_lowerFrom_of_gap before hc _
    rw [hspelled, hends]
    exact ih

/-! ## Characters that part no word -/

theorem meetsCased_cons (c : Char) (as : List Char) :
    meetsCased (c :: as) = if isCaseIgnorable c then meetsCased as else isCased c := by
  cases hc : isCaseIgnorable c <;> simp [meetsCased, hc]

variable (hgap : ∀ c, gap c = true → isCaseIgnorable c = true)

include hgap

/-- What is skipped in the search for a cased letter does not change what it meets. -/
theorem meetsCased_eq_of_respaced (h : Respaced gap as bs) : meetsCased as = meetsCased bs := by
  induction h with
  | nil => rfl
  | keep c _ ih => rw [meetsCased_cons, meetsCased_cons, ih]
  | insert hc _ ih => rw [meetsCased_cons, if_pos (hgap _ hc), ih]
  | delete hc _ ih => rw [meetsCased_cons, if_pos (hgap _ hc), ih]

/-- Characters that are skipped in the search for cased letters can be put in and taken out. -/
theorem wordEndsFrom_eq_of_respaced (hbefore : Respaced gap before before')
    (h : Respaced gap as bs) : wordEndsFrom before as = wordEndsFrom before' bs := by
  have hsigma {c : Char} (hc : gap c = true) : c ≠ '\u03a3' := by
    rintro rfl
    exact absurd (hgap _ hc) (by decide +kernel)
  induction h generalizing before before' with
  | nil => rfl
  | keep c h ih =>
    rw [wordEndsFrom, wordEndsFrom, endsWord, endsWord, meetsCased_eq_of_respaced hgap hbefore,
      meetsCased_eq_of_respaced hgap h, ih (.keep c hbefore)]
  | insert hc _ ih =>
    rw [wordEndsFrom, if_neg (hsigma hc)]
    exact ih (.insert hc hbefore)
  | delete hc _ ih =>
    rw [wordEndsFrom, if_neg (hsigma hc)]
    exact ih (.delete hc hbefore)

end Text

/-! ## Normalized names -/

namespace NameComparer

open Text

variable {a b : String}

/-- Respaced names have one key just if the same of their capital sigmas end words. -/
theorem normalize_eq_iff_wordEnds (h : Respaced isGap a.toList b.toList) :
    normalized.normalize a = normalized.normalize b ↔ wordEnds a.toList = wordEnds b.toList :=
  normalize_eq_iff.trans (spelled_lowerFrom_eq_iff h)

/-- Names that differ in separators and blanks alone have one normalized key just if the same of
their capital sigmas end words, and so wherever there are none. -/
theorem normalize_of_respaced (h : Respaced isGap a.toList b.toList) :
    (normalized.normalize a = normalized.normalize b ↔ wordEnds a.toList = wordEnds b.toList) ∧
      ('\u03a3' ∉ a.toList → normalized.normalize a = normalized.normalize b) := by
  refine ⟨normalize_eq_iff_wordEnds h, fun ha => (normalize_eq_iff_wordEnds h).mpr ?_⟩
  have hb : '\u03a3' ∉ b.toList := fun hb => ha (mem_of_respaced h (by decide) hb)
  rw [wordEnds, wordEnds, wordEndsFrom_of_not_mem ha, wordEndsFrom_of_not_mem hb]

/-- A road, with a full stop in the word and a hyphen behind it. -/
theorem normalize_of_respaced_road : Respaced isGap "ΟΔΟΣ".toList " ΟΔΟ.Σ-".toList ∧
    normalized.normalize "ΟΔΟΣ" = normalized.normalize " ΟΔΟ.Σ-" := by
  have h : Respaced isGap "ΟΔΟΣ".toList " ΟΔΟ.Σ-".toList := respaced_iff.mpr (by decide +kernel)
  exact ⟨h, (normalize_of_respaced h).1.mpr (by decide +kernel)⟩

/-- The type of a road, in one word and in two: the underscore makes the sigma a final one. -/
theorem normalize_parted : Respaced isGap "ΤΥΠΟΣΟΔΟΥ".toList "ΤΥΠΟΣ_ΟΔΟΥ".toList ∧
    normalized.normalize "ΤΥΠΟΣΟΔΟΥ" ≠ normalized.normalize "ΤΥΠΟΣ_ΟΔΟΥ" :=
  ⟨respaced_iff.mpr (by decide +kernel), by decide +kernel⟩

/-- Full stops are skipped in the search for cased letters, so they part no word. -/
theorem normalize_of_dotted (h : Respaced (· == '.') a.toList b.toList) :
    normalized.normalize a = normalized.normalize b := by
  have hgap (c : Char) (hc : (c == '.') = true) : isCaseIgnorable c = true ∧ isGap c = true := by
    rw [beq_iff_eq.mp hc]
    decide +kernel
  rw [normalize_eq_iff_wordEnds (h.mono fun c hc => (hgap c hc).2)]
  exact wordEndsFrom_eq_of_respaced (fun c hc => (hgap c hc).1) .nil h

end NameComparer

end Crosswalk
