import Crosswalk.Proofs.LowerCase

/-!
# Keys of names

A comparer takes two names for the same when their keys are equal. The normalized key is what
lower-casing gives, without its separators and blanks (`toList_normalize`): the trimming before
does not show. Since lower-casing leaves its own results alone, keys are their own keys, and each
comparer takes for the same what a stricter one does (`keyLaws`).
-/

namespace Crosswalk

open Text

/-! ## The normalized key -/

namespace Text

/-- The text without its separators and blanks. -/
def spelled (cs : List Char) : List Char := cs.filter fun c => !isGap c

variable {as bs cs : List Char} {c : Char}

theorem spelled_append (as bs : List Char) : spelled (as ++ bs) = spelled as ++ spelled bs :=
  List.filter_append _ _

theorem spelled_cons_of_gap (h : isGap c = true) (cs : List Char) :
    spelled (c :: cs) = spelled cs :=
  List.filter_cons_of_neg (by simp [h])

theorem spelled_cons_of_not_gap (h : isGap c = false) (cs : List Char) :
    spelled (c :: cs) = c :: spelled cs :=
  List.filter_cons_of_pos (by simp [h])

/-- Separators and blanks alone spell nothing. -/
theorem spelled_of_gaps (h : ∀ c ∈ cs, isGap c = true) : spelled cs = [] :=
  List.filter_eq_nil_iff.mpr fun c hc => by simp [h c hc]

end Text

namespace NameComparer

/-- The normalized key is what is spelled of the lower case. The blanks that are trimmed before
would be left out anyway. -/
theorem toList_normalize (a : String) :
    (normalized.normalize a).toList = spelled (lower a.toList) := by
  obtain ⟨⟨front, back, heq, hfront, hback⟩, -, -⟩ := trimmed_trim a.toList
  have hgap {cs : List Char} (h : ∀ c ∈ cs, isBlank c = true) : spelled cs = [] :=
    spelled_of_gaps fun c hc => by rw [isGap, h c hc, Bool.or_true]
  have hlower : spelled (lower a.toList) = spelled (lower (trim a.toList)) := by
    conv_lhs => rw [heq, lower_between_blanks hfront hback]
    rw [spelled_append, spelled_append, hgap hfront, hgap hback, List.nil_append, List.append_nil]
  rw [hlower, normalize, String.toList_ofList, spelled]
  simp only [isGap, Bool.not_or]

/-- Names have one normalized key just if the same is spelled of their lower cases. -/
theorem normalize_eq_iff {a b : String} : normalized.normalize a = normalized.normalize b ↔
    spelled (lower a.toList) = spelled (lower b.toList) := by
  rw [← String.toList_inj, toList_normalize, toList_normalize]

/-! ## Comparers from strict to lenient -/

/-- The comparers refine one another, and keys are stable. -/
structure KeyLaws : Prop where
  ignoreCase_of_ordinal (a b : String) (h : ordinal.sameName a b = true) :
    ignoreCase.sameName a b = true
  normalized_of_ignoreCase (a b : String) (h : ignoreCase.sameName a b = true) :
    normalized.sameName a b = true
  /-- The key of a key is the key itself. -/
  stable (c : NameComparer) (a : String) : c.normalize (c.normalize a) = c.normalize a
  noGap (a : String) : ∀ c ∈ (normalized.normalize a).toList,
    isSeparator c = false ∧ isBlank c = false

/-- Names are the same to a comparer if they have the same key. -/
theorem sameName_iff {comparer : NameComparer} {a b : String} :
    comparer.sameName a b = true ↔ comparer.normalize a = comparer.normalize b :=
  beq_iff_eq

/-- What a normalized key holds is neither a gap nor changed by lower-casing. -/
theorem settled_of_mem_normalize {a : String} {c : Char}
    (h : c ∈ (normalized.normalize a).toList) : isGap c = false ∧ lowerChar c = [c] := by
  rw [toList_normalize] at h
  obtain ⟨hmem, hgap⟩ := List.mem_filter.mp h
  exact ⟨by simpa using hgap, lowerChar_of_mem_lowerFrom hmem⟩

theorem keyLaws : KeyLaws where
  ignoreCase_of_ordinal a b h := by
    obtain rfl : a = b := sameName_iff.mp h
    exact sameName_iff.mpr rfl
  normalized_of_ignoreCase a b h := by
    have hlower : lower a.toList = lower b.toList := String.ofList_injective (sameName_iff.mp h)
    rw [sameName_iff, normalize_eq_iff, hlower]
  stable c a := by
    cases c with
    | ordinal => rfl
    | ignoreCase => simp only [normalize, String.toList_ofList, lower_lower]
    | normalized =>
      have hsettled := fun c (hc : c ∈ (normalized.normalize a).toList) =>
        settled_of_mem_normalize hc
      rw [← String.toList_inj, toList_normalize, lower,
        lowerFrom_of_settled fun c hc => (hsettled c hc).2, spelled, List.filter_eq_self]
      exact fun c hc => by simp [(hsettled c hc).1]
  noGap a c hc := by
    have hgap := (settled_of_mem_normalize hc).1
    rwa [isGap, Bool.or_eq_false_iff] at hgap

/-- Keys may be longer than their names, and hold a mark in the place of a dot. -/
example : normalized.normalize "D-İM\tİ.x" = "di̇mi̇x" := by decide +kernel

end NameComparer

end Crosswalk
