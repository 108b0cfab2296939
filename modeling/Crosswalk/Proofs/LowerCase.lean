import Crosswalk.Options
import Mathlib.Data.List.Basic

/-!
# Laws of lower-casing

No lower case of the table has a lower case of its own (`misses_lowerRuns`, run by run), so what
lower-casing gives stays as it is (`lowerFrom_of_settled`, `lowerChar_of_mem_lowerFrom`). Separators
and blanks have no lower case (`lowerChar_of_isGap`). Blanks around a text have no part in its
words, so that it is lower-cased alike without them (`lower_between_blanks`).
-/

namespace Crosswalk.Text

/-! ## Runs of the table -/

namespace LowerRun

variable {r s : LowerRun} {n : Nat}

/-- The lower case of the first code point. -/
def firstLower (r : LowerRun) : Nat := (r.first + r.shift).toNat

/-- The lower case of the last code point. -/
def lastLower (r : LowerRun) : Nat := (r.last + r.shift).toNat

theorem contains_iff :
    r.contains n = true ↔ r.first ≤ n ∧ n ≤ r.last ∧ (n - r.first) % r.stride = 0 := by
  simp [contains, and_assoc]

/-- The lower cases of a code point in the run are within those of its ends. -/
theorem lower_bounds (hn : r.contains n = true) :
    r.firstLower ≤ (n + r.shift).toNat ∧ (n + r.shift).toNat ≤ r.lastLower := by
  obtain ⟨hfirst, hlast, -⟩ := contains_iff.mp hn
  unfold firstLower lastLower
  omega

/-- No lower case of the one run is in the other: they lie before it or after it, or it holds
every second code point and they lie between these. -/
def misses (r s : LowerRun) : Bool :=
  Nat.blt r.lastLower s.first || Nat.blt s.last r.firstLower ||
    (r.stride == 2 || r.first == r.last) && s.stride == 2 && (r.firstLower + s.first) % 2 == 1

/-- If the one run misses the other, no lower case of it is in the other. -/
theorem not_contains_of_misses (hpos : 0 < r.firstLower) (h : r.misses s = true)
    (hn : r.contains n = true) : s.contains (n + r.shift).toNat = false := by
  rw [Bool.eq_false_iff, Ne, contains_iff]
  rintro ⟨hleast, hgreatest, hplace⟩
  obtain ⟨hlower, hlower'⟩ := lower_bounds hn
  obtain ⟨hfirst, hlast, hstride⟩ := contains_iff.mp hn
  simp only [misses, Bool.or_eq_true, Bool.and_eq_true, Nat.blt_eq, beq_iff_eq] at h
  rcases h with (h | h) | ⟨⟨hsteps, heven⟩, hodd⟩
  · omega
  · omega
  · rw [heven] at hplace
    unfold firstLower at hpos hodd
    rcases hsteps with hsteps | hsingle
    · rw [hsteps] at hstride
      omega
    · omega

end LowerRun

theorem firstLower_pos : ∀ r ∈ lowerRuns, 0 < r.firstLower := by decide +kernel

/-- Every run misses every run, itself included. -/
theorem misses_lowerRuns : (lowerRuns.all fun r => lowerRuns.all r.misses) = true := by
  decide +kernel

/-- The code points of separators and blanks. -/
def gapTable : CharTable := [(0x2d, 0x2f), (0x5c, 0x5c), (0x5f, 0x5f)] ++ blankTable

theorem runs_apart_gaps : ∀ r ∈ lowerRuns, ∀ g ∈ gapTable, r.last < g.1 ∨ g.2 < r.first := by
  decide +kernel

/-- Lower cases are neither gaps, nor the dotted capital I, nor halves of surrogate pairs. -/
theorem lowers_apart : ∀ r ∈ lowerRuns, ∀ g ∈ gapTable ++ [(0x130, 0x130), (0xd800, 0xdfff)],
    r.lastLower < g.1 ∨ g.2 < r.firstLower := by
  decide +kernel

theorem lastLower_le : ∀ r ∈ lowerRuns, r.lastLower ≤ 0x10ffff := by decide +kernel

/-! ## Code points -/

/-- A code point and its lower case, which is another. -/
structure Lowered (n m : Nat) : Prop where
  settled : lowerCode m = m
  apart : ∀ g ∈ gapTable ++ [(0x130, 0x130), (0xd800, 0xdfff)], m < g.1 ∨ g.2 < m
  le : m ≤ 0x10ffff
  /-- The code point is no gap either. -/
  noGap : ∀ g ∈ gapTable, n < g.1 ∨ g.2 < n

/-- The code points of a run have a lower case that is settled. -/
theorem lowered_of_contains {r : LowerRun} (hr : r ∈ lowerRuns) {n : Nat}
    (hn : r.contains n = true) : Lowered n (n + r.shift).toNat where
  settled := by
    have hnone : lowerRuns.find? (fun s => s.contains (n + r.shift).toNat) = none := by
      refine List.find?_eq_none.mpr fun s hs => ?_
      have hmisses := List.all_eq_true.mp (List.all_eq_true.mp misses_lowerRuns r hr) s hs
      simp [LowerRun.not_contains_of_misses (firstLower_pos r hr) hmisses hn]
    rw [lowerCode, hnone]
  apart g hg := by
    have hapart := lowers_apart r hr g hg
    have hbounds := LowerRun.lower_bounds hn
    omega
  le := Nat.le_trans (LowerRun.lower_bounds hn).2 (lastLower_le r hr)
  noGap g hg := by
    have hapart := runs_apart_gaps r hr g hg
    have hbounds := LowerRun.contains_iff.mp hn
    omega

/-- A code point is its own lower case, or goes to one that is settled. -/
theorem lowerCode_cases (n : Nat) : lowerCode n = n ∨ Lowered n (lowerCode n) := by
  unfold lowerCode
  cases h : lowerRuns.find? fun r => r.contains n with
  | none => exact .inl rfl
  | some r =>
    have hn : r.contains n = true := List.find?_some (p := fun r : LowerRun => r.contains n) h
    exact .inr (lowered_of_contains (List.mem_of_find?_eq_some h) hn)

/-! ## Characters -/

/-- The character is a separator or a blank. -/
def isGap (c : Char) : Bool := NameComparer.isSeparator c || isBlank c

variable {c d : Char} {before cs : List Char}

theorem isGap_iff : isGap c = true ↔ ∃ g ∈ gapTable, g.1 ≤ c.toNat ∧ c.toNat ≤ g.2 := by
  have hseparator : NameComparer.isSeparator c = true ↔
      ∃ g ∈ ([(0x2d, 0x2f), (0x5c, 0x5c), (0x5f, 0x5f)] : CharTable),
        g.1 ≤ c.toNat ∧ c.toNat ≤ g.2 := by
    simp only [NameComparer.isSeparator, Bool.or_eq_true, beq_iff_eq, ← Char.toNat_inj]
    simp
    omega
  rw [isGap, Bool.or_eq_true, hseparator, isBlank, CharTable.contains_iff, gapTable]
  simp only [List.mem_append, or_and_right, exists_or]

theorem isGap_eq_false (h : ∀ g ∈ gapTable, c.toNat < g.1 ∨ g.2 < c.toNat) : isGap c = false := by
  rw [Bool.eq_false_iff, Ne, isGap_iff]
  rintro ⟨g, hg, hleast, hgreatest⟩
  have hout := h g hg
  omega

/-- The lower case of a character is the character or another one, but for the dotted capital I. -/
theorem lowerChar_cases (c : Char) : lowerChar c = [c] ∨ c = '\u0130' ∨
    ∃ d, lowerChar c = [d] ∧ Lowered c.toNat d.toNat := by
  by_cases hc : c = '\u0130'
  · exact .inr (.inl hc)
  · have hlower : lowerChar c = [Char.ofNat (lowerCode c.toNat)] := if_neg hc
    rw [hlower]
    rcases lowerCode_cases c.toNat with heq | h
    · exact .inl (by rw [heq, Char.ofNat_toNat])
    · have hvalid : (lowerCode c.toNat).isValidChar := by
        have hle := h.le
        have hpair := h.apart (0xd800, 0xdfff) (by simp)
        unfold Nat.isValidChar
        omega
      refine .inr (.inr ⟨_, rfl, ?_⟩)
      rw [Char.ofNat, dif_pos hvalid]
      exact h

/-- What lower-casing gives stays as it is. -/
theorem lowerChar_of_mem_lowerChar (h : d ∈ lowerChar c) : lowerChar d = [d] := by
  rcases lowerChar_cases c with heq | rfl | ⟨e, heq, he⟩
  · rw [heq, List.mem_singleton] at h
    rw [h, heq]
  · rcases List.mem_pair.mp h with rfl | rfl <;> decide
  · rw [heq, List.mem_singleton] at h
    have hdotted : d ≠ '\u0130' := by
      rintro rfl
      have hout := he.apart (0x130, 0x130) (by simp)
      rw [← h] at hout
      exact absurd hout (by decide)
    rw [lowerChar, if_neg hdotted, h, he.settled, Char.ofNat_toNat]

/-- A gap has no lower case but itself. -/
theorem lowerChar_of_isGap (h : isGap c = true) : lowerChar c = [c] := by
  rcases lowerChar_cases c with heq | rfl | ⟨d, -, hd⟩
  · exact heq
  · exact absurd h (by decide)
  · rw [isGap_eq_false hd.noGap] at h
    cases h

/-! ## Texts -/

/-- The characters of a lower-cased text are settled. -/
theorem lowerChar_of_mem_lowerFrom (h : d ∈ lowerFrom before cs) : lowerChar d = [d] := by
  induction cs generalizing before with
  | nil => cases h
  | cons c cs ih =>
    rcases List.mem_append.mp h with h | h
    · split at h
      · rw [List.mem_singleton] at h
        split at h <;> subst h <;> decide
      · exact lowerChar_of_mem_lowerChar h
    · exact ih h

/-- A text of characters that stay as they are has no sigma to change. -/
theorem lowerFrom_of_settled (h : ∀ c ∈ cs, lowerChar c = [c]) : lowerFrom before cs = cs := by
  induction cs generalizing before with
  | nil => rfl
  | cons c cs ih =>
    obtain ⟨hc, hcs⟩ := List.forall_mem_cons.mp h
    have hsigma : c ≠ '\u03a3' := by
      rintro rfl
      exact absurd hc (by decide)
    rw [lowerFrom, if_neg hsigma, hc, ih hcs, List.singleton_append]

/-- Lower-casing twice is lower-casing once. -/
theorem lower_lower (cs : List Char) : lower (lower cs) = lower cs :=
  lowerFrom_of_settled fun _ => lowerChar_of_mem_lowerFrom

/-! ## Blanks around a text -/

theorem blanks_apart : ∀ b ∈ blankTable, ∀ r ∈ casedTable ++ caseIgnorableTable,
    b.2 < r.1 ∨ r.2 < b.1 := by
  decide +kernel

theorem not_contains_of_isBlank (h : isBlank c = true) {r : Nat × Nat}
    (hr : r ∈ casedTable ++ caseIgnorableTable) : ¬(r.1 ≤ c.toNat ∧ c.toNat ≤ r.2) := by
  obtain ⟨b, hb, hleast, hgreatest⟩ := CharTable.contains_iff.mp h
  have hapart := blanks_apart b hb r hr
  omega

theorem isCased_of_isBlank (h : isBlank c = true) : isCased c = false := by
  rw [Bool.eq_false_iff, Ne, isCased, CharTable.contains_iff]
  rintro ⟨r, hr, hin⟩
  exact not_contains_of_isBlank h (List.mem_append_left _ hr) hin

theorem isCaseIgnorable_of_isBlank (h : isBlank c = true) : isCaseIgnorable c = false := by
  rw [Bool.eq_false_iff, Ne, isCaseIgnorable, CharTable.contains_iff]
  rintro ⟨r, hr, hin⟩
  exact not_contains_of_isBlank h (List.mem_append_right _ hr) hin

variable {front back far : List Char}

/-- Blanks behind a text stop the search for a cased letter as its end does. -/
theorem meetsCased_append (h : ∀ c ∈ back, isBlank c = true) :
    meetsCased (cs ++ back) = meetsCased cs := by
  unfold meetsCased
  rw [List.dropWhile_append]
  cases hrest : cs.dropWhile isCaseIgnorable with
  | cons c rest => rfl
  | nil =>
    cases back with
    | nil => rfl
    | cons b back =>
      obtain ⟨hb, -⟩ := List.forall_mem_cons.mp h
      simp [isCaseIgnorable_of_isBlank hb, isCased_of_isBlank hb]

theorem lowerFrom_of_blanks (h : ∀ c ∈ front, isBlank c = true) : lowerFrom before front = front :=
  lowerFrom_of_settled fun c hc => lowerChar_of_isGap (by rw [isGap, h c hc, Bool.or_true])

/-- Blanks behind a text, or far in front of it, do not show in its lower case. -/
theorem lowerFrom_append_blanks (hback : ∀ c ∈ back, isBlank c = true)
    (hfar : ∀ c ∈ far, isBlank c = true) :
    lowerFrom (before ++ far) (cs ++ back) = lowerFrom before cs ++ back := by
  induction cs generalizing before with
  | nil => exact lowerFrom_of_blanks hback
  | cons c cs ih =>
    have hends : endsWord (before ++ far) (cs ++ back) = endsWord before cs := by
      rw [endsWord, endsWord, meetsCased_append hfar, meetsCased_append hback]
    rw [List.cons_append, lowerFrom, lowerFrom, hends, ← List.cons_append, ih, List.append_assoc]

/-- Blanks in front of a text are passed over. -/
theorem lowerFrom_blanks_append (hfront : ∀ c ∈ front, isBlank c = true) :
    lowerFrom before (front ++ cs) = front ++ lowerFrom (front.reverse ++ before) cs := by
  induction front generalizing before with
  | nil => rfl
  | cons c front ih =>
    obtain ⟨hc, hrest⟩ := List.forall_mem_cons.mp hfront
    have hlower : lowerChar c = [c] := lowerChar_of_isGap (by rw [isGap, hc, Bool.or_true])
    have hsigma : c ≠ '\u03a3' := by
      rintro rfl
      exact absurd hc (by decide)
    rw [List.cons_append, lowerFrom, if_neg hsigma, hlower, ih hrest]
    simp

/-- Blanks around a text stay, and the text is lower-cased as it is without them. -/
theorem lower_between_blanks (hfront : ∀ c ∈ front, isBlank c = true)
    (hback : ∀ c ∈ back, isBlank c = true) :
    lower (front ++ cs ++ back) = front ++ lower cs ++ back := by
  have hfar : ∀ c ∈ front.reverse, isBlank c = true := by simpa using hfront
  rw [lower, List.append_assoc, lowerFrom_blanks_append hfront]
  have happend : lowerFrom ([] ++ front.reverse) (cs ++ back) = lowerFrom [] cs ++ back :=
    lowerFrom_append_blanks hback hfar
  rw [List.append_nil, ← List.nil_append front.reverse, happend, ← List.append_assoc]
  rfl

end Crosswalk.Text
