import Crosswalk.Proofs.JsonTokens

/-!
# Trees of JSON read back

A tree whose numbers are numbers of JSON (`Json.Legible`) is read from its text as the tree
(`parse?_render`). The proof follows the tree: each part is read as itself whatever follows it, as
long as that is no more of a number (`ReadsBack`), and so are the items of an array and the fields
of an object up to their closing mark (`readItems?_writeItems`, `readFields?_writeFields`). A
reader takes a step of its fuel for each tree and for each item or field; twice the length of the
text is enough.
-/

namespace Crosswalk.Json

open Decimal

variable {fuel : Nat} {c : Char} {cs : List Char} {j : Json} {items : List Json}
  {fields : List (Option String × Json)}

/-- Every number of the tree is one of JSON. -/
inductive Legible : Json → Prop
  | null : Legible null
  | bool (b : Bool) : Legible (bool b)
  | number {x : Numeral} (h : x.Legible) : Legible (number x)
  | string (s : Option String) : Legible (string s)
  | array {items : List Json} (h : ∀ j ∈ items, Legible j) : Legible (array items)
  | object {fields : List (Option String × Json)} (h : ∀ f ∈ fields, Legible f.2) :
      Legible (object fields)

/-! ## Blanks -/

theorem skipBlanks_cons (h : isBlank c = false) (cs : List Char) :
    skipBlanks (c :: cs) = c :: cs :=
  List.dropWhile_cons_of_neg (by simp [h])

theorem isBlank_of_isDigit (h : c.isDigit = true) : isBlank c = false := by
  simp only [isBlank, Bool.or_eq_false_iff, beq_eq_false_iff_ne]
  refine ⟨⟨⟨?_, ?_⟩, ?_⟩, ?_⟩ <;> (rintro rfl; cases h)

/-! ## Numbers -/

/-- Before digits a reader takes a number without a sign. -/
theorem readTree?_digit (h : c.isDigit = true) (cs : List Char) :
    readTree? (fuel + 1) (c :: cs) =
      (readNumber? false (c :: cs)).map fun (x, cs) => (number x, cs) := by
  rw [readTree?, skipBlanks_cons (isBlank_of_isDigit h)]
  split <;> first
    | next heq => cases heq; cases h
    | rfl

theorem exists_whole_eq {x : Numeral} (h : x.Legible) :
    ∃ c ds, x.whole = c :: ds ∧ c.isDigit = true := by
  obtain ⟨c, ds, hwhole⟩ := List.exists_cons_of_ne_nil h.whole
  exact ⟨c, ds, hwhole, h.wholeDigits c (hwhole ▸ List.mem_cons_self)⟩

/-- A numeral is read back where nothing of a numeral follows. -/
theorem readTree?_number {x : Numeral} (h : x.Legible) {rest : List Char}
    (hrest : NumberEnds rest) :
    readTree? (fuel + 1) (x.chars true ++ rest) = some (number x, rest) := by
  have hread := readNumber?_append h hrest
  rw [x.chars_eq, List.append_assoc, List.append_assoc, List.append_assoc]
  cases hsign : x.negative with
  | true =>
    rw [hsign] at hread
    show (readNumber? true (x.whole ++ _)).map _ = _
    rw [hread]
    rfl
  | false =>
    obtain ⟨c, ds, hwhole, hc⟩ := exists_whole_eq h
    rw [hsign, hwhole, List.cons_append] at hread
    rw [hwhole, List.cons_append]
    show readTree? (fuel + 1) (c :: _) = _
    rw [readTree?_digit hc, hread]
    rfl

/-! ## Texts -/

/-- A text is read back up to its closing quote. -/
theorem readTree?_string (s : Option String) {rest : List Char} :
    readTree? (fuel + 1) (writeText s ++ rest) = some (string s, rest) := by
  obtain ⟨cs, hwrite, hread⟩ := exists_writeText_eq s
  rw [hwrite, List.cons_append]
  show (readString? (cs ++ rest)).map _ = _
  rw [hread]
  rfl

/-! ## Arrays and objects -/

/-- A tree opens with a character that is no blank and closes nothing. -/
theorem exists_write_eq (h : j.Legible) :
    ∃ c cs, write j = c :: cs ∧ isBlank c = false ∧ c ≠ ']' := by
  cases h with
  | null => exact ⟨_, _, rfl, by decide, by decide⟩
  | bool b => cases b <;> exact ⟨_, _, rfl, by decide, by decide⟩
  | @number x h =>
    obtain ⟨c, ds, hwhole, hc⟩ := exists_whole_eq h
    have hclose : c ≠ ']' := by
      rintro rfl
      cases hc
    show ∃ c cs, x.chars true = c :: cs ∧ _
    rw [x.chars_eq, hwhole]
    cases x.negative with
    | true => exact ⟨_, _, rfl, by decide, by decide⟩
    | false => exact ⟨_, _, rfl, isBlank_of_isDigit hc, hclose⟩
  | string s => cases s <;> exact ⟨_, _, rfl, by decide, by decide⟩
  | array | object => exact ⟨_, _, rfl, by decide, by decide⟩

/-- The text of the tree is read as the tree, whatever follows it that is no more of a number. -/
def ReadsBack (j : Json) : Prop :=
  ∀ ⦃fuel rest⦄, 2 * (write j).length ≤ fuel → NumberEnds rest →
    readTree? fuel (write j ++ rest) = some (j, rest)

/-- A numeral ends before each mark that may follow an item. -/
theorem numberEnds_cons (rest : List Char) (h : c ∈ [',', ']', '\x7d']) :
    NumberEnds (c :: rest) := by
  rintro _ ⟨⟩
  simp only [List.mem_cons, List.not_mem_nil, or_false] at h
  rcases h with rfl | rfl | rfl <;> decide

section Parts

variable (hj : ReadsBack j) (hfuel : 2 * (write j).length ≤ fuel)

include hj hfuel

theorem readItems?_last (rest : List Char) :
    readItems? (fuel + 1) (write j ++ ']' :: rest) = some ([j], rest) := by
  rw [readItems?, hj hfuel (numberEnds_cons rest (by decide))]
  rfl

theorem readItems?_more (cs : List Char) :
    readItems? (fuel + 1) (write j ++ ',' :: cs) =
      (readItems? fuel cs).map fun (js, cs) => (j :: js, cs) := by
  rw [readItems?, hj hfuel (numberEnds_cons cs (by decide))]
  rfl

theorem readFields?_last (key : Option String) (rest : List Char) :
    readFields? (fuel + 1) (writeText key ++ ':' :: (write j ++ '\x7d' :: rest)) =
      some ([(key, j)], rest) := by
  obtain ⟨cs, hkey, hread⟩ := exists_writeText_eq key
  have htree : readTree? fuel (write j ++ '\x7d' :: rest) = some (j, '\x7d' :: rest) :=
    hj hfuel (numberEnds_cons rest (by decide))
  rw [hkey, List.cons_append, readFields?, skipBlanks_cons (by decide)]
  simp only [hread, skipBlanks_cons (show isBlank ':' = false by decide), htree,
    skipBlanks_cons (show isBlank '\x7d' = false by decide)]

theorem readFields?_more (key : Option String) (cs : List Char) :
    readFields? (fuel + 1) (writeText key ++ ':' :: (write j ++ ',' :: cs)) =
      (readFields? fuel cs).map fun (fs, cs) => ((key, j) :: fs, cs) := by
  obtain ⟨ds, hkey, hread⟩ := exists_writeText_eq key
  have htree : readTree? fuel (write j ++ ',' :: cs) = some (j, ',' :: cs) :=
    hj hfuel (numberEnds_cons cs (by decide))
  rw [hkey, List.cons_append, readFields?, skipBlanks_cons (by decide)]
  simp only [hread, skipBlanks_cons (show isBlank ':' = false by decide), htree,
    skipBlanks_cons (show isBlank ',' = false by decide)]

end Parts

theorem writeItems_cons_cons (j k : Json) (ks : List Json) :
    writeItems (j :: k :: ks) = write j ++ ',' :: writeItems (k :: ks) := by
  rw [writeItems]
  exact List.cons_ne_nil k ks

theorem writeFields_cons_cons (key : Option String) (j : Json) (g : Option String × Json)
    (gs : List (Option String × Json)) :
    writeFields ((key, j) :: g :: gs) =
      writeText key ++ ':' :: (write j ++ ',' :: writeFields (g :: gs)) := by
  rw [writeFields]
  · simp
  · exact List.cons_ne_nil g gs

/-- The items of an array are read up to its bracket. -/
theorem readItems?_writeItems (hne : items ≠ []) (hitems : ∀ j ∈ items, ReadsBack j)
    (hfuel : 2 * (writeItems items).length < fuel) (rest : List Char) :
    readItems? fuel (writeItems items ++ ']' :: rest) = some (items, rest) := by
  induction items generalizing fuel with
  | nil => exact absurd rfl hne
  | cons j js ih =>
    obtain ⟨hj, hjs⟩ := List.forall_mem_cons.mp hitems
    obtain ⟨fuel, rfl⟩ := Nat.exists_eq_succ_of_ne_zero (Nat.ne_zero_of_lt hfuel)
    cases js with
    | nil =>
      rw [writeItems] at hfuel ⊢
      exact readItems?_last hj (by omega) rest
    | cons k ks =>
      -- The comma pays for the step that this item takes.
      rw [writeItems_cons_cons, List.length_append, List.length_cons] at hfuel
      rw [writeItems_cons_cons, List.append_assoc, List.cons_append,
        readItems?_more hj (by omega), ih (List.cons_ne_nil k ks) hjs (by omega)]
      rfl

/-- The fields of an object are read up to its brace. -/
theorem readFields?_writeFields (hne : fields ≠ []) (hfields : ∀ f ∈ fields, ReadsBack f.2)
    (hfuel : 2 * (writeFields fields).length < fuel) (rest : List Char) :
    readFields? fuel (writeFields fields ++ '\x7d' :: rest) = some (fields, rest) := by
  induction fields generalizing fuel with
  | nil => exact absurd rfl hne
  | cons f fs ih =>
    obtain ⟨key, j⟩ := f
    obtain ⟨hj : ReadsBack j, hfs⟩ := List.forall_mem_cons.mp hfields
    obtain ⟨fuel, rfl⟩ := Nat.exists_eq_succ_of_ne_zero (Nat.ne_zero_of_lt hfuel)
    cases fs with
    | nil =>
      rw [writeFields, List.length_append, List.length_cons] at hfuel
      rw [writeFields, List.append_assoc, List.cons_append]
      exact readFields?_last hj (by omega) key rest
    | cons g gs =>
      simp only [writeFields_cons_cons, List.length_append, List.length_cons] at hfuel
      rw [writeFields_cons_cons, List.append_assoc, List.cons_append, List.append_assoc,
        List.cons_append, readFields?_more hj (by omega), ih (List.cons_ne_nil g gs) hfs (by omega)]
      rfl

/-- The first item does not look like the end of the array. -/
theorem exists_writeItems_eq (hne : items ≠ []) (h : ∀ j ∈ items, Legible j) :
    ∃ c cs, writeItems items = c :: cs ∧ isBlank c = false ∧ c ≠ ']' := by
  match items, hne with
  | [j], _ =>
    rw [writeItems]
    exact exists_write_eq (h j List.mem_cons_self)
  | j :: k :: ks, _ =>
    obtain ⟨c, cs, hj, hc⟩ := exists_write_eq (h j List.mem_cons_self)
    exact ⟨c, _, by rw [writeItems_cons_cons, hj]; rfl, hc⟩

/-- An array is read back if its items are. -/
theorem readsBack_array (hitems : ∀ j ∈ items, Legible j) (h : ∀ j ∈ items, ReadsBack j) :
    ReadsBack (array items) := by
  intro fuel rest hfuel _
  simp only [write, List.length_append, List.length_cons, List.length_nil] at hfuel
  obtain ⟨fuel, rfl⟩ := Nat.exists_eq_succ_of_ne_zero (show fuel ≠ 0 by omega)
  have hwrite : write (array items) ++ rest = '[' :: (writeItems items ++ ']' :: rest) := by
    simp [write]
  rw [hwrite, readTree?, skipBlanks_cons (by decide)]
  by_cases hne : items = []
  · subst hne
    rfl
  · obtain ⟨c, cs, hopen, hblank, hclose⟩ := exists_writeItems_eq hne hitems
    have hread := readItems?_writeItems hne h (show _ < fuel by omega) rest
    rw [hopen, List.cons_append] at hread ⊢
    simp only [skipBlanks_cons hblank]
    -- The first item does not look like the bracket of an empty array.
    split
    · next heq => exact absurd (List.cons.inj heq).1 hclose
    · rw [hread]
      rfl

theorem exists_writeFields_eq (hne : fields ≠ []) : ∃ cs, writeFields fields = '"' :: cs := by
  match fields, hne with
  | [(key, j)], _ =>
    obtain ⟨cs, hkey, -⟩ := exists_writeText_eq key
    exact ⟨_, by rw [writeFields, hkey]; rfl⟩
  | (key, j) :: g :: gs, _ =>
    obtain ⟨cs, hkey, -⟩ := exists_writeText_eq key
    exact ⟨_, by rw [writeFields_cons_cons, hkey]; rfl⟩

/-- An object is read back if its fields are. -/
theorem readsBack_object (h : ∀ f ∈ fields, ReadsBack f.2) : ReadsBack (object fields) := by
  intro fuel rest hfuel _
  simp only [write, List.length_append, List.length_cons, List.length_nil] at hfuel
  obtain ⟨fuel, rfl⟩ := Nat.exists_eq_succ_of_ne_zero (show fuel ≠ 0 by omega)
  have hwrite : write (object fields) ++ rest =
      '\x7b' :: (writeFields fields ++ '\x7d' :: rest) := by
    simp [write]
  rw [hwrite, readTree?, skipBlanks_cons (by decide)]
  by_cases hne : fields = []
  · subst hne
    rfl
  · obtain ⟨cs, hopen⟩ := exists_writeFields_eq hne
    have hread := readFields?_writeFields hne h (show _ < fuel by omega) rest
    rw [hopen, List.cons_append] at hread ⊢
    show (readFields? fuel ('"' :: (cs ++ '\x7d' :: rest))).map _ = _
    rw [hread]
    rfl

/-! ## Trees -/

/-- A tree without parts is read in one step. -/
theorem readsBack_of_step (h : j.Legible)
    (hstep : ∀ {fuel rest}, NumberEnds rest →
      readTree? (fuel + 1) (write j ++ rest) = some (j, rest)) : ReadsBack j := by
  intro fuel rest hfuel hrest
  obtain ⟨c, cs, hwrite, -⟩ := exists_write_eq h
  rw [hwrite, List.length_cons] at hfuel
  obtain ⟨fuel, rfl⟩ := Nat.exists_eq_succ_of_ne_zero (show fuel ≠ 0 by omega)
  exact hstep hrest

/-- Legible trees are read back, by induction on the tree. -/
theorem readsBack_of_legible (h : j.Legible) : ReadsBack j := by
  induction h with
  | null => exact readsBack_of_step .null fun _ => rfl
  | bool b => exact readsBack_of_step (.bool b) fun _ => by cases b <;> rfl
  | number hx => exact readsBack_of_step (.number hx) (readTree?_number hx)
  | string s => exact readsBack_of_step (.string s) fun _ => readTree?_string s
  | array hitems ih => exact readsBack_array hitems ih
  | object _ ih => exact readsBack_object ih

/-- A tree whose numbers are numbers of JSON is read from its text. -/
theorem parse?_render (h : j.Legible) : parse? (render j) = some j := by
  have hread : readTree? (2 * (write j).length + 2) (write j ++ []) = some (j, []) :=
    readsBack_of_legible h (by omega) (by rintro _ ⟨⟩)
  rw [List.append_nil] at hread
  simp only [parse?, render, String.toList_ofList, hread]
  rfl

end Crosswalk.Json
