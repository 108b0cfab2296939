import Crosswalk.Coercion.Conversion

/-!
# Integers written and read

The text of an integer has no blanks (`Text.trim_toString`) and is read as the integer, up to any
limit above its magnitude (`Text.readInt?_toString`). Every integer of a kind is within the limits
of the intermediate range, so its text is read in full (`Value.readWide?_toString`).
-/

namespace Crosswalk

namespace Text

variable {cs : List Char} {c : Char} {limit : Nat} {n : Int}

/-- A text without blanks is as it is without the blanks around it. -/
theorem trim_of_not_blank (h : ∀ c ∈ cs, isBlank c = false) : trim cs = cs := by
  refine trim_eq_iff.mpr ⟨⟨[], [], (List.append_nil cs).symm, nofun, nofun⟩, ?_, ?_⟩
  · exact fun c hc => h c (List.mem_of_head? hc)
  · exact fun c hc => h c (List.mem_of_getLast? hc)

theorem isBlank_of_isDigit (h : c.isDigit = true) : isBlank c = false := by
  obtain ⟨hzero, hnine⟩ : 48 ≤ c.toNat ∧ c.toNat ≤ 57 := Char.isDigit_iff_toNat.mp h
  rw [Bool.eq_false_iff, isBlank, Ne, CharTable.contains_iff]
  simp only [blankTable, List.mem_cons, List.not_mem_nil, or_false]
  rintro ⟨r, rfl | rfl | rfl | rfl | rfl | rfl | rfl | rfl | rfl | rfl, hleast, hgreatest⟩ <;> omega

/-! ## Digits -/

/-- The decimal digits of a number are read as that number. -/
theorem readNat?_toDigits {m : Nat} (h : m < limit) :
    readNat? limit (Nat.toDigits 10 m) = some m := by
  have hvalue : natOfDigits 0 (Nat.toDigits 10 m) = m := Nat.ofDigitChars_ten_toDigits
  have hdigits : (Nat.toDigits 10 m).all Char.isDigit = true :=
    List.all_eq_true.mpr fun c => Nat.isDigit_of_mem_toDigits (by decide) (by decide)
  rw [readNat?_eq, hvalue, if_pos ⟨Nat.toDigits_ne_nil, hdigits, h⟩]

/-- A text of digits alone has no sign to read. -/
theorem readInt?_of_digits (h : ∀ c ∈ cs, c.isDigit = true) :
    readInt? limit cs = (readNat? limit cs).map Int.ofNat := by
  unfold readInt?
  split
  · exact absurd (h '+' List.mem_cons_self) (by decide)
  · exact absurd (h '-' List.mem_cons_self) (by decide)
  · rfl

/-! ## Signs -/

theorem toList_toString_of_nonneg (h : 0 ≤ n) :
    (toString n).toList = Nat.toDigits 10 n.toNat := by
  rw [Int.toString_eq_repr, Int.repr_eq_if, if_pos h, Nat.toList_repr]

theorem toList_toString_of_neg (h : n < 0) :
    (toString n).toList = '-' :: Nat.toDigits 10 (-n).toNat := by
  rw [Int.toString_eq_repr, Int.repr_eq_if, if_neg (by omega), String.toList_append,
    Nat.toList_repr]
  rfl

theorem mem_toString (h : c ∈ (toString n).toList) : c = '-' ∨ c.isDigit = true := by
  rcases Int.lt_or_le n 0 with hn | hn
  · rw [toList_toString_of_neg hn] at h
    exact (List.mem_cons.mp h).imp_right (Nat.isDigit_of_mem_toDigits (by decide) (by decide))
  · rw [toList_toString_of_nonneg hn] at h
    exact .inr (Nat.isDigit_of_mem_toDigits (by decide) (by decide) h)

/-- There is nothing to trim in the text of an integer. -/
theorem trim_toString (n : Int) : trim (toString n).toList = (toString n).toList := by
  refine trim_of_not_blank fun c hc => ?_
  rcases mem_toString hc with rfl | hdigit
  · decide
  · exact isBlank_of_isDigit hdigit

/-- What is written of an integer reads as the integer, below the limit. -/
theorem readInt?_toString (h : n.natAbs < limit) :
    readInt? limit (toString n).toList = some n := by
  rcases Int.lt_or_le n 0 with hn | hn
  · have hvalue : -Int.ofNat (-n).toNat = n := by
      rw [Int.ofNat_eq_natCast]
      omega
    rw [toList_toString_of_neg hn, readInt?, readNat?_toDigits (by omega), Option.map_some, hvalue]
  · have hvalue : Int.ofNat n.toNat = n := by
      rw [Int.ofNat_eq_natCast]
      omega
    rw [toList_toString_of_nonneg hn,
      readInt?_of_digits fun c => Nat.isDigit_of_mem_toDigits (by decide) (by decide),
      readNat?_toDigits (by omega), Option.map_some, hvalue]

end Text

/-! ## The intermediate range -/

/-- The widest range holds those of all kinds. -/
theorem IntKind.inRange_wide (k : IntKind) : Value.wideLeast ≤ k.least ∧
    k.greatest ≤ Value.wideGreatest := by
  cases k <;> decide

/-- An integer of the widest range is read back from its text. -/
theorem Value.readWide?_toString {n : Int} (hleast : wideLeast ≤ n) (hgreatest : n ≤ wideGreatest) :
    readWide? (toString n) = some n := by
  have hmagnitude : n.natAbs < Decimal.twoPow 127 + 1 := by
    unfold wideLeast at hleast
    unfold wideGreatest at hgreatest
    omega
  rw [readWide?, Text.trim_toString, Text.readInt?_toString hmagnitude]
  simp [hleast, hgreatest]

end Crosswalk
