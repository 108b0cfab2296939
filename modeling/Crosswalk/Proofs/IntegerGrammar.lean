import Crosswalk.Proofs.IntegerText
import Crosswalk.Proofs.NullablePaths
import Mathlib.Data.List.Induction
import Mathlib.Data.Nat.Digits.Defs

/-!
# Which texts are integers

`Text.Numeral` is the grammar of integers in decimal: a sign or none, and one or more digits.
`Text.Spells` adds blanks around it. The reader accepts just the numerals of numbers below its
limit and gives their numbers (`Text.readInt?_eq_some_iff`). Every kind of integers is within the
intermediate range, so a text is coerced to a kind just where it spells a number of that kind
(`Coercion.reads_numerals`), however many leading zeros it has and whatever the sign of a zero.
-/

namespace Crosswalk

namespace Text

variable {cs ds : List Char} {limit m : Nat} {n : Int} {x : String}

/-! ## Numerals -/

/-- One or more digits. -/
def IsDigits (ds : List Char) : Prop := ds ≠ [] ∧ ∀ d ∈ ds, d.isDigit = true

/-- The number with these decimal digits, the last of which counts the ones. -/
def decimal (ds : List Char) : Nat := Nat.ofDigits 10 (ds.reverse.map digitValue)

/-- The characters are an integer in decimal. -/
inductive Numeral : List Char → Int → Prop
  | unsigned {ds : List Char} (h : IsDigits ds) : Numeral ds (decimal ds)
  | plus {ds : List Char} (h : IsDigits ds) : Numeral ('+' :: ds) (decimal ds)
  | minus {ds : List Char} (h : IsDigits ds) : Numeral ('-' :: ds) (-decimal ds)

/-- The text is an integer in decimal, the blanks around it left out. -/
def Spells (x : String) (n : Int) : Prop := ∃ body, Trimmed x.toList body ∧ Numeral body n

theorem spells_iff : Spells x n ↔ Numeral (trim x.toList) n := by
  constructor
  · rintro ⟨body, hbody, hn⟩
    rwa [trim_eq_iff.mpr hbody]
  · intro hn
    exact ⟨_, trimmed_trim _, hn⟩

/-! ## Reading numerals -/

/-- Reading digit by digit adds up their places. -/
theorem natOfDigits_eq_decimal (ds : List Char) : natOfDigits 0 ds = decimal ds := by
  induction ds using List.reverseRecOn with
  | nil => rfl
  | append_singleton ds d ih =>
    have hread : natOfDigits 0 (ds ++ [d]) = 10 * natOfDigits 0 ds + digitValue d := by
      rw [natOfDigits, natOfDigits, List.foldl_append]
      rfl
    have hplaces : decimal (ds ++ [d]) = digitValue d + 10 * decimal ds := by
      rw [decimal, List.reverse_append, List.reverse_singleton, List.singleton_append,
        List.map_cons, Nat.ofDigits_cons]
      rfl
    rw [hread, hplaces, ih, Nat.add_comm]

theorem readNat?_eq_some_iff :
    readNat? limit ds = some m ↔ IsDigits ds ∧ decimal ds < limit ∧ decimal ds = m := by
  rw [readNat?_eq, natOfDigits_eq_decimal, Option.ite_none_right_eq_some, Option.some.injEq,
    List.all_eq_true]
  simp only [IsDigits, and_assoc]

/-- The reader accepts just the numerals of the numbers below its limit. -/
theorem readInt?_eq_some_iff : readInt? limit cs = some n ↔ Numeral cs n ∧ n.natAbs < limit := by
  constructor
  · intro h
    unfold readInt? at h
    split at h
    · obtain ⟨m, hm, rfl⟩ := Option.map_eq_some_iff.mp h
      obtain ⟨hds, hlimit, rfl⟩ := readNat?_eq_some_iff.mp hm
      exact ⟨.plus hds, hlimit⟩
    · obtain ⟨m, hm, rfl⟩ := Option.map_eq_some_iff.mp h
      obtain ⟨hds, hlimit, rfl⟩ := readNat?_eq_some_iff.mp hm
      exact ⟨.minus hds, by rwa [Int.natAbs_neg]⟩
    · obtain ⟨m, hm, rfl⟩ := Option.map_eq_some_iff.mp h
      obtain ⟨hds, hlimit, rfl⟩ := readNat?_eq_some_iff.mp hm
      exact ⟨.unsigned hds, hlimit⟩
  · rintro ⟨hnumeral, hlimit⟩
    cases hnumeral with
    | unsigned h =>
      rw [readInt?_of_digits h.2, readNat?_eq_some_iff.mpr ⟨h, hlimit, rfl⟩]
      rfl
    | plus h =>
      rw [readInt?, readNat?_eq_some_iff.mpr ⟨h, hlimit, rfl⟩]
      rfl
    | minus h =>
      rw [Int.natAbs_neg] at hlimit
      rw [readInt?, readNat?_eq_some_iff.mpr ⟨h, hlimit, rfl⟩]
      rfl

end Text

/-! ## Coercing texts to integers -/

namespace Value

variable {x : String} {n : Int} {l : IntKind}

/-- The intermediate range bounds what a text is read as. -/
theorem readWide?_eq_some_iff :
    readWide? x = some n ↔ Text.Spells x n ∧ wideLeast ≤ n ∧ n ≤ wideGreatest := by
  have hlimit : wideLeast ≤ n → n ≤ wideGreatest → n.natAbs < Decimal.twoPow 127 + 1 := by
    unfold wideLeast wideGreatest
    omega
  rw [readWide?, Option.filter_eq_some_iff, Text.readInt?_eq_some_iff, Text.spells_iff,
    Bool.and_eq_true, decide_eq_true_eq, decide_eq_true_eq, and_assoc]
  constructor
  · rintro ⟨hn, -, hrange⟩
    exact ⟨hn, hrange⟩
  · rintro ⟨hn, hrange⟩
    exact ⟨hn, hlimit hrange.1 hrange.2, hrange⟩

/-- The intermediate range keeps no number of a kind from being read. -/
theorem toInt?_str {m : l.Elem} : (str x).toInt? l = some m ↔ Text.Spells x m.1 := by
  obtain ⟨hleast, hgreatest⟩ := l.inRange_wide
  rw [toInt?, Option.bind_eq_some_iff]
  constructor
  · rintro ⟨n, hn, hm⟩
    rw [IntKind.ofInt?_eq_some_iff.mp hm]
    exact (readWide?_eq_some_iff.mp hn).1
  · intro hspells
    exact ⟨m.1, readWide?_eq_some_iff.mpr ⟨hspells, Int.le_trans hleast m.2.1,
      Int.le_trans m.2.2 hgreatest⟩, IntKind.ofInt?_val m⟩

end Value

namespace Coercion

/-- The plan takes a text to the integer of the kind that it spells, and refuses every other. -/
structure ReadsNumerals (p : Coercion) (l : IntKind) : Prop where
  value (x : String) (u : Value) : p.apply (.str x) = .ok u ↔
    ∃ n, Text.Spells x n ∧ ∃ h : l.InRange n, u = .int l ⟨n, h⟩
  failure (x : String) (e : AccessError) : p.apply (.str x) = .error e ↔
    e = .unconvertible (.str x) (.int l) ∧ ¬∃ n, Text.Spells x n ∧ l.InRange n

/-- Texts are coerced to integers by the grammar of numerals. -/
theorem reads_numerals (l : IntKind) : ∃ p, Chosen .string (.int l) p ∧ p.ReadsNumerals l := by
  have hstep : Step .string (.int l) (convert (.int l)) := .convert nofun rfl
  have hvalue (x : String) (u : Value) : (Value.str x).convert? (.int l) = some u ↔
      ∃ n, Text.Spells x n ∧ ∃ h : l.InRange n, u = .int l ⟨n, h⟩ := by
    rw [Value.convert?, Option.map_eq_some_iff]
    simp only [Value.toInt?_str]
    constructor
    · rintro ⟨m, hspells, rfl⟩
      exact ⟨m.1, hspells, m.2, rfl⟩
    · rintro ⟨n, hspells, h, rfl⟩
      exact ⟨⟨n, h⟩, hspells, rfl⟩
  refine ⟨_, hstep.chosen rfl rfl, fun x u => ?_, fun x e => ?_⟩
  · rw [apply, applyConvert, orElse_eq_ok_iff, hvalue]
  · rw [apply, applyConvert, orElse_eq_error_iff, Option.eq_none_iff_forall_ne_some]
    simp only [ne_eq, hvalue]
    refine and_congr_right fun _ => ?_
    constructor
    · rintro hnone ⟨n, hspells, h⟩
      exact hnone _ ⟨n, hspells, h, rfl⟩
    · rintro hnone u ⟨n, hspells, h, -⟩
      exact hnone ⟨n, hspells, h⟩

/-- Blanks, leading zeros and the least integer of a kind. -/
example : (convert (.int .i8)).apply (.str "\t-00128 ") = .ok (.int .i8 ⟨-128, by decide⟩) := rfl

end Coercion

end Crosswalk
