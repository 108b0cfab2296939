import Crosswalk.Json.Reader
import Crosswalk.Json.Writer

/-!
# Texts and numbers of JSON read back

What the writer makes of a text is read as the text (`exists_writeText_eq`): each character is
written as itself or as an escape that stands for it (`spells_escaped`), and half of a surrogate
pair, written for an absent text, is read as absent. What is written of a numeral is read as the
numeral (`readNumber?_append`), where its digits are those of a number in JSON (`Numeral.Legible`)
and no more of a number follows (`NumberEnds`).
-/

/-! ## Texts -/

namespace Crosswalk.Json

variable {fuel : Nat} {c : Char} {cs ds rest : List Char}

/-- The characters that stand for one inside a text. -/
inductive Spells : Char → List Char → Prop
  | short {c d : Char} (hd : d ≠ 'u') (h : shortEscape? d = some c) : Spells c ['\\', d]
  | code {c : Char} (h : c.toNat < 32) :
      Spells c ['\\', 'u', '0', '0', Nat.digitChar (c.toNat / 16), Nat.digitChar (c.toNat % 16)]
  | plain {c : Char} (hquote : c ≠ '"') (hslash : c ≠ '\\') (h : 32 ≤ c.toNat) : Spells c [c]

/-- A character is spelled by its escape. -/
theorem spells_escaped (c : Char) : Spells c (escaped c) := by
  by_cases hshort : c ∈ ['"', '\\', '\x08', '\t', '\n', '\x0c', '\r']
  · simp only [List.mem_cons, List.not_mem_nil, or_false] at hshort
    rcases hshort with rfl | rfl | rfl | rfl | rfl | rfl | rfl <;> exact .short (by decide) rfl
  · simp only [List.mem_cons, List.not_mem_nil, or_false, not_or] at hshort
    obtain ⟨hquote, hslash, hback, htab, hline, hpage, hreturn⟩ := hshort
    rw [escaped, if_neg hquote, if_neg hslash, if_neg hback, if_neg htab, if_neg hline,
      if_neg hpage, if_neg hreturn]
    split
    · next h => exact .code h
    · next h => exact .plain hquote hslash (Nat.le_of_not_lt h)

theorem hexValue?_digitChar : ∀ n < 16, hexValue? (Nat.digitChar n) = some n := by decide

/-- A control character is read from its code point in hexadecimal. -/
theorem readUnicode?_control (h : c.toNat < 32) (cs : List Char) :
    readUnicode? (['0', '0', Nat.digitChar (c.toNat / 16), Nat.digitChar (c.toNat % 16)] ++ cs) =
      some (some c, cs) := by
  have hzero : hexValue? '0' = some 0 := rfl
  have hcode : 4096 * 0 + 256 * 0 + 16 * (c.toNat / 16) + c.toNat % 16 = c.toNat := by omega
  have hhigh : isHighSurrogate c.toNat = false := by
    simp only [isHighSurrogate, Bool.and_eq_false_iff, decide_eq_false_iff_not]
    omega
  have hlow : isLowSurrogate c.toNat = false := by
    simp only [isLowSurrogate, Bool.and_eq_false_iff, decide_eq_false_iff_not]
    omega
  simp only [List.cons_append, List.nil_append, readUnicode?, readHex?, hzero,
    hexValue?_digitChar (c.toNat / 16) (by omega), hexValue?_digitChar (c.toNat % 16) (by omega),
    hcode, hhigh, hlow, Char.ofNat_toNat]
  rfl

/-- A spelling is read as the character it spells, and no more is taken. -/
theorem readChar?_of_spells (h : Spells c ds) (cs : List Char) :
    readChar? (ds ++ cs) = some (some c, cs) := by
  cases h with
  | short _ h => simp [readChar?, h]
  | code h => exact readUnicode?_control h cs
  | plain _ hslash h => simp [readChar?, hslash, Nat.not_lt.mpr h]

theorem head_ne_quote (h : Spells c ds) (cs : List Char) : (ds ++ cs).head? ≠ some '"' := by
  cases h with
  | short | code => simp
  | plain hquote => simpa using hquote

/-- A text goes on after the spelling of each of its characters. -/
theorem readText?_of_spells (h : Spells c ds) (fuel : Nat) (cs : List Char) :
    readText? (fuel + 1) (ds ++ cs) =
      (readText? fuel cs).map fun (s, rest) => (s.map (c :: ·), rest) := by
  have hread := readChar?_of_spells h cs
  conv =>
    lhs
    unfold readText?
  split
  · next heq => exact absurd (congrArg List.head? heq) (head_ne_quote h cs)
  · rw [hread]
    rfl

theorem length_pos_of_spells (h : Spells c ds) : 0 < ds.length := by
  cases h <;> exact Nat.succ_pos _

/-- A text up to its closing quote is read as it was before it was written. -/
theorem readText?_flatMap (h : (cs.flatMap escaped).length < fuel) (rest : List Char) :
    readText? fuel (cs.flatMap escaped ++ '"' :: rest) = some (some cs, rest) := by
  induction cs generalizing fuel with
  | nil =>
    cases fuel with
    | zero => cases h
    | succ fuel => rfl
  | cons c cs ih =>
    have hspells := spells_escaped c
    have hpos := length_pos_of_spells hspells
    rw [List.flatMap_cons, List.length_append] at h
    cases fuel with
    | zero => cases h
    | succ fuel =>
      rw [List.flatMap_cons, List.append_assoc, readText?_of_spells hspells, ih (by omega)]
      rfl

/-- A written text opens with a quote, and what follows the quote is read as the text. -/
theorem exists_writeText_eq (s : Option String) : ∃ cs, writeText s = '"' :: cs ∧
    ∀ rest, readString? (cs ++ rest) = some (s, rest) := by
  cases s with
  | none => exact ⟨_, rfl, fun rest => rfl⟩
  | some s =>
    refine ⟨s.toList.flatMap escaped ++ ['"'], rfl, fun rest => ?_⟩
    have hfuel : (s.toList.flatMap escaped).length <
        (s.toList.flatMap escaped ++ '"' :: rest).length + 1 := by
      rw [List.length_append]
      omega
    rw [List.append_assoc, List.singleton_append, readString?, readText?_flatMap hfuel]
    show some (some (String.ofList s.toList), rest) = _
    rw [String.ofList_toList]

end Crosswalk.Json

/-! ## Numbers -/

namespace Crosswalk.Decimal.Numeral

/-- The digits are those of a number in JSON: there is one before the point, and no zero in front
of another. -/
structure Legible (x : Numeral) : Prop where
  whole : x.whole ≠ []
  wholeDigits : ∀ c ∈ x.whole, c.isDigit = true
  leading : x.whole.head? = some '0' → x.whole = ['0']
  fractionDigits : ∀ c ∈ x.fraction, c.isDigit = true

/-- Digits of a number other than zero do not start with zero. -/
theorem head?_toDigits {n : Nat} (h : (Nat.toDigits 10 n).head? = some '0') : n = 0 := by
  induction n using Nat.strongRecOn with
  | ind n ih =>
    rcases Nat.lt_or_ge n 10 with hn | hn
    · have hsmall : ∀ n < 10, Nat.digitChar n = '0' → n = 0 := by decide
      rw [Nat.toDigits_of_lt_base hn] at h
      exact hsmall n hn (Option.some.inj h)
    · rw [Nat.toDigits_of_base_le (by decide) hn, List.head?_append, Option.or_eq_some_iff] at h
      rcases h with h | ⟨h, -⟩
      · have hdiv := ih (n / 10) (by omega) h
        omega
      · exact absurd (List.head?_eq_none_iff.mp h) Nat.toDigits_ne_nil

theorem legible_ofInt (n : Int) : (ofInt n).Legible where
  whole := Nat.toDigits_ne_nil
  wholeDigits _ := Nat.isDigit_of_mem_toDigits (by decide) (by decide)
  leading h := by
    show Nat.toDigits 10 n.natAbs = ['0']
    rw [head?_toDigits h]
    rfl
  fractionDigits := nofun

/-- The point and the digits after it. -/
def fractionChars (x : Numeral) : List Char :=
  if x.fraction.isEmpty then [] else '.' :: x.fraction

/-- The exponent with its mark and its sign. -/
def exponentChars (x : Numeral) : List Char :=
  match x.exponent with
  | none => []
  | some e => 'e' :: (if e < 0 then '-' else '+') :: Nat.toDigits 10 e.natAbs

theorem exponentChars_of_none {x : Numeral} (h : x.exponent = none) : x.exponentChars = [] := by
  rw [exponentChars, h]

theorem exponentChars_of_some {x : Numeral} {e : Int} (h : x.exponent = some e) :
    x.exponentChars = 'e' :: (if e < 0 then '-' else '+') :: Nat.toDigits 10 e.natAbs := by
  rw [exponentChars, h]

/-- A numeral is its sign, its whole part, its fraction and its exponent. -/
theorem chars_eq (x : Numeral) : x.chars true =
    (if x.negative then ['-'] else []) ++ (x.whole ++ (x.fractionChars ++ x.exponentChars)) := by
  unfold chars fractionChars exponentChars
  cases x.exponent with
  | none => simp
  | some e => by_cases he : e < 0 <;> simp [he]

end Crosswalk.Decimal.Numeral

namespace Crosswalk.Json

open Decimal

variable {x : Numeral} {ds rest : List Char}

/-- What follows is no more of a number. -/
def NumberEnds (rest : List Char) : Prop :=
  ∀ c ∈ rest.head?, c.isDigit = false ∧ c ≠ '.' ∧ c ≠ 'e' ∧ c ≠ 'E'

/-- Digits are split from what follows them, where that is no digit. -/
theorem splitDigits_append (hds : ∀ c ∈ ds, c.isDigit = true)
    (hrest : ∀ c ∈ rest.head?, c.isDigit = false) : splitDigits (ds ++ rest) = (ds, rest) := by
  have hsplit : rest.takeWhile Char.isDigit = [] ∧ rest.dropWhile Char.isDigit = rest := by
    cases rest with
    | nil => exact ⟨rfl, rfl⟩
    | cons c rest =>
      have hc : ¬c.isDigit = true := by simp [hrest c rfl]
      exact ⟨List.takeWhile_cons_of_neg hc, List.dropWhile_cons_of_neg hc⟩
  rw [splitDigits, List.takeWhile_append_of_pos hds, List.dropWhile_append_of_pos hds, hsplit.1,
    hsplit.2, List.append_nil]

/-- The whole part ends where the digits do. -/
theorem readWhole?_append (hx : x.Legible) (hrest : ∀ c ∈ rest.head?, c.isDigit = false) :
    readWhole? (x.whole ++ rest) = some (x.whole, rest) := by
  rw [readWhole?, splitDigits_append hx.wholeDigits hrest]
  split
  · next heq => exact absurd (Prod.mk.inj heq).1 hx.whole
  · next heq =>
    obtain ⟨hwhole, rfl⟩ := Prod.mk.inj heq
    rw [hwhole]
  · next hne heq =>
    obtain ⟨hwhole, rfl⟩ := Prod.mk.inj heq
    have hzero := hx.leading (by rw [hwhole]; rfl)
    exact (hne (List.cons.inj (hwhole.symm.trans hzero)).2).elim
  · next heq =>
    obtain ⟨rfl, rfl⟩ := Prod.mk.inj heq
    rfl

/-- The fraction ends where the digits do, and is not there without a point. -/
theorem readFraction?_append (hx : x.Legible)
    (hrest : ∀ c ∈ rest.head?, c.isDigit = false ∧ c ≠ '.') :
    readFraction? (x.fractionChars ++ rest) = some (x.fraction, rest) := by
  unfold Numeral.fractionChars
  cases hf : x.fraction with
  | nil =>
    show readFraction? rest = some ([], rest)
    unfold readFraction?
    split
    · exact absurd rfl (hrest '.' rfl).2
    · rfl
  | cons c ds =>
    have hds : ∀ d ∈ c :: ds, d.isDigit = true := hf ▸ hx.fractionDigits
    show readFraction? ('.' :: (c :: ds ++ rest)) = _
    rw [readFraction?, splitDigits_append hds fun c hc => (hrest c hc).1]

theorem readExponentDigits?_toDigits (negative : Bool) (n : Nat)
    (hrest : ∀ c ∈ rest.head?, c.isDigit = false) :
    readExponentDigits? negative (Nat.toDigits 10 n ++ rest) =
      some (some (if negative then -(n : Int) else n), rest) := by
  have hdigits : ∀ c ∈ Nat.toDigits 10 n, c.isDigit = true := fun c =>
    Nat.isDigit_of_mem_toDigits (by decide) (by decide)
  have hvalue : Text.natOfDigits 0 (Nat.toDigits 10 n) = n := Nat.ofDigitChars_ten_toDigits
  unfold readExponentDigits?
  rw [splitDigits_append hdigits hrest]
  split
  · next heq => exact absurd (Prod.mk.inj heq).1 Nat.toDigits_ne_nil
  · next heq =>
    obtain ⟨rfl, rfl⟩ := Prod.mk.inj heq
    rw [hvalue]

/-- The exponent ends where the numeral does. -/
theorem readExponent?_append (x : Numeral) (hrest : NumberEnds rest) :
    readExponent? (x.exponentChars ++ rest) = some (x.exponent, rest) := by
  cases hexponent : x.exponent with
  | none =>
    rw [Numeral.exponentChars_of_none hexponent, List.nil_append]
    cases rest with
    | nil => rfl
    | cons c rest =>
      obtain ⟨-, -, hlower, hupper⟩ := hrest c rfl
      unfold readExponent?
      exact if_neg (not_or.mpr ⟨hlower, hupper⟩)
  | some e =>
    rw [Numeral.exponentChars_of_some hexponent]
    have hread (negative : Bool) :=
      readExponentDigits?_toDigits negative e.natAbs fun c hc => (hrest c hc).1
    by_cases he : e < 0
    · have hvalue : -(e.natAbs : Int) = e := by omega
      rw [if_pos he]
      show readExponentDigits? true (Nat.toDigits 10 e.natAbs ++ rest) = _
      rw [hread, if_pos rfl, hvalue]
    · have hvalue : (e.natAbs : Int) = e := by omega
      rw [if_neg he]
      show readExponentDigits? false (Nat.toDigits 10 e.natAbs ++ rest) = _
      rw [hread, if_neg (by decide), hvalue]

/-- What is written of a numeral after its sign is read as the numeral. -/
theorem readNumber?_append (hx : x.Legible) (hrest : NumberEnds rest) :
    readNumber? x.negative (x.whole ++ (x.fractionChars ++ (x.exponentChars ++ rest))) =
      some (x, rest) := by
  have hexponent : ∀ c ∈ (x.exponentChars ++ rest).head?, c.isDigit = false ∧ c ≠ '.' := by
    intro c hc
    cases hx : x.exponent with
    | none =>
      rw [Numeral.exponentChars_of_none hx] at hc
      exact ⟨(hrest c hc).1, (hrest c hc).2.1⟩
    | some e =>
      rw [Numeral.exponentChars_of_some hx] at hc
      cases hc
      decide
  have hfraction : ∀ c ∈ (x.fractionChars ++ (x.exponentChars ++ rest)).head?,
      c.isDigit = false := by
    intro c hc
    unfold Numeral.fractionChars at hc
    split at hc
    · exact (hexponent c hc).1
    · cases hc
      rfl
  simp only [readNumber?, readWhole?_append hx hfraction, readFraction?_append hx hexponent,
    readExponent?_append x hrest, Option.bind_eq_bind, Option.bind_some]
  rfl

end Crosswalk.Json
