import Crosswalk.Proofs.RoundTrips

/-!
# Ways between integers

Whatever an integer is coerced to, a character, another integer or a text, still reads as its
number, since it can be coerced back (`Value.wide?_of_convert?`). What a value is coerced to in a
kind of integers depends on the number it reads as, and on nothing else
(`Coercion.Step.apply_eq_ok_iff_inRange`). So the plan from one kind to another keeps the number
wherever the other kind has it, and gives what every way through a third type gives
(`Coercion.exact_between_integers`).
-/

namespace Crosswalk

namespace IntKind

variable {k : IntKind} {n : Int}

theorem ofInt?_map_eq_some_iff {u : Value} :
    (k.ofInt? n).map (Value.int k) = some u ↔ ∃ h : k.InRange n, u = .int k ⟨n, h⟩ := by
  rw [Option.map_eq_some_iff]
  constructor
  · rintro ⟨m, hm, rfl⟩
    obtain rfl : m.1 = n := ofInt?_eq_some_iff.mp hm
    exact ⟨m.2, rfl⟩
  · rintro ⟨h, rfl⟩
    exact ⟨⟨n, h⟩, ofInt?_eq_some_iff.mpr rfl, rfl⟩

end IntKind

namespace Value

variable {v w : Value} {n : Int} {k : IntKind} {B : ValueType}

theorem convert?_int (h : v.wide? = some n) (k : IntKind) :
    v.convert? (.int k) = (k.ofInt? n).map (int k) := by
  rw [convert?, toInt?, h, Option.bind_some]

/-- What an integer is converted to reads as the number of the integer. -/
theorem wide?_of_convert? {n : k.Elem} (hB : B = .char ∨ B.IsCode)
    (h : (int k n).convert? B = some w) : w.wide? = some n.1 := by
  have hback : w.convert? (.int k) = some (int k n) :=
    convert?_back (A := .int k) trivial hB (beq_self_eq_true k) h
  obtain ⟨m, hm, heq⟩ := Option.map_eq_some_iff.mp hback
  cases heq
  obtain ⟨number, hnumber, hread⟩ := Option.bind_eq_some_iff.mp hm
  rw [hnumber, IntKind.ofInt?_eq_some_iff.mp hread]

end Value

namespace Coercion

variable {B : ValueType} {p q : Coercion} {w : Value} {n : Int} {k l : IntKind}

/-- What an integer is coerced to is of its type, and reads as the number of the integer. -/
theorem Step.wide?_of_apply {n : k.Elem} (h : Step (.int k) B q) (hB : B = .char ∨ B.IsCode)
    (hw : q.apply (.int k n) = .ok w) : w.conforms B = true ∧ w.wide? = some n.1 := by
  cases h with
  | identity =>
    obtain rfl : .int k n = w := Except.ok.inj hw
    exact ⟨beq_self_eq_true k, rfl⟩
  | convert _ _ =>
    have hconverted := orElse_eq_ok_iff.mp hw
    exact ⟨Value.conforms_convert? hconverted, Value.wide?_of_convert? hB hconverted⟩
  | integralToEnum _ e => rcases hB with hB | hB <;> cases hB

/-- Coercion to integers goes by the number that the value reads as. -/
theorem Step.apply_eq_ok_iff_inRange {u : Value} (h : Step B (.int l) p)
    (hB : B = .char ∨ B.IsCode) (hw : w.conforms B = true) (hn : w.wide? = some n) :
    p.apply w = .ok u ↔ ∃ hl : l.InRange n, u = .int l ⟨n, hl⟩ := by
  rw [← IntKind.ofInt?_map_eq_some_iff]
  cases h with
  | identity =>
    cases w with
    | int k m =>
      obtain rfl : k = l := eq_of_beq hw
      obtain rfl : m.1 = n := Option.some.inj hn
      rw [IntKind.ofInt?_val, Option.map_some, apply, Except.ok.injEq, Option.some.injEq]
    | _ => cases hw
  | convert _ _ => rw [apply, applyConvert, orElse_eq_ok_iff, Value.convert?_int hn]
  | enumToIntegral e _ => rcases hB with hB | hB <;> cases hB

/-- Integers have a plan to characters, integers and texts, and one from them. -/
theorem exists_steps_of_integer (hB : B = .char ∨ B.IsCode) (k : IntKind) :
    (∃ q, Step (.int k) B q) ∧ ∃ r, Step B (.int k) r := by
  have hakin : Akin (.int k) B := by
    rcases hB with rfl | hB
    · exact .inr (.inr (.char trivial))
    · cases B with
      | int l => exact .inr (.inl (.basic trivial trivial))
      | string => exact .inr (.inl (.basic trivial trivial))
      | _ => exact hB.elim
  exact ⟨exists_step_iff.mpr hakin, exists_step_iff.mpr (akin_comm.mp hakin)⟩

/-- The plan `p` takes each integer of the kind `k` to the integer of the kind `l` that has its
number, and does what any way through a character, an integer or a text does. -/
structure Exact (p : Coercion) (k l : IntKind) : Prop where
  number (n : k.Elem) (u : Value) :
    p.apply (.int k n) = .ok u ↔ ∃ h : l.InRange n.1, u = .int l ⟨n.1, h⟩
  /-- Where the first stretch succeeds, the second ends as the plan does. -/
  path (B : ValueType) (hB : B = .char ∨ B.IsCode) :
    ∃ q r, Chosen (.int k) B q ∧ Chosen B (.int l) r ∧
      ∀ (n : k.Elem) (w : Value), q.apply (.int k n) = .ok w →
        ∀ u, r.apply w = .ok u ↔ p.apply (.int k n) = .ok u

/-- Between two kinds of integers the number decides, whichever way it goes. -/
theorem exact_between_integers (k l : IntKind) :
    ∃ p, Chosen (.int k) (.int l) p ∧ p.Exact k l := by
  obtain ⟨p, hp⟩ := (exists_steps_of_integer (B := .int l) (.inr trivial) k).1
  have hnumber (n : k.Elem) (u : Value) :
      p.apply (.int k n) = .ok u ↔ ∃ h : l.InRange n.1, u = .int l ⟨n.1, h⟩ :=
    hp.apply_eq_ok_iff_inRange (.inr trivial) (beq_self_eq_true k) rfl
  refine ⟨p, hp.chosen rfl rfl, hnumber, fun B hB => ?_⟩
  have hplain : B.isNullable = false := by
    rcases hB with rfl | hB
    · rfl
    · exact hB.not_nullable
  obtain ⟨q, hq⟩ := (exists_steps_of_integer hB k).1
  obtain ⟨r, hr⟩ := (exists_steps_of_integer hB l).2
  refine ⟨q, r, hq.chosen rfl hplain, hr.chosen hplain rfl, fun n w hw u => ?_⟩
  obtain ⟨hconforms, hread⟩ := hq.wide?_of_apply hB hw
  rw [hr.apply_eq_ok_iff_inRange hB hconforms hread, hnumber]

/-- To eight bits by way of characters: a number that fits, and one that does not. -/
theorem exact_between_integers_u32 :
    ∃ p q r, Chosen (.int .u32) (.int .u8) p ∧ Chosen (.int .u32) .char q ∧
      Chosen .char (.int .u8) r ∧
      q.apply (.int .u32 ⟨120, by decide⟩) = .ok (.char 'x') ∧
      r.apply (.char 'x') = .ok (.int .u8 ⟨120, by decide⟩) ∧
      p.apply (.int .u32 ⟨120, by decide⟩) = .ok (.int .u8 ⟨120, by decide⟩) ∧
      q.apply (.int .u32 ⟨955, by decide⟩) = .ok (.char '\u03bb') ∧
      ∀ u, r.apply (.char '\u03bb') ≠ .ok u := by
  obtain ⟨p, hp, hexact⟩ := exact_between_integers .u32 .u8
  obtain ⟨q, r, hq, hr, hpath⟩ := hexact.path .char (.inl rfl)
  obtain rfl : convert .char = q := Except.ok.inj (hq .error)
  have hfits : p.apply (.int .u32 ⟨120, by decide⟩) = .ok (.int .u8 ⟨120, by decide⟩) :=
    (hexact.number _ _).mpr ⟨by decide, rfl⟩
  refine ⟨p, _, r, hp, hq, hr, rfl, (hpath _ _ rfl _).mpr hfits, hfits, rfl, fun u hu => ?_⟩
  obtain ⟨hrange, -⟩ := (hexact.number _ _).mp ((hpath ⟨955, by decide⟩ _ rfl u).mp hu)
  exact absurd hrange (by decide)

end Coercion

end Crosswalk
