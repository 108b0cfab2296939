import Crosswalk.Proofs.CoercionDomain
import Crosswalk.Proofs.IntegerText
import Crosswalk.Proofs.NullablePaths

/-!
# There and back

A truth value, a character or an integer stands for a number (`Value.Counts`), and conversion
between such values goes by that number (`Value.convert?_eq_ofNumber?`), so it can be undone. Their
texts read back as they are, signs, digits and all (`Value.convert?_display`). Hence a value
coerced to a character, an integer or a text is had back by the plan the other way
(`Coercion.Step.undoes`), also where the types are nullable: only a default becomes absent there,
and an absent value stands for the default (`Coercion.Step.exists_undoes_into`).
-/

namespace Crosswalk

/-- A type of truth values, characters or integers. -/
def ValueType.IsDiscrete : ValueType → Prop
  | bool | char | int _ => True
  | float _ | string | enum _ | nullable _ => False

theorem ValueType.IsDiscrete.not_nullable {t : ValueType} (h : t.IsDiscrete) :
    t.isNullable = false := by
  cases t with
  | nullable u => exact h.elim
  | _ => rfl

theorem ValueType.IsDiscrete.null_not_conforms {t : ValueType} (h : t.IsDiscrete) :
    Value.null.conforms t ≠ true := by
  cases t with
  | nullable u => exact h.elim
  | _ => exact Bool.false_ne_true

/-- What a value is coded by is a text or an integer. -/
theorem ValueType.IsCode.eq_string_or_discrete {t : ValueType} (h : t.IsCode) :
    t = .string ∨ t.IsDiscrete := by
  cases t with
  | int k => exact .inr trivial
  | string => exact .inl rfl
  | _ => exact h.elim

namespace Value

variable {v w : Value} {n : Int} {A B : ValueType}

/-! ## Characters and their numbers -/

/-- The number of a character leads back to it. -/
theorem charOfInt?_toNat (c : Char) : charOfInt? c.toNat = some c := by
  have hvalid : c.toNat.isValidChar := c.valid
  have hchar : Char.ofNat c.toNat = c := Char.ofNat_toNat c
  rw [Char.ofNat, dif_pos hvalid] at hchar
  rw [charOfInt?, dif_pos ⟨Int.natCast_nonneg _, hvalid⟩]
  exact congrArg some hchar

theorem toNat_of_charOfInt? {c : Char} (h : charOfInt? n = some c) : (c.toNat : Int) = n := by
  unfold charOfInt? at h
  by_cases hn : 0 ≤ n ∧ n.toNat.isValidChar
  · rw [dif_pos hn] at h
    have hc : c.toNat = n.toNat := congrArg Char.toNat (Option.some.inj h).symm
    rw [hc, Int.toNat_of_nonneg hn.1]
  · rw [dif_neg hn] at h
    cases h

/-! ## Numbers that values stand for -/

/-- The value stands for the number. -/
inductive Counts : Value → Int → Prop
  | bool (b : Bool) : Counts (bool b) b.toNat
  | char (c : Char) : Counts (char c) c.toNat
  | int (k : IntKind) (m : k.Elem) : Counts (int k m) m.1

/-- The value of the type that stands for the number. -/
def ofNumber? (n : Int) : ValueType → Option Value
  | .bool => some (bool (n ≠ 0))
  | .char => (charOfInt? n).map char
  | .int k => (k.ofInt? n).map (int k)
  | _ => none

/-- Conversion between discrete types goes by the number. -/
theorem convert?_eq_ofNumber? (h : v.Counts n) (hA : A.IsDiscrete) :
    v.convert? A = ofNumber? n A := by
  cases A with
  | bool =>
    cases h with
    | bool b => cases b <;> rfl
    | char c => rfl
    | int k m => rfl
  | char =>
    cases h with
    | bool b => rfl
    | char c => rw [ofNumber?, charOfInt?_toNat]; rfl
    | int k m => rfl
  | int k => cases h <;> rfl
  | _ => exact hA.elim

/-- A value of a discrete type is the value of its number. -/
theorem exists_counts (hA : A.IsDiscrete) (hv : v.conforms A = true) :
    ∃ n, v.Counts n ∧ ofNumber? n A = some v := by
  cases A with
  | bool =>
    cases v with
    | bool b => exact ⟨_, .bool b, by cases b <;> rfl⟩
    | _ => cases hv
  | char =>
    cases v with
    | char c => exact ⟨_, .char c, by rw [ofNumber?, charOfInt?_toNat]; rfl⟩
    | _ => cases hv
  | int k =>
    cases v with
    | int k' m =>
      obtain rfl : k' = k := eq_of_beq hv
      exact ⟨_, .int k' m, by rw [ofNumber?, IntKind.ofInt?_val]; rfl⟩
    | _ => cases hv
  | _ => exact hA.elim

/-- Characters and integers have the number they come from. -/
theorem counts_of_ofNumber? (hB : B = .char ∨ B.IsCode) (h : ofNumber? n B = some w) :
    w.Counts n := by
  cases B with
  | bool => rcases hB with hB | hB <;> cases hB
  | char =>
    obtain ⟨c, hc, rfl⟩ := Option.map_eq_some_iff.mp h
    rw [← toNat_of_charOfInt? hc]
    exact .char c
  | int k =>
    obtain ⟨m, hm, rfl⟩ := Option.map_eq_some_iff.mp h
    rw [← IntKind.ofInt?_eq_some_iff.mp hm]
    exact .int k m
  | _ => cases h

/-! ## Texts that values stand for -/

/-- The text of a value of a discrete type stands for the value. -/
theorem convert?_display (hA : A.IsDiscrete) (hv : v.conforms A = true) :
    (str v.display).convert? A = some v := by
  cases A with
  | bool =>
    cases v with
    | bool b => cases b <;> decide
    | _ => cases hv
  | char =>
    cases v with
    | char c => simp only [convert?, toChar?, display, String.toList_singleton, Option.map_some]
    | _ => cases hv
  | int k =>
    cases v with
    | int k' m =>
      obtain rfl : k' = k := eq_of_beq hv
      obtain ⟨hleast, hgreatest⟩ := k'.inRange_wide
      have hread : readWide? (toString m.1) = some m.1 :=
        readWide?_toString (Int.le_trans hleast m.2.1) (Int.le_trans m.2.2 hgreatest)
      simp only [convert?, toInt?, wide?, display, hread, Option.bind_some, IntKind.ofInt?_val,
        Option.map_some]
    | _ => cases hv
  | _ => exact hA.elim

/-- Conversion of a value to a character, an integer or a text can be undone. -/
theorem convert?_back (hA : A.IsDiscrete) (hB : B = .char ∨ B.IsCode) (hv : v.conforms A = true)
    (h : v.convert? B = some w) : w.convert? A = some v := by
  obtain ⟨n, hcounts, hvalue⟩ := exists_counts hA hv
  have hkind : B = .string ∨ B.IsDiscrete := by
    rcases hB with rfl | hB
    · exact .inr trivial
    · exact hB.eq_string_or_discrete
  rcases hkind with rfl | hdiscrete
  · have hw : str v.display = w := by
      cases hcounts <;> exact Option.some.inj h
    rw [← hw]
    exact convert?_display hA hv
  · rw [convert?_eq_ofNumber? hcounts hdiscrete] at h
    rw [convert?_eq_ofNumber? (counts_of_ofNumber? hB h) hA, hvalue]

/-- Values that are the same number are equal, floating-point zeros of two signs apart. -/
theorem eq_of_sameNumber (h : v.sameNumber w = true) (hw : ∀ k word, w ≠ float k word) : v = w := by
  unfold sameNumber at h
  split at h
  · exact absurd rfl (hw _ _)
  · exact absurd rfl (hw _ _)
  · exact of_decide_eq_true h

theorem eq_default_of_sameNumber (hA : A.IsDiscrete) (h : v.sameNumber A.default = true) :
    v = A.default := by
  refine eq_of_sameNumber h ?_
  cases A with
  | bool | char | int k => exact nofun
  | _ => exact hA.elim

end Value

namespace Coercion

variable {A B S T : ValueType} {p q : Coercion} {v w : Value} {behavior : NullableBehavior}

/-! ## Plans there and back -/

/-- The plan `q` has back what the plan `p` makes of the values of the type. -/
def Undoes (q p : Coercion) (t : ValueType) : Prop :=
  ∀ v w, v.conforms t = true → p.apply v = .ok w → q.apply w = .ok v

/-- A step from a discrete type through an integer or a text is undone by the step back. -/
theorem Step.undoes (hp : Step A B p) (hq : Step B A q) (hA : A.IsDiscrete)
    (hB : B = .char ∨ B.IsCode) : q.Undoes p A := by
  intro v w hv h
  cases hp with
  | identity =>
    cases hq with
    | identity => exact congrArg Except.ok (Except.ok.inj h).symm
    | convert hne _ => exact absurd rfl hne
  | convert hne _ =>
    cases hq with
    | identity => exact absurd rfl hne
    | convert _ _ =>
      exact orElse_eq_ok_iff.mpr (Value.convert?_back hA hB hv (orElse_eq_ok_iff.mp h))
    | enumToIntegral e k => rcases hB with hB | hB <;> cases hB
    | _ => exact hA.elim
  | integralToEnum k e => rcases hB with hB | hB <;> cases hB
  | _ => exact hA.elim

/-- Both types made nullable, the plans undo each other as before: absent values stay absent. -/
theorem Step.exists_undoes_between (hp : Step A B p) (hq : Step B A q)
    (hB : B.isNullable = false) (h : q.Undoes p A) (behavior : NullableBehavior) :
    ∃ p' q', resolve (.nullable A) (.nullable B) behavior = .ok p' ∧
      resolve (.nullable B) (.nullable A) behavior = .ok q' ∧ q'.Undoes p' (.nullable A) := by
  obtain ⟨p', hp', hnull, hpresent⟩ := hp.exists_lift behavior
  obtain ⟨q', hq', hnull', hpresent'⟩ := hq.exists_lift behavior
  refine ⟨p', q', hp', hq', fun v w hv hw => ?_⟩
  by_cases habsent : v = .null
  · subst habsent
    rw [hnull] at hw
    rw [← Except.ok.inj hw, hnull']
  · rw [hpresent v habsent] at hw
    have hw' : w ≠ .null := by
      rintro rfl
      exact hp.apply_ne_null hB habsent hw
    rw [hpresent' w hw']
    exact h v w ((Value.conforms_nullable_iff.mp hv).resolve_left habsent) hw

/-- The plan into a nullable type does what the step does, or makes a default absent. -/
theorem Step.exists_into (hp : Step A B p) (hA : A.isNullable = false)
    (hB : B.isNullable = false) (hb : behavior ≠ .error) :
    ∃ p', resolve A (.nullable B) behavior = .ok p' ∧ ∀ v w, v ≠ .null → p'.apply v = .ok w →
      p.apply v = .ok w ∨ w = .null ∧ v.sameNumber A.default = true := by
  cases behavior with
  | error => exact absurd rfl hb
  | assignDefaultAsIs =>
    obtain ⟨p', hp', hsame⟩ := (hp.extends hA hB).asIs
    exact ⟨p', hp', fun v w _ hw => .inl ((hsame v).symm.trans hw)⟩
  | defaultMapsToNull =>
    obtain ⟨p', hp', hnulled⟩ := (hp.extends hA hB).nulled
    refine ⟨p', hp', fun v w hv hw => ?_⟩
    obtain ⟨hnull, hother⟩ := hnulled v hv
    cases hdefault : v.sameNumber A.default with
    | true =>
      rw [hnull.mpr hdefault] at hw
      exact .inr ⟨(Except.ok.inj hw).symm, rfl⟩
    | false => exact .inl ((hother hdefault).symm.trans hw)

/-- The second type made nullable, the plans undo each other: what is absent was the default. -/
theorem Step.exists_undoes_into (hp : Step A B p) (hq : Step B A q) (hA : A.IsDiscrete)
    (hB : B.isNullable = false) (h : q.Undoes p A) (hb : behavior ≠ .error) :
    ∃ p' q', resolve A (.nullable B) behavior = .ok p' ∧
      resolve (.nullable B) A behavior = .ok q' ∧ q'.Undoes p' A := by
  obtain ⟨p', hp', hforward⟩ := hp.exists_into hA.not_nullable hB hb
  obtain ⟨q', hq', hnull, hpresent⟩ := (hq.extends hB hA.not_nullable).unwrapped behavior
  refine ⟨p', q', hp', hq', fun v w hv hw => ?_⟩
  have hv' : v ≠ .null := by
    rintro rfl
    exact hA.null_not_conforms hv
  rcases hforward v w hv' hw with hw | ⟨rfl, hdefault⟩
  · have hw' : w ≠ .null := by
      rintro rfl
      exact hp.apply_ne_null hB hv' hw
    rw [hpresent w hw']
    exact h v w hv hw
  · rw [hnull, Value.eq_default_of_sameNumber hA hdefault]

/-- The types `S` and `T` are `A` and `B`, with `B` nullable, or with both. -/
inductive Layered (A B : ValueType) : ValueType → ValueType → Prop
  | plain : Layered A B A B
  | into : Layered A B A (.nullable B)
  | between : Layered A B (.nullable A) (.nullable B)

/-- A truth value, a character or an integer that is coerced to a character, an integer or a text
is had back by the plan the other way, whichever of the layers the plans are in. -/
theorem exists_undoes_of_layered (hA : A.IsDiscrete) (hB : B = .char ∨ B.IsCode)
    (hAB : ∃ p, resolve A B behavior = .ok p) (hb : behavior ≠ .error) (hST : Layered A B S T) :
    ∃ p q, resolve S T behavior = .ok p ∧ resolve T S behavior = .ok q ∧
      ∀ v w, v.conforms S = true → p.apply v = .ok w → q.apply w = .ok v := by
  have hB' : B.isNullable = false := by
    rcases hB with rfl | hB
    · rfl
    · exact hB.not_nullable
  obtain ⟨p, hp⟩ := hAB
  rw [resolve_of_not_nullable hA.not_nullable hB'] at hp
  have hstep : Step A B p := step_of_resolvePlain hp
  obtain ⟨q, hback⟩ := exists_step_iff.mpr (akin_comm.mp hstep.akin)
  have hundoes : q.Undoes p A := hstep.undoes hback hA hB
  cases hST with
  | plain =>
    refine ⟨p, q, ?_, ?_, hundoes⟩
    · rw [resolve_of_not_nullable hA.not_nullable hB', hp]
    · rw [resolve_of_not_nullable hB' hA.not_nullable, hback.resolvePlain_eq]
  | into => exact hstep.exists_undoes_into hback hA hB' hundoes hb
  | between => exact hstep.exists_undoes_between hback hB' hundoes behavior

/-- Integers in texts, where the absent text stands for zero: zero and the least integer. -/
theorem exists_undoes_of_layered_i8 :
    (ValueType.int .i8).IsDiscrete ∧ ValueType.string.IsCode ∧
      Layered (.int .i8) .string (.int .i8) (.nullable .string) ∧
      ∃ p q, resolve (.int .i8) (.nullable .string) .defaultMapsToNull = .ok p ∧
        resolve (.nullable .string) (.int .i8) .defaultMapsToNull = .ok q ∧
        p.apply (.int .i8 ⟨0, by decide⟩) = .ok .null ∧
        q.apply .null = .ok (.int .i8 ⟨0, by decide⟩) ∧
        p.apply (.int .i8 ⟨-128, by decide⟩) = .ok (.str "-128") ∧
        q.apply (.str "-128") = .ok (.int .i8 ⟨-128, by decide⟩) := by
  have hplan : resolve (.int .i8) .string .defaultMapsToNull = .ok (convert .string) := rfl
  obtain ⟨p, q, hp, hq, hback⟩ := exists_undoes_of_layered (A := .int .i8) (B := .string)
    trivial (.inr trivial) ⟨_, hplan⟩ nofun .into
  obtain rfl : wrap (convert .string) (some (.int .i8)) = p := Except.ok.inj hp
  have hzero : (wrap (convert .string) (some (.int .i8))).apply (.int .i8 ⟨0, by decide⟩) =
      .ok .null := rfl
  have hleast : (wrap (convert .string) (some (.int .i8))).apply (.int .i8 ⟨-128, by decide⟩) =
      .ok (.str "-128") := rfl
  exact ⟨trivial, trivial, .into, _, q, hp, hq, hzero, hback _ _ rfl hzero, hleast,
    hback _ _ rfl hleast⟩

end Coercion

end Crosswalk
