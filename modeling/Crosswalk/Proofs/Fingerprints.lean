import Crosswalk.Proofs.Sameness

/-!
# What hash functions are fed

For each thing a hash function is fed a list of tokens, its fingerprint, in which those of its parts
follow each other. So a fingerprint has to show where it ends: with anything behind it, it gives
away the thing and leaves the rest (`Delimits`). Types, plans and values are given away as they are,
members, expressions and mappings up to `==`, each by those of its parts. Hence things are the same
just when the same is fed for them, sameness is an equivalence (`Delimits.keyed`), and a table that
is keyed by lists of mappings finds a list by its equals alone (`Mapping.equalityLaws`). Constants
go by `Value.identical` there: equality of numbers is not reflexive, and takes the zeros of the two
signs for one (`Value.sameNumber_ne_identical_iff`).
-/

namespace Crosswalk

variable {α σ τ : Type}

/-- Fingerprints with more tokens behind them agree just for things that are the same, with the
same behind them. -/
abbrev Delimits (same : α → α → Prop) (fingerprint : α → List Token) : Prop :=
  ∀ a b r r', fingerprint a ++ r = fingerprint b ++ r' ↔ same a b ∧ r = r'

namespace Delimits

variable {same : α → α → Prop} {fingerprint : α → List Token}

theorem fingerprint_eq_iff (h : Delimits same fingerprint) {a b : α} :
    fingerprint a = fingerprint b ↔ same a b := by
  have hab := h a b [] []
  rwa [List.append_nil, List.append_nil, and_iff_left rfl] at hab

/-- Of as many things, the fingerprints one behind the other delimit them one by one. -/
theorem flatMap_iff (h : Delimits same fingerprint) {as bs : List α} {r r' : List Token} :
    as.length = bs.length ∧ as.flatMap fingerprint ++ r = bs.flatMap fingerprint ++ r' ↔
      List.Forall₂ same as bs ∧ r = r' := by
  induction as generalizing bs with
  | nil => cases bs <;> simp
  | cons a as ih =>
    cases bs with
    | nil => simp
    | cons b bs =>
      rw [List.flatMap_cons, List.flatMap_cons, List.append_assoc, List.append_assoc, h,
        List.length_cons, List.length_cons, Nat.add_right_cancel_iff, and_left_comm, ih,
        List.forall₂_cons, and_assoc]

/-- The number of things in front tells where their fingerprints end. -/
theorem counted (h : Delimits same fingerprint) :
    Delimits (List.Forall₂ same) fun as => .count as.length :: as.flatMap fingerprint := by
  intro as bs r r'
  rw [List.cons_append, List.cons_append, List.cons.injEq, Token.count.injEq, h.flatMap_iff]

end Delimits

/-! ## Types and plans -/

theorem IntKind.name_inj {k k' : IntKind} : k.name = k'.name ↔ k = k' := by
  cases k <;> cases k' <;> decide

theorem FloatKind.name_inj {k k' : FloatKind} : k.name = k'.name ↔ k = k' := by
  cases k <;> cases k' <;> decide

/-- The number of variants goes first, so the list of them shows where it ends. -/
theorem EnumType.delimits : Delimits Eq EnumType.fingerprint := by
  intro e e' r r'
  obtain ⟨name, variants⟩ := e
  obtain ⟨name', variants'⟩ := e'
  have hvariant : Delimits Eq fun v : String × Discriminant => [.text v.1, .int v.2.1] := by
    intro v v' r r'
    simp [Prod.ext_iff, Subtype.ext_iff, and_assoc]
  simp only [fingerprint, List.cons_append, List.cons.injEq, Token.text.injEq, Token.count.injEq,
    hvariant.flatMap_iff, List.forall₂_eq_eq_eq, EnumType.mk.injEq, and_assoc]

/-- The first token of a type shows its constructor, and what parts follow. -/
theorem ValueType.delimits : Delimits Eq ValueType.fingerprint := by
  intro t u r r'
  induction t generalizing u with
  | nullable t ih => cases u <;> simp [fingerprint, ih]
  | enum e => cases u <;> simp [fingerprint, EnumType.delimits]
  | _ => cases u <;> simp [fingerprint, IntKind.name_inj, FloatKind.name_inj]

theorem Coercion.fingerprint_wrap (inner : Coercion) (t? : Option ValueType) :
    (wrap inner t?).fingerprint =
      .tag 1 :: inner.fingerprint ++ t?.elim [.tag 0] fun t => .tag 1 :: t.fingerprint := by
  cases t? <;> rfl

/-- The first token of a plan shows its constructor, and what parts follow. -/
theorem Coercion.delimits : Delimits Eq Coercion.fingerprint := by
  have hoption : Delimits Eq fun t? : Option ValueType =>
      t?.elim [.tag 0] fun t => .tag 1 :: t.fingerprint := by
    intro t? u? r r'
    cases t? <;> cases u? <;> simp [ValueType.delimits]
  intro p q r r'
  induction p generalizing q r r' with
  | wrap inner t? ih =>
    cases q <;> simp [fingerprint_wrap, fingerprint, ih, hoption, and_assoc]
  | unwrap inner t ih =>
    cases q <;> simp [fingerprint_wrap, fingerprint, ih, ValueType.delimits, and_assoc]
  | lift inner ih => cases q <;> simp [fingerprint_wrap, fingerprint, ih]
  | parseEnum e | integralToEnum e | enumToString e =>
    cases q <;> simp [fingerprint_wrap, fingerprint, EnumType.delimits]
  | identity | enumToIntegral t | convert t =>
    cases q <;> simp [fingerprint_wrap, fingerprint, ValueType.delimits]

/-! ## Values -/

theorem Decimal.Binary.isNaN_of_isZero {x : Binary} (h : x.isZero = true) : x.isNaN = false := by
  cases x with
  | finite => rfl
  | _ => cases h

namespace FloatKind

variable {k : FloatKind} {x y : k.Word}

/-- A floating point number equals itself unless it is no number. -/
theorem sameNumber_self : k.sameNumber x x = !(k.decode x).isNaN := by
  simp [sameNumber]

/-- Two words are of one number where they are its zeros. -/
theorem sameNumber_of_ne (h : x ≠ y) :
    k.sameNumber x y = ((k.decode x).isZero && (k.decode y).isZero) := by
  rw [sameNumber, beq_eq_false_iff_ne.mpr h, Bool.false_or]
  cases hx : (k.decode x).isZero with
  | false => simp
  | true =>
    cases hy : (k.decode y).isZero with
    | false => simp
    | true => simp [Decimal.Binary.isNaN_of_isZero hx, Decimal.Binary.isNaN_of_isZero hy]

end FloatKind

namespace Value

/-- The fingerprint of a value gives it away bit by bit. -/
theorem delimits : Delimits (fun v w => v.identical w = true) fingerprint := by
  intro v w r r'
  cases v with
  | int k n =>
    cases w with
    | int k' m =>
      by_cases hk : k = k'
      · subst hk
        simp [fingerprint, Subtype.ext_iff]
      · simp [fingerprint, IntKind.name_inj, hk]
    | _ => simp [fingerprint]
  | float k x =>
    cases w with
    | float k' y =>
      by_cases hk : k = k'
      · subst hk
        simp [fingerprint, BitVec.toNat_inj]
      · simp [fingerprint, FloatKind.name_inj, hk]
    | _ => simp [fingerprint]
  | _ => cases w <;> simp [fingerprint, Char.toNat_inj, Subtype.ext_iff]

theorem identical_eq (v w : Value) : v.identical w = decide (v = w) := by
  rw [Bool.eq_iff_iff, identical_iff, decide_eq_true_iff]

theorem sameNumber_float (k : FloatKind) (x y : k.Word) :
    (float k x).sameNumber (float k y) = k.sameNumber x y := by
  cases k <;> rfl

/-- Equality of values is identity, floating-point numbers of one kind apart. -/
theorem sameNumber_cases (v w : Value) :
    (∃ k x y, v = float k x ∧ w = float k y) ∨ v.sameNumber w = v.identical w := by
  unfold identical
  split
  · exact .inl ⟨_, _, _, rfl, rfl⟩
  · exact .inl ⟨_, _, _, rfl, rfl⟩
  · exact .inr rfl

/-- Equality of values says of the two what identity does not. -/
inductive Disputed : Value → Value → Prop
  /-- What is no number is not equal to itself. -/
  | nan {k : FloatKind} {x : k.Word} (h : (k.decode x).isNaN = true) :
      Disputed (float k x) (float k x)
  /-- The zeros of the two signs are equal. -/
  | zeros {k : FloatKind} {x y : k.Word} (hne : x ≠ y) (hx : (k.decode x).isZero = true)
      (hy : (k.decode y).isZero = true) : Disputed (float k x) (float k y)

/-- The two equalities differ on zeros of the two signs and on what is no number, and nowhere else.
-/
theorem sameNumber_ne_identical_iff {v w : Value} :
    v.sameNumber w ≠ v.identical w ↔ v.Disputed w := by
  constructor
  · intro h
    obtain ⟨k, x, y, rfl, rfl⟩ := (sameNumber_cases v w).resolve_right h
    rw [sameNumber_float, identical_eq] at h
    by_cases hxy : x = y
    · subst hxy
      rw [FloatKind.sameNumber_self] at h
      exact .nan (by simpa using h)
    · rw [FloatKind.sameNumber_of_ne hxy] at h
      have hzeros : (k.decode x).isZero = true ∧ (k.decode y).isZero = true := by
        simpa [hxy] using h
      exact .zeros hxy hzeros.1 hzeros.2
  · intro h
    cases h with
    | nan h => simp [sameNumber_float, identical_eq, FloatKind.sameNumber_self, h]
    | zeros hne hx hy =>
      simp [sameNumber_float, identical_eq, FloatKind.sameNumber_of_ne hne, hne, hx, hy]

end Value

/-! ## Members -/

theorem MemberKind.delimits : Delimits Eq MemberKind.fingerprint := by
  intro k k' r r'
  cases k <;> cases k' <;> simp [fingerprint]

theorem Slot.delimits : Delimits Eq Slot.fingerprint := by
  intro s s' r r'
  cases s <;> cases s' <;> simp [fingerprint, and_assoc]

/-- The getter and the setter show in their slot alone, as they do in `==`. -/
theorem Member.delimits : Delimits (fun a b : Member σ => (a == b) = true) fingerprint := by
  intro a b r r'
  simp only [fingerprint, List.append_assoc, List.cons_append, List.nil_append,
    MemberKind.delimits, List.cons.injEq, Token.text.injEq, ValueType.delimits,
    Slot.delimits, Token.flag.injEq, beq_iff, and_assoc]

/-! ## Expressions -/

mutual

/-- Expressions are delimited along their structure, with their arguments counted. -/
theorem SourceExpr.fingerprint_append_iff (x y : SourceExpr σ) (r r' : List Token) :
    x.fingerprint ++ r = y.fingerprint ++ r' ↔ x.same y = true ∧ r = r' := by
  cases x with
  | member a =>
    cases y with
    | member b =>
      simp only [SourceExpr.fingerprint, SourceExpr.same, List.cons_append, List.cons.injEq,
        true_and, Member.delimits]
    | _ => simp [SourceExpr.fingerprint, SourceExpr.same]
  | const v t =>
    cases y with
    | const w u =>
      simp only [SourceExpr.fingerprint, SourceExpr.same, List.append_assoc, List.cons_append,
        List.cons.injEq, true_and, Value.delimits, ValueType.delimits,
        Bool.and_eq_true, beq_iff_eq, and_left_comm, and_assoc]
    | _ => simp [SourceExpr.fingerprint, SourceExpr.same]
  | call f xs =>
    cases y with
    | call g ys =>
      simp only [SourceExpr.fingerprint, SourceExpr.same, List.cons_append, List.cons.injEq,
        true_and, Token.identity.injEq, Token.count.injEq, Bool.and_eq_true, beq_iff_eq,
        xs.fingerprint_append_iff ys, and_assoc]
    | _ => simp [SourceExpr.fingerprint, SourceExpr.same]

/-- Of as many arguments. -/
theorem SourceArgs.fingerprint_append_iff (xs ys : SourceArgs σ) (r r' : List Token) :
    xs.size = ys.size ∧ xs.fingerprint ++ r = ys.fingerprint ++ r' ↔
      xs.same ys = true ∧ r = r' := by
  cases xs with
  | nil => cases ys <;> simp [SourceArgs.size, SourceArgs.fingerprint, SourceArgs.same]
  | cons x p xs =>
    cases ys with
    | nil => simp [SourceArgs.size, SourceArgs.same]
    | cons y q ys =>
      simp only [SourceArgs.size, SourceArgs.fingerprint, SourceArgs.same, List.append_assoc,
        Nat.add_right_cancel_iff, x.fingerprint_append_iff y, Coercion.delimits]
      -- The sizes go with the rests, which show where they end only among as many arguments.
      rw [and_left_comm, and_left_comm (b := p = q), xs.fingerprint_append_iff ys]
      simp [and_assoc]

end

/-! ## Mappings -/

theorem Delegate.delimits : Delimits (fun d e : Delegate σ => (d == e) = true) fingerprint := by
  intro d e r r'
  simp [fingerprint, ValueType.delimits, beq_iff, and_assoc]

/-- A delegate and an expression start with tokens of their own. -/
theorem Computation.delimits :
    Delimits (fun a b : Computation σ => (a == b) = true) fingerprint := by
  intro a b r r'
  cases a <;> cases b
  case member.member m n =>
    show .tag 0 :: (m.fingerprint ++ r) = .tag 0 :: (n.fingerprint ++ r') ↔ (m == n) = true ∧ r = r'
    rw [List.cons.injEq, and_iff_right rfl, Member.delimits]
  case expression.expression x y =>
    show .tag 1 :: (x.fingerprint ++ r) = .tag 1 :: (y.fingerprint ++ r') ↔ x.same y = true ∧ r = r'
    rw [List.cons.injEq, and_iff_right rfl, x.fingerprint_append_iff]
  case delegate.delegate d e =>
    show .tag 2 :: (d.fingerprint ++ r) = .tag 2 :: (e.fingerprint ++ r') ↔ (d == e) = true ∧ r = r'
    rw [List.cons.injEq, and_iff_right rfl, Delegate.delimits]
  all_goals
    refine iff_of_false (fun htokens => ?_) fun hsame => ?_
    · simp [fingerprint] at htokens
    · cases hsame.1

/-- A mapping is delimited by its target, its source and its plan. -/
theorem Mapping.delimits : Delimits (fun m n : Mapping σ τ => (m == n) = true) fingerprint := by
  intro m n r r'
  simp only [fingerprint, List.append_assoc, Member.delimits, Computation.delimits,
    Coercion.delimits, beq_iff, and_assoc]

theorem beq_iff_forall₂ [BEq α] [EquivBEq α] {as bs : List α} :
    (as == bs) = true ↔ List.Forall₂ (fun a b => (a == b) = true) as bs :=
  ⟨forall₂_of_beq, fun h => (beq_congr_of_forall₂ h bs).trans BEq.rfl⟩

/-- Lists of mappings are delimited, as their length goes first. -/
theorem Mapping.delimits_lists :
    Delimits (fun ms ns : List (Mapping σ τ) => (ms == ns) = true) fingerprints := by
  intro ms ns r r'
  exact (delimits.counted ms ns r r').trans (and_congr_left' beq_iff_forall₂.symm)

/-! ## Sameness and fingerprints -/

/-- Sameness is an equivalence, and tables keyed by the fingerprints tell things apart by it. -/
structure Keyed (same : α → α → Bool) (fingerprint : α → List Token) : Prop where
  refl : ∀ a, same a a = true
  symm : ∀ a b, same a b = true → same b a = true
  trans : ∀ a b c, same a b = true → same b c = true → same a c = true
  /-- For things that are the same, a hash function is fed the same. -/
  agree : ∀ a b, same a b = true → fingerprint a = fingerprint b
  /-- For others it is fed something else. -/
  differ : ∀ a b, same a b = false → fingerprint a ≠ fingerprint b

/-- Where fingerprints delimit, sameness is an equivalence and agrees with equality of fingerprints.
-/
theorem Delimits.keyed {same : α → α → Bool} {fingerprint : α → List Token}
    (h : Delimits (fun a b => same a b = true) fingerprint) : Keyed same fingerprint := by
  have hiff : ∀ a b, fingerprint a = fingerprint b ↔ same a b = true :=
    fun _ _ => h.fingerprint_eq_iff
  refine ⟨?_, ?_, ?_, ?_, ?_⟩
  · exact fun a => (hiff a a).mp rfl
  · exact fun a b hab => (hiff b a).mp ((hiff a b).mpr hab).symm
  · exact fun a b c hab hbc => (hiff a c).mp (((hiff a b).mpr hab).trans ((hiff b c).mpr hbc))
  · exact fun a b => (hiff a b).mpr
  · exact fun a b hne heq => Bool.false_ne_true (hne.symm.trans ((hiff a b).mp heq))

/-- What sameness is for mappings and for what they are made of. -/
structure Mapping.EqualityLaws (σ τ : Type) : Prop where
  lists : Keyed (fun ms ns : List (Mapping σ τ) => ms == ns) fingerprints
  mappings : Keyed (fun m n : Mapping σ τ => m == n) fingerprint
  computations : Keyed (fun a b : Computation σ => a == b) Computation.fingerprint
  expressions : Keyed (SourceExpr.same (σ := σ)) SourceExpr.fingerprint
  delegates : Keyed (fun d e : Delegate σ => d == e) Delegate.fingerprint
  members : Keyed (fun a b : Member σ => a == b) Member.fingerprint
  plans : Keyed (fun p q : Coercion => p == q) Coercion.fingerprint
  values : Keyed Value.identical Value.fingerprint
  /-- Equality of values says otherwise for what is no number and for zeros of two signs alone. -/
  numbers : ∀ v w : Value, v.sameNumber w ≠ v.identical w ↔ v.Disputed w

theorem Mapping.equalityLaws (σ τ : Type) : EqualityLaws σ τ where
  lists := delimits_lists.keyed
  mappings := delimits.keyed
  computations := Computation.delimits.keyed
  expressions := Delimits.keyed SourceExpr.fingerprint_append_iff
  delegates := Delegate.delimits.keyed
  members := Member.delimits.keyed
  plans := Delimits.keyed fun p q r r' =>
    (Coercion.delimits p q r r').trans (and_congr_left' beq_iff_eq.symm)
  values := Value.delimits.keyed
  numbers _ _ := Value.sameNumber_ne_identical_iff

/-- The zeros of the two signs are equal, and told apart. -/
example : (Value.float .f64 0).sameNumber (.float .f64 0x8000000000000000) = true ∧
    (Value.float .f64 0).fingerprint ≠ (Value.float .f64 0x8000000000000000).fingerprint := by
  decide

end Crosswalk
