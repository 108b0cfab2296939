import Crosswalk.Proofs.IntegerPaths

/-!
# Variants there and back

A variant is found by its name and by its discriminant, each time as the first that has it. Where no
two variants share a name, the search by name finds every variant (`EnumType.parse?_of_mem`), and
where no two share a discriminant, so does the search by discriminant (`EnumType.nameOf?_of_mem`).
Numbers take no search: a discriminant is coerced to the integer that is equal to it, and an integer
to the discriminant that is. So the plans between an enumeration and texts undo each other as far as
names or discriminants are distinct, and those between it and integers always
(`Coercion.exists_inverse_plans`).
-/

namespace Crosswalk

namespace EnumType

variable {e : EnumType} {name : String} {d : Discriminant}

theorem mem_of_parse? (h : e.parse? name = some d) : (name, d) ∈ e.variants := by
  obtain ⟨v, hv, rfl, rfl⟩ := exists_of_find?_map h
  exact hv

theorem mem_of_nameOf? (h : e.nameOf? d = some name) : (name, d) ∈ e.variants := by
  obtain ⟨v, hv, rfl, rfl⟩ := exists_of_find?_map h
  exact hv

/-- Under distinct names, a name is read as the variant that has it. -/
theorem parse?_of_mem (hnames : (e.variants.map Prod.fst).Nodup) (h : (name, d) ∈ e.variants) :
    e.parse? name = some d := by
  rw [parse?, find?_of_nodup_map hnames h, Option.map_some]

/-- Under distinct discriminants, a discriminant is shown as the variant that has it. -/
theorem nameOf?_of_mem (hnumbers : (e.variants.map Prod.snd).Nodup) (h : (name, d) ∈ e.variants) :
    e.nameOf? d = some name := by
  rw [nameOf?, find?_of_nodup_map hnumbers h, Option.map_some]

end EnumType

namespace Coercion

variable {e : EnumType} {d : Discriminant} {k : IntKind} {n : k.Elem} {w : Value}

/-! ## Steps from and to enumerations -/

/-- A discriminant is given as the integer it is, where the kind has that integer. -/
theorem enumToIntegral_eq_ok_iff : (enumToIntegral (.int k)).apply (.enum d) = .ok w ↔
    ∃ h : k.InRange d.1, w = .int k ⟨d.1, h⟩ := by
  have hwide : (Value.int .i64 d).wide? = some d.1 := rfl
  rw [apply, applyDiscriminant, applyConvert, orElse_eq_ok_iff, Value.convert?_int hwide,
    IntKind.ofInt?_map_eq_some_iff]

/-- An integer is read as the discriminant it is, where some variant has that discriminant. -/
theorem integralToEnum_eq_ok_iff : (integralToEnum e).apply (.int k n) = .ok w ↔
    ∃ d : Discriminant, (d.1 = n.1 ∧ e.contains d = true) ∧ .enum d = w := by
  simp only [apply, applyVariant, Value.integral?, Option.bind_some, orElse_map_eq_ok_iff,
    Option.filter_eq_some_iff, IntKind.ofInt?_eq_some_iff]

/-- Where no two variants share a name, each has its own back. -/
theorem exists_name_of_conforms (hnames : (e.variants.map Prod.fst).Nodup) {v : Value}
    (hv : v.conforms (.enum e) = true) :
    ∃ w, (enumToString e).apply v = .ok w ∧ (parseEnum e).apply w = .ok v := by
  obtain ⟨d, rfl, hd⟩ := Value.exists_enum_of_conforms hv
  obtain ⟨name, hname⟩ := EnumType.exists_nameOf? hd
  refine ⟨.str name, ?_, ?_⟩
  · exact orElse_map_eq_ok_iff.mpr ⟨name, hname, rfl⟩
  · have hparse := EnumType.parse?_of_mem hnames (EnumType.mem_of_nameOf? hname)
    exact orElse_map_eq_ok_iff.mpr ⟨d, hparse, rfl⟩

/-- Where no two variants share a discriminant, each name is had back from its variant. -/
theorem enumToString_undoes (hnumbers : (e.variants.map Prod.snd).Nodup) :
    (enumToString e).Undoes (parseEnum e) .string := by
  intro v w hv h
  obtain ⟨name, rfl⟩ := Value.exists_str_of_conforms hv
  obtain ⟨d, hd, rfl⟩ := orElse_map_eq_ok_iff.mp h
  have hname := EnumType.nameOf?_of_mem hnumbers (EnumType.mem_of_parse? hd)
  exact orElse_map_eq_ok_iff.mpr ⟨name, hname, rfl⟩

/-- The number of a discriminant leads back to it. -/
theorem integralToEnum_undoes (e : EnumType) (k : IntKind) :
    (integralToEnum e).Undoes (enumToIntegral (.int k)) (.enum e) := by
  intro v w hv h
  obtain ⟨d, rfl, hd⟩ := Value.exists_enum_of_conforms hv
  obtain ⟨hrange, rfl⟩ := enumToIntegral_eq_ok_iff.mp h
  exact integralToEnum_eq_ok_iff.mpr ⟨d, ⟨rfl, hd⟩, rfl⟩

/-- An integer that is read as a discriminant comes back from it. -/
theorem enumToIntegral_undoes (e : EnumType) (k : IntKind) :
    (enumToIntegral (.int k)).Undoes (integralToEnum e) (.int k) := by
  intro v w hv h
  cases v with
  | int k' n =>
    obtain rfl : k' = k := eq_of_beq hv
    obtain ⟨d, ⟨hnumber, -⟩, rfl⟩ := integralToEnum_eq_ok_iff.mp h
    obtain ⟨n, hn⟩ := n
    obtain rfl : d.1 = n := hnumber
    exact enumToIntegral_eq_ok_iff.mpr ⟨hn, rfl⟩
  | _ => cases hv

/-! ## Plans from and to enumerations -/

/-- The plans from the enumeration to texts and back undo each other where its table tells names, or
discriminants, apart. -/
structure NamesBack (toName ofName : Coercion) (e : EnumType) : Prop where
  variant (hnames : (e.variants.map Prod.fst).Nodup) (v : Value)
    (hv : v.conforms (.enum e) = true) : ∃ w, toName.apply v = .ok w ∧ ofName.apply w = .ok v
  name (hnumbers : (e.variants.map Prod.snd).Nodup) : toName.Undoes ofName .string

/-- The plans from the enumeration to integers and back undo each other. -/
structure NumbersBack (toNumber ofNumber : Coercion) (e : EnumType) (k : IntKind) : Prop where
  variant : ofNumber.Undoes toNumber (.enum e)
  number : toNumber.Undoes ofNumber (.int k)

/-- An enumeration has plans to texts and to integers, and each is undone by the plan back. -/
theorem exists_inverse_plans (e : EnumType) :
    (∃ p q, Chosen (.enum e) .string p ∧ Chosen .string (.enum e) q ∧ NamesBack p q e) ∧
      ∀ k, ∃ p q, Chosen (.enum e) (.int k) p ∧ Chosen (.int k) (.enum e) q ∧
        NumbersBack p q e k := by
  refine ⟨⟨enumToString e, parseEnum e, ?_, ?_, fun h v hv => ?_, enumToString_undoes⟩,
    fun k => ⟨enumToIntegral (.int k), integralToEnum e, ?_, ?_, ?_, ?_⟩⟩
  · exact (Step.enumToString e).chosen rfl rfl
  · exact (Step.parseEnum e).chosen rfl rfl
  · exact exists_name_of_conforms h hv
  · exact (Step.enumToIntegral e k).chosen rfl rfl
  · exact (Step.integralToEnum k e).chosen rfl rfl
  · exact integralToEnum_undoes e k
  · exact enumToIntegral_undoes e k

/-- Two shades of two names and two numbers. -/
theorem exists_inverse_plans_shades :
    (shades.variants.map Prod.fst).Nodup ∧ (shades.variants.map Prod.snd).Nodup ∧
      ∃ p q, Chosen (.enum shades) .string p ∧ Chosen .string (.enum shades) q ∧
        (∃ w, p.apply (.enum ⟨5, by decide⟩) = .ok w ∧ q.apply w = .ok (.enum ⟨5, by decide⟩)) ∧
        p.apply (.enum ⟨1, by decide⟩) = .ok (.str "Light") := by
  have hnames : (shades.variants.map Prod.fst).Nodup := by decide
  have hnumbers : (shades.variants.map Prod.snd).Nodup := by decide
  obtain ⟨⟨p, q, hp, hq, hback⟩, -⟩ := exists_inverse_plans shades
  obtain rfl : parseEnum shades = q := Except.ok.inj (hq .error)
  refine ⟨hnames, hnumbers, p, _, hp, hq, hback.variant hnames _ (by decide), ?_⟩
  exact hback.name hnumbers (.str "Light") _ rfl rfl

end Coercion

end Crosswalk
