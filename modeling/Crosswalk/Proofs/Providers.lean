import Crosswalk.Proofs.Conformance
import Crosswalk.Proofs.Results
import Crosswalk.Record
import Crosswalk.Row
import Crosswalk.StructType

/-!
# Members of schemas and structures

The members that records, rows and structures provide (`Member.Provided`) keep to their
types: reading one gives a value of its type, or finds a stored value that is not of its
column (`Member.Provided.read`), and writing a value of its type always succeeds
(`Member.Provided.write`).
-/

namespace Crosswalk

/-- The member belongs to a column or a registered field, of a type whose enumerations have
variants. -/
inductive Member.Provided : {σ : Type} → Member σ → Prop
  | record (owner : String) (col : Column) (h : col.type.HasVariants) :
      Provided (RecordSchema.memberOf owner col)
  | row (owner : String) (col : Column) (i : Nat) (h : col.type.HasVariants) :
      Provided (RowSchema.memberOf owner col i)
  | field {S : StructType} (name : String) (i : Fin S.fields.length)
      (h : (S.fields.get i).carrier.valueType.HasVariants) : Provided (S.memberOf name i)

/-- The owner holds a value that is not of the column of the member, which reading reports. -/
inductive Member.Misstored : {σ : Type} → Member σ → σ → AccessError → Prop
  | record (owner : String) (col : Column) {s : Record} {v : Value} (h : s.get? col.name = some v)
      (hv : v.conforms col.type = false) :
      Misstored (RecordSchema.memberOf owner col) s (.mismatch col.type v)
  | row (owner : String) (col : Column) (i : Nat) {s : Row} {v : Value} (h : s.get? i = some v)
      (hv : v.conforms col.type = false) :
      Misstored (RowSchema.memberOf owner col i) s (.mismatch col.type v)

/-- The members of a record schema are provided. -/
theorem RecordSchema.provided {s : RecordSchema} (h : ∀ col ∈ s.columns, col.type.HasVariants) :
    ∀ m ∈ s.members, m.Provided := by
  intro m hm
  obtain ⟨col, hcol, rfl⟩ := List.mem_map.mp hm
  exact .record s.name col (h col hcol)

/-- The members of a row schema are provided. -/
theorem RowSchema.provided {s : RowSchema} (h : ∀ col ∈ s.columns, col.type.HasVariants) :
    ∀ m ∈ s.members, m.Provided := by
  intro m hm
  obtain ⟨i, hi, rfl⟩ := List.mem_mapIdx.mp hm
  exact .row s.name _ i (h _ (List.getElem_mem hi))

/-- The registered fields of a structure are provided. -/
theorem StructType.provided {S : StructType}
    (h : ∀ f ∈ S.fields, f.carrier.valueType.HasVariants) : ∀ m ∈ S.members, m.Provided := by
  intro m hm
  obtain ⟨r, -, rfl⟩ := List.mem_map.mp hm
  exact .field r.1 r.2 (h _ (List.get_mem _ _))

/-! ## Columns -/

/-- A column reads as a value of its type, unless what is stored is none. -/
theorem gives_checkedRead {t : ValueType} (ht : t.HasVariants) (stored : Option Value) :
    Except.Gives (fun v => v.conforms t = true)
      (fun e => ∃ v, stored = some v ∧ v.conforms t = false ∧ e = .mismatch t v)
      (checkedRead t stored) := by
  cases stored with
  | none => exact ValueType.conforms_default ht
  | some v =>
    by_cases hv : v.conforms t = true
    · have hread : checkedRead t (some v) = .ok v := if_pos hv
      rw [hread]
      exact hv
    · have hread : checkedRead t (some v) = .error (.mismatch t v) := if_neg hv
      rw [hread]
      exact ⟨v, rfl, Bool.not_eq_true _ ▸ hv, rfl⟩

/-- A value of the type passes the check, and is stored. -/
theorem checkedWrite_of_conforms {σ : Type} {t : ValueType} {v : Value}
    (hv : v.conforms t = true) (store : Value → σ → σ) (s : σ) :
    checkedWrite t store v s = (.ok (), store v s) := by
  rw [checkedWrite, if_pos hv, Update.modify]

theorem RecordSchema.write_memberOf (owner : String) {col : Column} {v : Value}
    (hv : v.conforms col.type = true) (s : Record) :
    (memberOf owner col).write v s = (.ok (), s.set col.name v) :=
  checkedWrite_of_conforms hv (fun v (r : Record) => r.set col.name v) s

theorem RowSchema.write_memberOf (owner : String) {col : Column} (i : Nat) {v : Value}
    (hv : v.conforms col.type = true) (s : Row) :
    (memberOf owner col i).write v s = (.ok (), s.set i v) :=
  checkedWrite_of_conforms hv (fun v (r : Row) => r.set i v) s

/-! ## Reading and writing -/

namespace Member.Provided

variable {σ : Type} {m : Member σ}

theorem hasVariants (h : m.Provided) : m.type.HasVariants := by
  cases h <;> assumption

/-- A provided member reads a value of its type, or finds something else stored. -/
theorem read (h : m.Provided) (s : σ) :
    Except.Gives (fun v => v.conforms m.type = true) (m.Misstored s) (m.read s) := by
  cases h with
  | record owner col h =>
    refine (gives_checkedRead h (s.get? col.name)).mono (fun _ hv => hv) ?_
    rintro _ ⟨v, hstored, hv, rfl⟩
    exact .record owner col hstored hv
  | row owner col i h =>
    refine (gives_checkedRead h (s.get? i)).mono (fun _ hv => hv) ?_
    rintro _ ⟨v, hstored, hv, rfl⟩
    exact .row owner col i hstored hv
  | field name i _ => exact Carrier.conforms_toValue _ (s i)

/-- A provided member takes every value of its type. -/
theorem write (h : m.Provided) {v : Value} (hv : v.conforms m.type = true) (t : σ) :
    ∃ t', m.write v t = (.ok (), t') := by
  cases h with
  | record owner col _ => exact ⟨_, RecordSchema.write_memberOf owner hv t⟩
  | row owner col i _ => exact ⟨_, RowSchema.write_memberOf owner i hv t⟩
  | @field S name i _ =>
    obtain ⟨x, hx⟩ := Carrier.exists_ofValue (c := (S.fields.get i).carrier) hv
    refine ⟨StructType.setField i x t, ?_⟩
    show typedSetter _ (StructType.setField i) v t = _
    rw [typedSetter, hx]
    rfl

end Member.Provided

end Crosswalk
