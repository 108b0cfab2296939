import Crosswalk.Proofs.Phases
import Crosswalk.Proofs.Providers
import Crosswalk.Proofs.RowIndependence
import Mathlib.Data.List.Nodup

/-!
# What members store

Schemas of records, schemas of rows and structures are the providers of members
(`Provider`). Their members retain what is written to them (`Provider.retains`) and accept
every value of their types (`Provider.accepting`). A write to one slot keeps what another slot
holds (`Provider.keeps_of_slot_ne`), and where the owner has room for all members it leaves
everything outside its own slot as it was (`Provider.agreeOutside_of_write`).
-/

namespace Crosswalk

/-! ## Columns -/

theorem checkedWrite_eq_ok_iff {σ : Type} {t : ValueType} {store : Value → σ → σ} {v : Value}
    {s s' : σ} : checkedWrite t store v s = (.ok (), s') ↔
      v.conforms t = true ∧ s' = store v s := by
  constructor
  · exact checkedWrite_eq_ok
  · rintro ⟨hv, rfl⟩
    exact checkedWrite_of_conforms hv store s

/-- What is stored and conforms is read. -/
theorem checkedRead_of_conforms {t : ValueType} {v : Value} (hv : v.conforms t = true) :
    checkedRead t (some v) = .ok v := by
  rw [checkedRead, checkConforms, if_pos hv]

/-! ## Records -/

namespace RecordSchema

variable {owner : String} {col : Column} {v : Value} {r r' : Record}

theorem write_eq_ok_iff : (memberOf owner col).write v r = (.ok (), r') ↔
    v.conforms col.type = true ∧ r' = r.set col.name v := by
  show checkedWrite col.type (fun v (r : Record) => r.set col.name v) v r = _ ↔ _
  exact checkedWrite_eq_ok_iff

/-- A column holds a value of its type that is stored under its name. -/
theorem holds_iff : (memberOf owner col).Holds v r ↔
    v.conforms col.type = true ∧ r.get? col.name = some v := by
  rw [Member.Holds, write_eq_ok_iff]
  refine and_congr_right fun _ => ⟨fun h => ?_, fun h => (Record.set_of_get? h).symm⟩
  rw [h, Record.get?_set, if_pos rfl]

theorem retains (owner : String) (col : Column) : (memberOf owner col).Retains where
  holds h := by
    obtain ⟨hv, rfl⟩ := write_eq_ok_iff.mp h
    rw [holds_iff, Record.get?_set, if_pos rfl]
    exact ⟨hv, rfl⟩
  read {v s} h := by
    obtain ⟨hv, hstored⟩ := holds_iff.mp h
    show checkedRead col.type (s.get? col.name) = .ok v
    rw [hstored, checkedRead_of_conforms hv]

theorem keeps {owner' : String} {col' : Column} (h : col.name ≠ col'.name) (v w : Value) :
    (memberOf owner col).Keeps v (memberOf owner' col') w := by
  intro r r' hwrite hheld
  obtain ⟨-, rfl⟩ := write_eq_ok_iff.mp hwrite
  rwa [holds_iff, Record.get?_set, if_neg h.symm, ← holds_iff]

end RecordSchema

/-! ## Rows -/

namespace Row

variable {r : Row} {i : Nat} {v : Value}

/-- A cell that is written is there, after padding where it was missing. -/
theorem get?_set_self (r : Row) (i : Nat) (v : Value) : (r.set i v).get? i = some v := by
  unfold set get?
  split
  · next hi => exact List.getElem?_set_self hi
  · next hi =>
    have hlength : (r.cells ++ List.replicate (i - r.cells.length) Value.null).length = i := by
      rw [List.length_append, List.length_replicate]
      omega
    simp only [List.getElem?_append_right (Nat.le_of_eq hlength), hlength, Nat.sub_self]
    rfl

/-- To store what is there changes nothing. -/
theorem set_of_get? (h : r.get? i = some v) : r.set i v = r := by
  obtain ⟨hi, hv⟩ := List.getElem?_eq_some_iff.mp h
  rw [set, if_pos hi, ← hv, List.set_getElem_self]

theorem length_set_of_lt (h : i < r.cells.length) : (r.set i v).cells.length = r.cells.length := by
  rw [set, if_pos h, List.length_set]

end Row

namespace RowSchema

variable {owner : String} {col : Column} {i : Nat} {v : Value} {r r' : Row}

theorem write_eq_ok_iff : (memberOf owner col i).write v r = (.ok (), r') ↔
    v.conforms col.type = true ∧ r' = r.set i v := by
  show checkedWrite col.type (fun v (r : Row) => r.set i v) v r = _ ↔ _
  exact checkedWrite_eq_ok_iff

/-- A column holds a value of its type that is stored at its place. -/
theorem holds_iff : (memberOf owner col i).Holds v r ↔
    v.conforms col.type = true ∧ r.get? i = some v := by
  rw [Member.Holds, write_eq_ok_iff]
  refine and_congr_right fun _ => ⟨fun h => ?_, fun h => (Row.set_of_get? h).symm⟩
  rw [h, Row.get?_set_self]

theorem retains (owner : String) (col : Column) (i : Nat) : (memberOf owner col i).Retains where
  holds h := by
    obtain ⟨hv, rfl⟩ := write_eq_ok_iff.mp h
    rw [holds_iff, Row.get?_set_self]
    exact ⟨hv, rfl⟩
  read h := by
    obtain ⟨hv, hstored⟩ := holds_iff.mp h
    rw [read_memberOf, hstored, checkedRead_of_conforms hv]

/-- A write pads missing cells only, so a cell that is there stays. -/
theorem keeps {owner' : String} {col' : Column} {j : Nat} (h : i ≠ j) (v w : Value) :
    (memberOf owner col i).Keeps v (memberOf owner' col' j) w := by
  intro r r' hwrite hheld
  obtain ⟨-, rfl⟩ := write_eq_ok_iff.mp hwrite
  obtain ⟨hw, hstored⟩ := holds_iff.mp hheld
  have hthere : j < r.cells.length := (List.getElem?_eq_some_iff.mp hstored).1
  rw [holds_iff, Row.get?_set_of_ne h.symm, if_neg (by omega)]
  exact ⟨hw, hstored⟩

end RowSchema

/-! ## Structures -/

/-- The element of a value goes back to the value. -/
theorem Carrier.toValue_of_ofValue {v : Value} :
    ∀ {c : Carrier} {x : c.Elem}, c.ofValue v = .ok x → c.toValue x = v
  | .bool, x, h | .char, x, h | .string, x, h => by
    cases v <;> cases h
    rfl
  | .int k, x, h => by
    cases v with
    | int k' n =>
      unfold ofValue at h
      split at h
      · next heq =>
        subst heq
        cases h
        rfl
      · cases h
    | _ => cases h
  | .float k, x, h => by
    cases v with
    | float k' w =>
      unfold ofValue at h
      split at h
      · next heq =>
        subst heq
        cases h
        rfl
      · cases h
    | _ => cases h
  | .enum e, x, h => by
    cases v with
    | enum d =>
      unfold ofValue at h
      split at h
      · cases h
        rfl
      · cases h
    | _ => cases h
  | .option c, x, h => by
    cases v with
    | null =>
      cases h
      rfl
    | _ =>
      obtain ⟨y, hy, rfl⟩ := Except.map_eq_ok_iff.mp h
      exact toValue_of_ofValue (c := c) hy

namespace StructType

variable {S : StructType} {name name' : String} {i j : Fin S.fields.length} {v w : Value}
  {s s' : S.Instance}

theorem setField_self (x : (S.fields.get i).carrier.Elem) (s : S.Instance) :
    setField i x s i = x := by
  simp [setField]

theorem setField_of_ne (h : j ≠ i) (x : (S.fields.get i).carrier.Elem) (s : S.Instance) :
    setField i x s j = s j := by
  simp [setField, h]

theorem setField_eq_self (s : S.Instance) (i : Fin S.fields.length) : setField i (s i) s = s := by
  funext j
  by_cases h : j = i
  · subst h
    exact setField_self _ _
  · exact setField_of_ne h _ _

theorem write_eq_ok_iff : (S.memberOf name i).write v s = (.ok (), s') ↔
    ∃ x, (S.fields.get i).carrier.ofValue v = .ok x ∧ s' = setField i x s := by
  show Member.typedSetter _ (setField i) v s = (.ok (), s') ↔ _
  unfold Member.typedSetter
  cases (S.fields.get i).carrier.ofValue v with
  | error e => simp [Update.fail]
  | ok x => simp [Update.modify, eq_comm]

/-- A field holds the value that stands for its element. -/
theorem holds_iff : (S.memberOf name i).Holds v s ↔
    (S.fields.get i).carrier.ofValue v = .ok (s i) := by
  rw [Member.Holds, write_eq_ok_iff]
  constructor
  · rintro ⟨x, hx, hs⟩
    rw [hx, hs, setField_self]
  · intro h
    exact ⟨s i, h, (setField_eq_self s i).symm⟩

theorem retains (S : StructType) (name : String) (i : Fin S.fields.length) :
    (S.memberOf name i).Retains where
  holds h := by
    obtain ⟨x, hx, rfl⟩ := write_eq_ok_iff.mp h
    rw [holds_iff, setField_self]
    exact hx
  read h := congrArg Except.ok (Carrier.toValue_of_ofValue (holds_iff.mp h))

theorem keeps (h : i ≠ j) (v w : Value) : (S.memberOf name i).Keeps v (S.memberOf name' j) w := by
  intro s s' hwrite hheld
  obtain ⟨x, -, rfl⟩ := write_eq_ok_iff.mp hwrite
  rwa [holds_iff, setField_of_ne h.symm, ← holds_iff]

theorem accepting (S : StructType) (name : String) (i : Fin S.fields.length) :
    (S.memberOf name i).Accepting := by
  intro v hv s
  obtain ⟨x, hx⟩ := Carrier.exists_ofValue hv
  exact ⟨_, write_eq_ok_iff.mpr ⟨x, hx, rfl⟩⟩

end StructType

/-! ## Providers -/

/-- What provides the members of an owner. -/
inductive Provider where
  | record (schema : RecordSchema)
  | row (schema : RowSchema)
  | struct (S : StructType)

namespace Provider

/-- The owners whose members are provided. -/
def Owner : Provider → Type
  | record _ => Record
  | row _ => Row
  | struct S => S.Instance

/-- The members, in order. -/
def members : (p : Provider) → List (Member p.Owner)
  | record schema => schema.members
  | row schema => schema.members
  | struct S => S.members

/-- No two columns of a record have one name, and no field of a structure is registered twice.
The columns of a row have cells of their own. -/
def Distinct : Provider → Prop
  | record schema => (schema.columns.map Column.name).Nodup
  | row _ => True
  | struct S => (S.registered.map fun r => (S.fields.get r.2).name).Nodup

/-- The owner has room for all members: a row has a cell for each column. -/
def Spans : (p : Provider) → p.Owner → Prop
  | record _, _ => True
  | row schema, r => schema.columns.length ≤ r.cells.length
  | struct _, _ => True

/-- The owners store the same outside the slots: under the other keys of a record, in the other
cells of a row, in the other fields of a structure. -/
def AgreeOutside : (p : Provider) → List Slot → p.Owner → p.Owner → Prop
  | record _, slots, r, r' => ∀ key, .key key ∉ slots → r'.get? key = r.get? key
  | row _, slots, r, r' => ∀ i, .index i ∉ slots → r'.get? i = r.get? i
  | struct S, slots, s, s' => ∀ i, .field (S.fields.get i).name ∉ slots → s' i = s i

variable {p : Provider} {a b m : Member p.Owner} {slots : List Slot} {s s' s₁ : p.Owner}

/-- What holds of the members of all columns and registered fields holds of all members. -/
theorem forall_mem_members {P : {σ : Type} → Member σ → Prop}
    (hrecord : ∀ owner col, P (RecordSchema.memberOf owner col))
    (hrow : ∀ owner col i, P (RowSchema.memberOf owner col i))
    (hstruct : ∀ (S : StructType) name i, P (S.memberOf name i)) : ∀ m ∈ p.members, P m := by
  intro m hm
  cases p with
  | record schema =>
    obtain ⟨col, -, rfl⟩ := List.mem_map.mp hm
    exact hrecord _ _
  | row schema =>
    obtain ⟨i, hi, rfl⟩ := List.mem_mapIdx.mp hm
    exact hrow _ _ _
  | struct S =>
    obtain ⟨r, -, rfl⟩ := List.mem_map.mp hm
    exact hstruct _ _ _

/-- What is written is held, and what is held is read. -/
theorem retains : ∀ m ∈ p.members, m.Retains :=
  forall_mem_members RecordSchema.retains RowSchema.retains StructType.retains

/-- A member accepts every value of its type. -/
theorem accepting : ∀ m ∈ p.members, m.Accepting :=
  forall_mem_members
    (fun owner _ _ hv s => ⟨_, RecordSchema.write_memberOf owner hv s⟩)
    (fun owner _ i _ hv s => ⟨_, RowSchema.write_memberOf owner i hv s⟩)
    StructType.accepting

theorem able : ∀ m ∈ p.members, m.canRead = true ∧ m.canWrite = true :=
  forall_mem_members (P := fun m => m.canRead = true ∧ m.canWrite = true)
    (fun _ _ => ⟨rfl, rfl⟩) (fun _ _ _ => ⟨rfl, rfl⟩) fun _ _ _ => ⟨rfl, rfl⟩

/-- A write to one slot leaves what another one holds. -/
theorem keeps_of_slot_ne (ha : a ∈ p.members) (hb : b ∈ p.members) (h : a.slot ≠ b.slot)
    (v w : Value) : a.Keeps v b w := by
  cases p with
  | record schema =>
    obtain ⟨col, -, rfl⟩ := List.mem_map.mp ha
    obtain ⟨col', -, rfl⟩ := List.mem_map.mp hb
    exact RecordSchema.keeps (fun hname => h (congrArg Slot.key hname)) v w
  | row schema =>
    obtain ⟨i, hi, rfl⟩ := List.mem_mapIdx.mp ha
    obtain ⟨j, hj, rfl⟩ := List.mem_mapIdx.mp hb
    exact RowSchema.keeps (fun hij => h (congrArg Slot.index hij)) v w
  | struct S =>
    obtain ⟨r, -, rfl⟩ := List.mem_map.mp ha
    obtain ⟨r', -, rfl⟩ := List.mem_map.mp hb
    refine StructType.keeps (fun hr => h ?_) v w
    exact congrArg (fun i => Slot.field (S.fields.get i).name) hr

/-! ## Outside the slots -/

namespace AgreeOutside

theorem refl (slots : List Slot) (s : p.Owner) : p.AgreeOutside slots s s := by
  cases p <;> exact fun _ _ => rfl

theorem trans (h : p.AgreeOutside slots s s₁) (h' : p.AgreeOutside slots s₁ s') :
    p.AgreeOutside slots s s' := by
  cases p <;> exact fun i hi => (h' i hi).trans (h i hi)

/-- Members of other slots read the same. -/
theorem read_eq (h : p.AgreeOutside slots s s') (hm : m ∈ p.members) (hslot : m.slot ∉ slots) :
    m.read s' = m.read s := by
  cases p with
  | record schema =>
    obtain ⟨col, -, rfl⟩ := List.mem_map.mp hm
    exact congrArg (checkedRead col.type) (h col.name hslot)
  | row schema =>
    obtain ⟨i, hi, rfl⟩ := List.mem_mapIdx.mp hm
    exact congrArg (checkedRead _) (h i hslot)
  | struct S =>
    obtain ⟨r, -, rfl⟩ := List.mem_map.mp hm
    exact congrArg (fun x => Except.ok (Carrier.toValue _ x)) (h r.2 hslot)

end AgreeOutside

/-- A write changes nothing outside its slot, and leaves the room for all members. -/
theorem agreeOutside_of_write (hm : m ∈ p.members) (hslot : m.slot ∈ slots) (hspans : p.Spans s)
    {v : Value} (h : m.write v s = (.ok (), s')) : p.AgreeOutside slots s s' ∧ p.Spans s' := by
  cases p with
  | record schema =>
    obtain ⟨col, -, rfl⟩ := List.mem_map.mp hm
    obtain ⟨-, rfl⟩ := RecordSchema.write_eq_ok_iff.mp h
    refine ⟨fun key hkey => ?_, trivial⟩
    have hne : key ≠ col.name := fun heq => hkey (heq ▸ hslot)
    exact (Record.get?_set s col.name key v).trans (if_neg hne)
  | row schema =>
    obtain ⟨i, hi, rfl⟩ := List.mem_mapIdx.mp hm
    obtain ⟨-, rfl⟩ := RowSchema.write_eq_ok_iff.mp h
    have hroom : i < s.cells.length := Nat.lt_of_lt_of_le hi hspans
    constructor
    · intro j hj
      have hne : j ≠ i := fun heq => hj (heq ▸ hslot)
      exact (Row.get?_set_of_ne hne).trans (if_neg (by omega))
    · exact Nat.le_trans hspans (Nat.le_of_eq (Row.length_set_of_lt hroom).symm)
  | struct S =>
    obtain ⟨r, -, rfl⟩ := List.mem_map.mp hm
    obtain ⟨x, -, rfl⟩ := StructType.write_eq_ok_iff.mp h
    refine ⟨fun j hj => ?_, trivial⟩
    have hne : j ≠ r.2 := fun heq => hj (heq ▸ hslot)
    exact StructType.setField_of_ne hne x s

/-- Members of a distinct provider have slots of their own. -/
theorem nodup_slots (h : p.Distinct) : (p.members.map Member.slot).Nodup := by
  cases p with
  | record schema =>
    have hslots : (schema.columns.map fun col => Slot.key col.name).Nodup := by
      have hkeys := List.Nodup.map (f := Slot.key) (fun _ _ => Slot.key.inj) h
      rwa [List.map_map] at hkeys
    show (schema.members.map Member.slot).Nodup
    rw [RecordSchema.members, List.map_map]
    exact hslots
  | row schema =>
    show (schema.members.map Member.slot).Nodup
    rw [List.Nodup, List.pairwise_iff_getElem]
    intro i j hi hj hij
    simp only [RowSchema.members, List.getElem_map, List.getElem_mapIdx]
    exact fun heq => Nat.ne_of_lt hij (Slot.index.inj heq)
  | struct S =>
    have hslots := List.Nodup.map (f := Slot.field) (fun _ _ => Slot.field.inj) h
    show (S.members.map Member.slot).Nodup
    rw [StructType.members, List.map_map]
    rwa [List.map_map] at hslots

end Provider

end Crosswalk
