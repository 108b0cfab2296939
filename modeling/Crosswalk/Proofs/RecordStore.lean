import Crosswalk.Proofs.Writes

/-!
# Records as stores

A record is written and read through the members of a schema, one for each column. Where no two
columns share a name, no two members share a key, so that the laws of writes in turn
(`Provider.read_after`) make each column a variable of its own, whatever the record holds at the
start: absent keys, values of other types, keys of no column (`RecordSchema.stores`).
-/

namespace Crosswalk.RecordSchema

open Write

/-- What writes in turn through members of the schema make of a record. -/
structure StoreLaws (schema : RecordSchema) (ws : List (Write Record)) (r : Record) : Prop where
  /-- Of any record, a column takes the values of its type and no others. -/
  succeeds : ∀ m ∈ schema.members, ∀ v (s : Record),
    (∃ s', m.write v s = (.ok (), s')) ↔ v.conforms m.type = true
  unchanged : ∀ m ∈ schema.members, ∀ v (s s' : Record) e,
    m.write v s = (.error e, s') → s' = s
  /-- So the successful writes among these are known before any is carried out. -/
  accepts : accepted ws r = ws.filter fun w => w.value.conforms w.member.type
  /-- A column reads as the last value that was written to it with success. -/
  last : ∀ m ∈ schema.members, ∀ v,
    lastTo? m (accepted ws r) = some v → m.read (after ws r) = .ok v
  /-- Where there is none, it reads as it did at first. -/
  first : ∀ m ∈ schema.members,
    lastTo? m (accepted ws r) = none → m.read (after ws r) = m.read r
  /-- At first the default stands for an absent key, and a stored value of another type is
  reported. -/
  initial : ∀ col ∈ schema.columns, (memberOf schema.name col).read r =
    match r.get? col.name with
    | none => .ok col.type.default
    | some v => if v.conforms col.type then .ok v else .error (.mismatch col.type v)
  /-- The keys of no column stay as they are. -/
  foreign : ∀ key, (∀ col ∈ schema.columns, col.name ≠ key) →
    (after ws r).get? key = r.get? key

/-- A column reads what is stored under its name, if that is of its type. -/
theorem read_memberOf (owner : String) (col : Column) (r : Record) :
    (memberOf owner col).read r = checkedRead col.type (r.get? col.name) :=
  rfl

variable {schema : RecordSchema} {ws : List (Write Record)}

theorem not_mem_slots {key : String} (h : ∀ col ∈ schema.columns, col.name ≠ key) :
    .key key ∉ schema.members.map Member.slot := by
  intro hmem
  obtain ⟨m, hm, hslot⟩ := List.mem_map.mp hmem
  obtain ⟨col, hcol, rfl⟩ := List.mem_map.mp hm
  exact h col hcol (Slot.key.inj hslot)

/-- A column reads the last value that it accepted, and before the first what the record held. -/
theorem read_after (hnames : (schema.columns.map Column.name).Nodup)
    (hws : ∀ w ∈ ws, w.member ∈ schema.members) (r : Record) {m : Member Record}
    (hm : m ∈ schema.members) :
    m.read (after ws r) = (lastTo? m (accepted ws r)).elim (m.read r) .ok :=
  Provider.read_after (p := .record schema) hnames hws trivial hm

/-- Columns of different names are variables that a record stores. -/
theorem stores (hnames : (schema.columns.map Column.name).Nodup)
    (hws : ∀ w ∈ ws, w.member ∈ schema.members) (r : Record) : schema.StoreLaws ws r where
  succeeds _ hm _ _ := Provider.exists_write_iff (p := .record schema) hm
  unchanged _ hm _ _ _ _ h := Provider.eq_of_write_error (p := .record schema) hm h
  accepts := Provider.accepted_eq_filter (p := .record schema) hws r
  last _ hm _ hv := by
    rw [read_after hnames hws r hm, hv]
    rfl
  first _ hm hnone := by
    rw [read_after hnames hws r hm, hnone]
    rfl
  initial col _ := by
    rw [read_memberOf]
    cases r.get? col.name <;> rfl
  foreign key hkey :=
    (Provider.agreeOutside_after (p := .record schema) hws trivial).1 key (not_mem_slots hkey)

/-- Customers, who may have a nickname. -/
def customers : RecordSchema := ⟨"Customer", [⟨"Id", .int .i32⟩, ⟨"Nickname", .nullable .string⟩]⟩

/-- A customer with an id that is no number, and with a key that is no column. -/
def stray : Record := .ofList [("Id", .str "three"), ("Total", .bool true)]

/-- Two nicknames, with an id of the wrong width between them. -/
def renamings : List (Write Record) :=
  [⟨memberOf "Customer" ⟨"Nickname", .nullable .string⟩, .str "Al"⟩,
    ⟨memberOf "Customer" ⟨"Id", .int .i32⟩, .int .i64 (IntKind.i64.wrap 1)⟩,
    ⟨memberOf "Customer" ⟨"Nickname", .nullable .string⟩, .str "Ace"⟩]

theorem stores_customers : (customers.columns.map Column.name).Nodup ∧
    (∀ w ∈ renamings, w.member ∈ customers.members) ∧ customers.StoreLaws renamings stray ∧
    (memberOf "Customer" ⟨"Nickname", .nullable .string⟩).read (after renamings stray) =
      .ok (.str "Ace") ∧
    (memberOf "Customer" ⟨"Id", .int .i32⟩).read (after renamings stray) =
      .error (.mismatch (.int .i32) (.str "three")) := by
  have hnames : (customers.columns.map Column.name).Nodup := by decide
  have hws : ∀ w ∈ renamings, w.member ∈ customers.members := by
    simp [renamings, customers, members]
  have laws := stores hnames hws stray
  have hnickname := laws.last _ (List.mem_cons_of_mem _ List.mem_cons_self) _ rfl
  have hid := laws.first _ List.mem_cons_self rfl
  exact ⟨hnames, hws, laws, hnickname, hid⟩

end Crosswalk.RecordSchema
