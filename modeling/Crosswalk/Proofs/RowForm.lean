import Crosswalk.Proofs.Writes

/-!
# Rows in form

A row is in form for a schema when it has one cell for each column, which conforms to it
(`RowSchema.WellFormed`). Cells that are accepted make such a row (`RowSchema.row_eq_ok_iff`), and
so do the defaults. A write through a member either stores a conforming cell in its place or changes
nothing, so along any writes the row stays in form (`RowSchema.wellFormed_after`). Then no reading
can fail: a member reads as the last value accepted for it, or as the cell that was there at first
(`RowSchema.holds_form`).
-/

namespace Crosswalk

/-- Changing one element for another in the relation keeps the lists related. -/
theorem forall₂_set {α β : Type} {R : α → β → Prop} {as : List α} {bs : List β} {i : Nat} {a : α}
    {b : β} (h : List.Forall₂ R as bs) (ha : as[i]? = some a) (hR : R a b) :
    List.Forall₂ R as (bs.set i b) := by
  induction h generalizing i with
  | nil => exact .nil
  | cons hab htail ih =>
    cases i with
    | zero =>
      obtain rfl := Option.some.inj ha
      exact .cons hR htail
    | succ i => exact .cons hab (ih ha)

/-- The default conforms also to a nullable type of an enumeration without variants. -/
theorem ValueType.conforms_default_of_enum {t : ValueType}
    (h : ∀ e, t = .enum e → e.variants ≠ []) : t.default.conforms t = true := by
  cases t with
  | enum e => exact conforms_default (h e rfl)
  | nullable t => rfl
  | _ => exact conforms_default trivial

namespace RowSchema

open Write

variable {schema : RowSchema} {ws : List (Write Row)} {m : Member Row} {r : Row} {i : Nat}

/-- The row has one cell for each column, which conforms to it. -/
def WellFormed (schema : RowSchema) (r : Row) : Prop :=
  List.Forall₂ (fun col v => v.conforms col.type = true) schema.columns r.cells

/-! ## Rows that are made -/

theorem checkCells_eq_ok_iff {columns : List Column} {cells : List Value}
    (h : columns.length = cells.length) : checkCells columns cells = .ok () ↔
      List.Forall₂ (fun col v => v.conforms col.type = true) columns cells := by
  induction columns generalizing cells with
  | nil =>
    obtain rfl := List.length_eq_zero_iff.mp h.symm
    exact iff_of_true rfl .nil
  | cons col columns ih =>
    cases cells with
    | nil => cases h
    | cons v cells =>
      rw [List.forall₂_cons, checkCells, checkConforms]
      by_cases hv : v.conforms col.type = true
      · rw [if_pos hv, and_iff_right hv]
        exact ih (Nat.succ.inj h)
      · rw [if_neg hv]
        refine iff_of_false (fun hcells => ?_) fun hcells => hv hcells.1
        cases hcells

/-- Cells make a row just where there is one for each column, which conforms to it. -/
theorem row_eq_ok_iff {cells : List Value} :
    schema.row cells = .ok r ↔ r = ⟨cells⟩ ∧ schema.WellFormed ⟨cells⟩ := by
  unfold row
  by_cases hlength : cells.length = schema.columns.length
  · rw [if_neg (not_not_intro hlength), Except.map_eq_ok_iff, WellFormed,
      ← checkCells_eq_ok_iff hlength.symm]
    constructor
    · rintro ⟨_, hcells, rfl⟩
      exact ⟨rfl, hcells⟩
    · rintro ⟨rfl, hcells⟩
      exact ⟨(), hcells, rfl⟩
  · rw [if_pos hlength]
    exact iff_of_false nofun fun h => hlength h.2.length_eq.symm

theorem wellFormed_defaultRow
    (henums : ∀ col ∈ schema.columns, ∀ e, col.type = .enum e → e.variants ≠ []) :
    schema.WellFormed schema.defaultRow := by
  rw [WellFormed, defaultRow, List.forall₂_map_right_iff, List.forall₂_same]
  exact fun col hcol => ValueType.conforms_default_of_enum (henums col hcol)

/-- The row is made of cells, or of the defaults. -/
inductive Made (schema : RowSchema) : Row → Prop
  | row {cells : List Value} {r : Row} (h : schema.row cells = .ok r) : Made schema r
  | default : Made schema schema.defaultRow

/-- A row that is made is well formed. -/
theorem Made.wellFormed (h : schema.Made r)
    (henums : ∀ col ∈ schema.columns, ∀ e, col.type = .enum e → e.variants ≠ []) :
    schema.WellFormed r := by
  cases h with
  | row hrow =>
    obtain ⟨rfl, hform⟩ := row_eq_ok_iff.mp hrow
    exact hform
  | default => exact wellFormed_defaultRow henums

/-! ## Rows that are written -/

/-- A write stores a conforming cell in the place of a cell, or changes nothing. -/
theorem WellFormed.write (h : schema.WellFormed r) (hm : m ∈ schema.members) (v : Value) :
    schema.WellFormed (m.write v r).2 := by
  obtain ⟨i, hi, rfl⟩ := List.mem_mapIdx.mp hm
  cases hv : v.conforms schema.columns[i].type with
  | true =>
    have hroom : i < r.cells.length := h.length_eq ▸ hi
    rw [write_memberOf _ _ hv, Row.set, if_pos hroom]
    exact forall₂_set h (List.getElem?_eq_getElem hi) hv
  | false =>
    rw [write_of_not_conforms _ _ hv]
    exact h

/-- A row stays well formed, whatever its members write. -/
theorem wellFormed_after (h : schema.WellFormed r) (hws : ∀ w ∈ ws, w.member ∈ schema.members) :
    schema.WellFormed (after ws r) :=
  after_induction (fun w hw _ hform => hform.write (hws w hw) w.value) h

/-- In a row in form, a member reads as its cell. -/
theorem WellFormed.exists_read (h : schema.WellFormed r) (hm : schema.members[i]? = some m) :
    ∃ v, r.get? i = some v ∧ m.read r = .ok v := by
  rw [members, List.getElem?_mapIdx] at hm
  obtain ⟨col, hcol, rfl⟩ := Option.map_eq_some_iff.mp hm
  obtain ⟨hi, rfl⟩ := List.getElem?_eq_some_iff.mp hcol
  have hroom : i < r.cells.length := h.length_eq ▸ hi
  have hv : r.cells[i].conforms schema.columns[i].type = true := h.get hi hroom
  have hcell : r.get? i = some r.cells[i] := List.getElem?_eq_getElem hroom
  exact ⟨_, hcell, by rw [read_memberOf, hcell, checkedRead_of_conforms hv]⟩

/-- A member reads the last value that it accepted, and before the first what the row held. -/
theorem read_after (h : schema.WellFormed r) (hws : ∀ w ∈ ws, w.member ∈ schema.members)
    (hm : m ∈ schema.members) :
    m.read (after ws r) = (lastTo? m (accepted ws r)).elim (m.read r) .ok :=
  Provider.read_after (p := .row schema) trivial hws (Nat.le_of_eq h.length_eq) hm

/-- What writes in turn through members of the schema make of a row that was made for it. -/
structure FormLaws (schema : RowSchema) (ws : List (Write Row)) (r : Row) : Prop where
  /-- Cells make a row just where there is one for each column, which conforms to it. -/
  made : ∀ cells s, schema.row cells = .ok s ↔ s = ⟨cells⟩ ∧ schema.WellFormed ⟨cells⟩
  wellFormed : schema.WellFormed (after ws r)
  unchanged : ∀ m ∈ schema.members, ∀ v (s s' : Row) e, m.write v s = (.error e, s') → s' = s
  /-- A member reads as the last value accepted for it, or as the cell it had at first. -/
  reads : ∀ i m, schema.members[i]? = some m → ∃ cell, r.get? i = some cell ∧
    m.read (after ws r) = .ok ((lastTo? m (accepted ws r)).getD cell)

/-- Where enumerations have variants, rows that are made stay in form. -/
theorem holds_form
    (henums : ∀ col ∈ schema.columns, ∀ e, col.type = .enum e → e.variants ≠ [])
    (hmade : schema.Made r) (hws : ∀ w ∈ ws, w.member ∈ schema.members) :
    schema.FormLaws ws r where
  made _ _ := row_eq_ok_iff
  wellFormed := wellFormed_after (hmade.wellFormed henums) hws
  unchanged _ hm _ _ _ _ h := Provider.eq_of_write_error (p := .row schema) hm h
  reads i m hm := by
    obtain ⟨cell, hcell, hread⟩ := (hmade.wellFormed henums).exists_read hm
    refine ⟨cell, hcell, ?_⟩
    rw [read_after (hmade.wellFormed henums) hws (List.mem_of_getElem? hm), hread]
    cases lastTo? m (accepted ws r) <;> rfl

/-- The sizes of parcels, none of which has number zero. -/
def sizes : EnumType := ⟨"Size", [("Small", IntKind.i64.wrap 1), ("Large", IntKind.i64.wrap 2)]⟩

/-- Lines of an order. -/
def orderLines : RowSchema := ⟨"Line", [⟨"Qty", .int .u8⟩, ⟨"Size", .enum sizes⟩]⟩

/-- A number of pieces, and two sizes, one of which is unknown. -/
def corrections : List (Write Row) :=
  [⟨memberOf "Line" ⟨"Qty", .int .u8⟩ 0, .int .u8 (IntKind.u8.wrap 9)⟩,
    ⟨memberOf "Line" ⟨"Size", .enum sizes⟩ 1, .enum (IntKind.i64.wrap 2)⟩,
    ⟨memberOf "Line" ⟨"Size", .enum sizes⟩ 1, .enum (IntKind.i64.wrap 3)⟩]

theorem holds_form_orderLines :
    (∀ col ∈ orderLines.columns, ∀ e, col.type = .enum e → e.variants ≠ []) ∧
      orderLines.Made orderLines.defaultRow ∧
      (∀ w ∈ corrections, w.member ∈ orderLines.members) ∧
      orderLines.FormLaws corrections orderLines.defaultRow ∧
      (memberOf "Line" ⟨"Size", .enum sizes⟩ 1).read
        (after corrections orderLines.defaultRow) = .ok (.enum (IntKind.i64.wrap 2)) := by
  have henums : ∀ col ∈ orderLines.columns, ∀ e, col.type = .enum e → e.variants ≠ [] := by
    simp [orderLines, sizes]
  have hws : ∀ w ∈ corrections, w.member ∈ orderLines.members := by
    simp [corrections, orderLines, members]
  have laws := holds_form henums .default hws
  obtain ⟨_, -, hread⟩ := laws.reads 1 _ rfl
  exact ⟨henums, .default, hws, laws, hread⟩

end RowSchema

end Crosswalk
