import Crosswalk.Row

/-!
# Members of one row

Writing a member of a row stores one cell, and pads the row with absent values up to it. What
another member reads stays as it is, unless the write pads its cell and its column is not
nullable (`RowSchema.read_eq_iff_of_write`): the cell was missing and read as the default of
the column, and then holds a value of another type.
-/

namespace Crosswalk

/-! ## Columns -/

theorem Value.conforms_null (t : ValueType) : null.conforms t = t.isNullable := by
  cases t <;> rfl

/-- A padded cell reads as a missing one where its column is nullable, and fails elsewhere. -/
theorem checkedRead_padded (t : ValueType) :
    (t.isNullable = true ∧ checkedRead t (some .null) = checkedRead t none) ∨
      (t.isNullable = false ∧ checkedRead t (some .null) = .error (.mismatch t .null)) := by
  cases hnull : t.isNullable with
  | true =>
    refine .inl ⟨rfl, ?_⟩
    cases t with
    | nullable u => rfl
    | _ => cases hnull
  | false =>
    refine .inr ⟨rfl, ?_⟩
    rw [checkedRead, checkConforms, Value.conforms_null, hnull]
    rfl

theorem checkedWrite_eq_ok {σ : Type} {t : ValueType} {store : Value → σ → σ} {v : Value}
    {s s' : σ} (h : checkedWrite t store v s = (.ok (), s')) :
    v.conforms t = true ∧ s' = store v s := by
  unfold checkedWrite at h
  split at h
  · next hv => exact ⟨hv, (congrArg Prod.snd h).symm⟩
  · cases h

/-! ## Cells -/

namespace Row

variable {r : Row} {i j : Nat} {v : Value}

/-- The cells before the one that is set are padded, and the others kept. -/
theorem get?_set_of_ne (h : i ≠ j) : (r.set j v).get? i =
    if r.cells.length ≤ i ∧ i < j then some .null else r.get? i := by
  unfold set get?
  split
  · next hj =>
    rw [List.getElem?_set_ne h.symm, if_neg (by omega)]
  · next hj =>
    dsimp only
    rw [List.append_assoc]
    by_cases hheld : i < r.cells.length
    · rw [List.getElem?_append_left hheld, if_neg (by omega)]
    · rw [List.getElem?_append_right (by omega), List.getElem?_eq_none (l := r.cells) (by omega)]
      by_cases hpad : i < j
      · rw [if_pos ⟨by omega, hpad⟩,
          List.getElem?_append_left (by rw [List.length_replicate]; omega),
          List.getElem?_replicate_of_lt (by omega)]
      · rw [if_neg (by omega)]
        refine List.getElem?_eq_none ?_
        rw [List.length_append, List.length_replicate, List.length_singleton]
        omega

end Row

/-! ## Members -/

namespace RowSchema

variable {schema : RowSchema} {m n : Member Row} {i j : Nat} {v : Value} {r r' : Row}

theorem eq_memberOf (h : schema.members[i]? = some m) :
    ∃ col, m = memberOf schema.name col i := by
  rw [members, List.getElem?_mapIdx] at h
  obtain ⟨col, -, rfl⟩ := Option.map_eq_some_iff.mp h
  exact ⟨col, rfl⟩

theorem read_memberOf (owner : String) (col : Column) (i : Nat) (r : Row) :
    (memberOf owner col i).read r = checkedRead col.type (r.get? i) :=
  rfl

/-- A write that succeeds stores a conforming value at the place of the member. -/
theorem eq_set_of_write {owner : String} {col : Column}
    (h : (memberOf owner col j).write v r = (.ok (), r')) :
    v.conforms col.type = true ∧ r' = r.set j v := by
  have hwrite : checkedWrite col.type (fun v (r : Row) => r.set j v) v r = (.ok (), r') := h
  exact checkedWrite_eq_ok hwrite

/-- What another member reads changes just where its missing cell is padded and its column is
not nullable. -/
theorem read_eq_iff_of_write (hi : schema.members[i]? = some m) (hj : schema.members[j]? = some n)
    (hij : i ≠ j) (hwrite : n.write v r = (.ok (), r')) :
    (m.read r' = m.read r ↔ i < r.cells.length ∨ j < i ∨ m.type.isNullable = true) ∧
      (m.read r' ≠ m.read r → m.read r = .ok m.type.default ∧
        m.read r' = .error (.mismatch m.type .null)) := by
  obtain ⟨col, rfl⟩ := eq_memberOf hi
  obtain ⟨col', rfl⟩ := eq_memberOf hj
  obtain ⟨-, rfl⟩ := eq_set_of_write hwrite
  have htype : (memberOf schema.name col i).type = col.type := rfl
  rw [read_memberOf, read_memberOf, htype, Row.get?_set_of_ne hij]
  by_cases hpad : r.cells.length ≤ i ∧ i < j
  · have hmissing : r.get? i = none := List.getElem?_eq_none hpad.1
    rw [if_pos hpad, hmissing]
    rcases checkedRead_padded col.type with ⟨hnull, hsame⟩ | ⟨hnull, hfail⟩
    · exact ⟨iff_of_true hsame (.inr (.inr hnull)), fun h => absurd hsame h⟩
    · rw [hfail, hnull]
      refine ⟨iff_of_false nofun ?_, fun _ => ⟨rfl, rfl⟩⟩
      rintro (h | h | h)
      · omega
      · omega
      · cases h
  · rw [if_neg hpad]
    exact ⟨iff_of_true rfl (by omega), fun h => absurd rfl h⟩

/-- Rows of two numbers. -/
def couples : RowSchema := ⟨"Couple", [⟨"First", .int .i32⟩, ⟨"Second", .int .i32⟩]⟩

/-- A number that either column takes. -/
def seven : Value := .int .i32 (IntKind.i32.wrap 7)

theorem read_eq_iff_of_write_couple : ∃ m n, couples.members[0]? = some m ∧
    couples.members[1]? = some n ∧ n.write seven ⟨[seven]⟩ = (.ok (), ⟨[seven, seven]⟩) ∧
    (m.read ⟨[seven, seven]⟩ = m.read ⟨[seven]⟩ ↔ 0 < 1 ∨ 1 < 0 ∨ m.type.isNullable = true) ∧
    (m.read ⟨[seven, seven]⟩ ≠ m.read ⟨[seven]⟩ → m.read ⟨[seven]⟩ = .ok m.type.default ∧
      m.read ⟨[seven, seven]⟩ = .error (.mismatch m.type .null)) := by
  have hfirst : couples.members[0]? = some (memberOf "Couple" ⟨"First", .int .i32⟩ 0) := rfl
  have hsecond : couples.members[1]? = some (memberOf "Couple" ⟨"Second", .int .i32⟩ 1) := rfl
  have hwrite : (memberOf "Couple" ⟨"Second", .int .i32⟩ 1).write seven ⟨[seven]⟩ =
      (.ok (), ⟨[seven, seven]⟩) := rfl
  exact ⟨_, _, hfirst, hsecond, hwrite,
    read_eq_iff_of_write hfirst hsecond (by decide) hwrite⟩

/-- Writing the second number of an empty row makes the first unreadable. -/
theorem first_unreadable : ∃ m n, couples.members[0]? = some m ∧ couples.members[1]? = some n ∧
    n.write seven ⟨[]⟩ = (.ok (), ⟨[.null, seven]⟩) ∧
    m.read ⟨[]⟩ = .ok (.int .i32 (IntKind.zero .i32)) ∧
    m.read ⟨[.null, seven]⟩ = .error (.mismatch (.int .i32) .null) :=
  ⟨_, _, rfl, rfl, rfl, rfl, rfl⟩

end RowSchema

end Crosswalk
