import Crosswalk.Column

/-!
# Rows

A row is a list of cells. A schema declares a column for each position and makes a member
of each; a row may be shorter than its schema, and what it lacks reads as a default.
-/

namespace Crosswalk

/-- A list of cells. -/
structure Row where
  cells : List Value
  deriving DecidableEq

namespace Row

instance : Inhabited Row := ⟨⟨[]⟩⟩

/-- The value at a position, if the row is long enough. -/
def get? (r : Row) (i : Nat) : Option Value := r.cells[i]?

/-- The row with a value at a position, padded by absent values where it is too short. -/
def set (r : Row) (i : Nat) (v : Value) : Row :=
  if i < r.cells.length then ⟨r.cells.set i v⟩
  else ⟨r.cells ++ List.replicate (i - r.cells.length) .null ++ [v]⟩

end Row

/-- Declared columns of rows, in the order of the cells. -/
structure RowSchema where
  /-- The owner in diagnostics. -/
  name : String
  columns : List Column

namespace RowSchema

/-- The row of defaults. -/
def defaultRow (s : RowSchema) : Row := ⟨s.columns.map fun c => c.type.default⟩

/-- The first cell that does not conform to its column, as an error. -/
def checkCells : List Column → List Value → Except AccessError Unit
  | c :: cs, v :: vs =>
    match checkConforms c.type v with
    | .ok _ => checkCells cs vs
    | .error e => .error e
  | _, _ => .ok ()

/-- The row of the cells, where there is one for each column and each conforms. -/
def row (s : RowSchema) (cells : List Value) : Except AccessError Row :=
  if cells.length ≠ s.columns.length then
    .error (.cellCount s.name s.columns.length cells.length)
  else (checkCells s.columns cells).map fun _ => ⟨cells⟩

/-- The member of the column at a position. -/
def memberOf (owner : String) (c : Column) (i : Nat) : Member Row :=
  .accessor owner c.name (.index i) c.type
    (some fun r => checkedRead c.type (r.get? i))
    (some (checkedWrite c.type fun v r => r.set i v))

/-- A member for each column, in order. -/
def members (s : RowSchema) : List (Member Row) :=
  s.columns.mapIdx fun i c => memberOf s.name c i

end RowSchema

end Crosswalk
