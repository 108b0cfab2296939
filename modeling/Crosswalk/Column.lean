import Crosswalk.Member

/-!
# Columns

Declared columns of records and rows, and the checks on what is stored under them: what is
absent reads as the default of its column, and what is present must conform to it.
-/

namespace Crosswalk

/-- A declared column. -/
structure Column where
  name : String
  type : ValueType
  deriving DecidableEq

/-- The value where it conforms to the type. -/
def checkConforms (t : ValueType) (v : Value) : Except AccessError Value :=
  if v.conforms t then .ok v else .error (.mismatch t v)

/-- What a stored value, or none, reads as. -/
def checkedRead (t : ValueType) : Option Value → Except AccessError Value
  | none => .ok t.default
  | some v => checkConforms t v

/-- Writing that stores only what conforms to the type. -/
def checkedWrite {σ : Type} (t : ValueType) (store : Value → σ → σ) : Setter σ := fun v =>
  if v.conforms t then .modify (store v) else .fail (.mismatch t v)

end Crosswalk
