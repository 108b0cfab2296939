import Crosswalk.Mapping

/-!
# Transformations

A list of mappings carried out in two phases: first every value is read and coerced, then
every value is written, each in the order of the list. A failing read leaves the target as
it is; a failing write leaves what was written before it.
-/

namespace Crosswalk

variable {σ τ : Type}

/-- The failure of a mapping, named for its target member. -/
def Mapping.failure (m : Mapping σ τ) (cause : AccessError) : MappingError :=
  .transform m.target.shortOwner m.target.name cause

/-- The values for the target members, or the first failure. -/
def readAll (s : σ) : List (Mapping σ τ) → Except MappingError (List Value)
  | [] => .ok []
  | m :: ms =>
    match m.produce s with
    | .error cause => .error (m.failure cause)
    | .ok v => (readAll s ms).map fun vs => v :: vs

/-- Writes the values to the target members until one fails. -/
def writeAll : List (Mapping σ τ) → List Value → Update MappingError τ
  | m :: ms, v :: vs => ((m.target.write v).mapError m.failure).andThen (writeAll ms vs)
  | _, _ => fun t => (.ok (), t)

/-- Carries out the mappings from a source to a target. -/
def transform (ms : List (Mapping σ τ)) (s : σ) : Update MappingError τ :=
  match readAll s ms with
  | .error e => .fail e
  | .ok vs => writeAll ms vs

end Crosswalk
