/-!
# Updates that may fail

An update of a state says what it leaves, whether it succeeds or not: a failing update need
not leave the state as it was.
-/

namespace Crosswalk

/-- An update of `σ` that may fail with `ε`, and the state it leaves in either case. -/
abbrev Update (ε σ : Type) : Type := σ → Except ε Unit × σ

namespace Update

variable {ε ε' σ : Type}

/-- Leaves the state as it is, and fails. -/
def fail (e : ε) : Update ε σ := fun s => (.error e, s)

/-- Changes the state, and succeeds. -/
def modify (f : σ → σ) : Update ε σ := fun s => (.ok (), f s)

/-- The first update, and the second where the first succeeds. -/
def andThen (u v : Update ε σ) : Update ε σ := fun s =>
  match u s with
  | (.ok (), s') => v s'
  | (.error e, s') => (.error e, s')

/-- The update with another error. -/
def mapError (f : ε → ε') (u : Update ε σ) : Update ε' σ := fun s =>
  match u s with
  | (.ok (), s') => (.ok (), s')
  | (.error e, s') => (.error (f e), s')

end Update

end Crosswalk
