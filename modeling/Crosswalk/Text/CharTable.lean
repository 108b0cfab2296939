/-!
# Tables of code points

A property of characters is a list of closed ranges of code points, and a character has
the property when some range holds its code point (`CharTable.contains_iff`).
-/

namespace Crosswalk.Text

/-- Closed ranges of code points. -/
abbrev CharTable := List (Nat × Nat)

/-- Some range of the table holds the code point of `c`. -/
def CharTable.contains (t : CharTable) (c : Char) : Bool :=
  t.any fun r => decide (r.1 ≤ c.toNat) && decide (c.toNat ≤ r.2)

theorem CharTable.contains_iff {t : CharTable} {c : Char} :
    t.contains c = true ↔ ∃ r ∈ t, r.1 ≤ c.toNat ∧ c.toNat ≤ r.2 := by
  simp [CharTable.contains]

end Crosswalk.Text
