/-!
# Powers of two and ten

The scales of binary and of decimal numbers.
-/

namespace Crosswalk.Decimal

/-- Two to the power `k`. -/
abbrev twoPow (k : Nat) : Nat := Nat.pow 2 k

/-- Ten to the power `k`. -/
abbrev tenPow (k : Nat) : Nat := Nat.pow 10 k

end Crosswalk.Decimal
