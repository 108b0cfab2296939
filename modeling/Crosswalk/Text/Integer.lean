/-!
# Decimal integers in text

An optional sign and at least one digit, with any number of leading zeros. A reader has a
limit, so that a long text costs no more than its length: digits after a number that has
reached the limit are passed over, which leaves the numbers below the limit as they are
(`leadingOfDigits_lt_iff`, `leadingOfDigits_eq`).
-/

namespace Crosswalk.Text

/-- The value of a digit. -/
def digitValue (c : Char) : Nat := c.toNat - '0'.toNat

/-- The number that the digits of `cs` add to `acc`. -/
def natOfDigits (acc : Nat) (cs : List Char) : Nat :=
  cs.foldl (fun n c => 10 * n + digitValue c) acc

/-- The number that the digits of `cs` add to `acc`, where a digit counts as long as the
number before it is less than `limit`. -/
def leadingOfDigits (limit acc : Nat) (cs : List Char) : Nat :=
  cs.foldl (fun n c => if n < limit then 10 * n + digitValue c else n) acc

theorem le_natOfDigits (acc : Nat) (cs : List Char) : acc ≤ natOfDigits acc cs := by
  induction cs generalizing acc with
  | nil => exact Nat.le_refl acc
  | cons c cs ih =>
    have h : 10 * acc + digitValue c ≤ natOfDigits acc (c :: cs) := ih _
    omega

/-- Once the limit is reached, no digit counts. -/
theorem leadingOfDigits_of_le {limit acc : Nat} (h : limit ≤ acc) (cs : List Char) :
    leadingOfDigits limit acc cs = acc := by
  induction cs with
  | nil => rfl
  | cons c cs ih => simpa [leadingOfDigits, Nat.not_lt.mpr h] using ih

/-- A number below the limit is read in full. -/
theorem leadingOfDigits_eq {limit acc : Nat} {cs : List Char}
    (h : natOfDigits acc cs < limit) : leadingOfDigits limit acc cs = natOfDigits acc cs := by
  induction cs generalizing acc with
  | nil => rfl
  | cons c cs ih =>
    have hacc : acc < limit := Nat.lt_of_le_of_lt (le_natOfDigits acc (c :: cs)) h
    simpa [leadingOfDigits, natOfDigits, hacc] using ih h

/-- What is read is below the limit exactly if the number is. -/
theorem leadingOfDigits_lt_iff {limit acc : Nat} {cs : List Char} :
    leadingOfDigits limit acc cs < limit ↔ natOfDigits acc cs < limit := by
  refine ⟨fun h => ?_, fun h => by rwa [leadingOfDigits_eq h]⟩
  induction cs generalizing acc with
  | nil => exact h
  | cons c cs ih =>
    by_cases hacc : acc < limit
    · exact ih (by simpa [leadingOfDigits, hacc] using h)
    · rw [leadingOfDigits_of_le (Nat.le_of_not_lt hacc)] at h
      exact absurd h hacc

/-- The number written by one or more digits, if it is less than `limit`. -/
def readNat? (limit : Nat) (cs : List Char) : Option Nat :=
  let n := leadingOfDigits limit 0 cs
  if cs ≠ [] ∧ cs.all Char.isDigit ∧ n < limit then some n else none

theorem readNat?_eq (limit : Nat) (cs : List Char) :
    readNat? limit cs =
      if cs ≠ [] ∧ cs.all Char.isDigit ∧ natOfDigits 0 cs < limit then some (natOfDigits 0 cs)
      else none := by
  unfold readNat?
  by_cases h : natOfDigits 0 cs < limit
  · simp only [leadingOfDigits_eq h]
  · simp only [leadingOfDigits_lt_iff, h, and_false, if_false]

/-- The number written by an optional sign and one or more digits, if its magnitude is less
than `limit`. -/
def readInt? (limit : Nat) : List Char → Option Int
  | '+' :: cs => (readNat? limit cs).map Int.ofNat
  | '-' :: cs => (readNat? limit cs).map fun n => -Int.ofNat n
  | cs => (readNat? limit cs).map Int.ofNat

end Crosswalk.Text
