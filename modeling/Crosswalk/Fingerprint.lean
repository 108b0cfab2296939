/-!
# Fingerprints

What a hash function is fed: a list of tokens. Things that are equal must have equal
fingerprints, so that a table keyed by fingerprints finds them again.
-/

namespace Crosswalk

/-- A piece of a fingerprint. -/
inductive Token where
  /-- Which constructor a thing has. -/
  | tag (n : Nat)
  | count (n : Nat)
  | int (n : Int)
  | word (n : Nat)
  | text (s : String)
  | flag (b : Bool)
  /-- The identity of a computation. -/
  | identity (n : Nat)
  deriving DecidableEq, Repr

end Crosswalk
