import Crosswalk.Decimal.Numeral

/-!
# JSON trees

A JSON text as a tree. An object keeps all its fields in order, repeated keys among them. A
text is absent (`none`) where it was written with half of a surrogate pair, which no text
holds; a reader that wants the text must refuse it, one that does not may pass over it.
-/

namespace Crosswalk

/-- A JSON tree. -/
inductive Json where
  | null
  | bool (b : Bool)
  | number (x : Decimal.Numeral)
  | string (s : Option String)
  | array (items : List Json)
  | object (fields : List (Option String × Json))

namespace Json

/-- The tree of a text. -/
def text (s : String) : Json := string (some s)

/-- The tree of an integer. -/
def int (n : Int) : Json := number (.ofInt n)

/-- The trees under a key, in order. -/
def under (key : String) (fields : List (Option String × Json)) : List Json :=
  (fields.filter fun f => f.1 == some key).map Prod.snd

/-- Every key is a text. -/
def keysAreTexts (fields : List (Option String × Json)) : Bool := fields.all fun f => f.1.isSome

end Json

end Crosswalk
