import Crosswalk.Json.Reader
import Crosswalk.Json.Values
import Crosswalk.Json.Writer
import Crosswalk.Options

/-!
# Options in JSON

Each policy is its name; the options are an object of three policies. A reader gives the
initial policy for a field that is missing, and takes the policies in an array too, where
the last ones may be missing.
-/

namespace Crosswalk

namespace MappingMode

/-- The mode of a tree. -/
def ofJson? (j : Json) : Option MappingMode :=
  j.choice?.bind ofName?

end MappingMode

namespace NameComparer

/-- The comparer of a tree. -/
def ofJson? (j : Json) : Option NameComparer :=
  j.choice?.bind ofName?

end NameComparer

namespace NullableBehavior

/-- The behaviour of a tree. -/
def ofJson? (j : Json) : Option NullableBehavior :=
  j.choice?.bind ofName?

end NullableBehavior

namespace Json

/-- What at most one tree says, the initial value where there is none. -/
def optional? {α : Type} (read? : Json → Option α) (start : α) : List Json → Option α
  | [] => some start
  | [j] => read? j
  | _ => none

end Json

namespace MappingOptions

/-- The tree of the options. -/
def toJson (o : MappingOptions) : Json :=
  .object [(some "mode", .text o.mode.name), (some "name_comparer", .text o.nameComparer.name),
    (some "nullable_behavior", .text o.nullableBehavior.name)]

/-- The options of at most one tree for each. -/
def ofFields? (mode comparer behavior : List Json) : Option MappingOptions := do
  let m ← Json.optional? MappingMode.ofJson? initial.mode mode
  let c ← Json.optional? NameComparer.ofJson? initial.nameComparer comparer
  let b ← Json.optional? NullableBehavior.ofJson? initial.nullableBehavior behavior
  return ⟨m, c, b⟩

/-- The options of a tree. -/
def ofJson? : Json → Option MappingOptions
  | .object fields =>
    if Json.keysAreTexts fields then
      ofFields? (Json.under "mode" fields) (Json.under "name_comparer" fields)
        (Json.under "nullable_behavior" fields)
    else none
  | .array items =>
    if items.length ≤ 3 then
      ofFields? (items.take 1) ((items.drop 1).take 1) (items.drop 2)
    else none
  | _ => none

/-- The text of the options. -/
def render (o : MappingOptions) : String := o.toJson.render

/-- The options of a text. -/
def parse? (s : String) : Option MappingOptions := (Json.parse? s).bind ofJson?

end MappingOptions

end Crosswalk
