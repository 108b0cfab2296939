import Crosswalk.Json.Number
import Crosswalk.Json.Reader
import Crosswalk.Json.Writer
import Crosswalk.Record
import Crosswalk.Row

/-!
# Values, records and rows in JSON

A value is an object with its tag under `kind` and what it holds under `value`; the absent
value holds nothing. A record is an object of values under `values`, a row an array of
values under `cells`. A reader takes the fields in any order and passes over others, but
refuses one that is repeated; it also takes the fields in an array, in their order. The
tag under `kind` may be the only key of an object; in an array it stands alone.
-/

namespace Crosswalk

/-! ## Values -/

/-- The tags of values. -/
inductive ValueTag where
  | null
  | bool
  | char
  | int (k : IntKind)
  | float (k : FloatKind)
  | str
  | enum
  deriving DecidableEq, Repr

namespace ValueTag

/-- The tag as it is written. -/
def name : ValueTag → String
  | null => "Null"
  | bool => "Bool"
  | char => "Char"
  | int .i8 => "I8"
  | int .i16 => "I16"
  | int .i32 => "I32"
  | int .i64 => "I64"
  | int .u8 => "U8"
  | int .u16 => "U16"
  | int .u32 => "U32"
  | int .u64 => "U64"
  | float .f32 => "F32"
  | float .f64 => "F64"
  | str => "Str"
  | enum => "Enum"

/-- Every tag, in the order in which they are tried. -/
def all : List ValueTag :=
  [null, bool, char, int .i8, int .i16, int .i32, int .i64, int .u8, int .u16, int .u32,
    int .u64, float .f32, float .f64, str, enum]

/-- The tag of a name. -/
def ofName? (s : String) : Option ValueTag := all.find? fun t => t.name == s

/-- The value with the tag that holds what `content` says. -/
def read? : ValueTag → Option Json → Option Value
  | null, none => some .null
  | null, some .null => some .null
  | bool, some (.bool b) => some (.bool b)
  | char, some (.string (some s)) =>
    match s.toList with
    | [c] => some (.char c)
    | _ => none
  | int k, some j => (Json.toElem? k j).map (.int k)
  | float k, some j => (Json.toWord? k j).map (.float k)
  | str, some (.string (some s)) => some (.str s)
  | enum, some j => (Json.toElem? .i64 j).map .enum
  | _, _ => none

end ValueTag

namespace Json

/-- The name of a choice without content, alone or as the only key of an object. -/
def choice? : Json → Option String
  | string s => s
  | object [(k, null)] => k
  | _ => none

/-- What stands under the one required field of an object, or alone in an array. -/
def onlyField? (key : String) : Json → Option Json
  | object fields =>
    if keysAreTexts fields then
      match under key fields with
      | [j] => some j
      | _ => none
    else none
  | array [j] => some j
  | _ => none

end Json

namespace Value

/-- The tag under which the value is written. -/
def tag : Value → ValueTag
  | null => .null
  | bool _ => .bool
  | char _ => .char
  | int k _ => .int k
  | float k _ => .float k
  | str _ => .str
  | enum _ => .enum

/-- What the value holds. -/
def content : Value → Option Json
  | null => none
  | bool b => some (.bool b)
  | char c => some (.text (String.singleton c))
  | int _ n => some (.int n.1)
  | float k w => some (.ofWord k w)
  | str s => some (.text s)
  | enum d => some (.int d.1)

/-- The tree of a value. -/
def toJson (v : Value) : Json :=
  .object ((some "kind", .text v.tag.name) ::
    match v.content with
    | none => []
    | some j => [(some "value", j)])

/-- The value of the name of a tag and what it holds. -/
def ofTagged? (tag : Option String) (content : Option Json) : Option Value :=
  (tag.bind ValueTag.ofName?).bind fun t => t.read? content

/-- The value of a tree. -/
def ofJson? : Json → Option Value
  | .object fields =>
    if Json.keysAreTexts fields then
      match Json.under "kind" fields, Json.under "value" fields with
      | [t], [] => ofTagged? t.choice? none
      | [t], [j] => ofTagged? t.choice? (some j)
      | _, _ => none
    else none
  | .array [.string t, j] => ofTagged? t (some j)
  | _ => none

/-- The text of a value. -/
def render (v : Value) : String := v.toJson.render

/-- The value of a text. -/
def parse? (s : String) : Option Value := (Json.parse? s).bind ofJson?

end Value

/-! ## Records and rows -/

namespace Record

/-- The tree of a record. -/
def toJson (r : Record) : Json :=
  .object [(some "values", .object (r.entries.map fun e => (some e.1, e.2.toJson)))]

/-- The entry of a field. -/
def entryOfField? (f : Option String × Json) : Option (String × Value) :=
  f.1.bind fun k => (Value.ofJson? f.2).map fun v => (k, v)

/-- The record of an object of values; of the values under one key the last counts. -/
def ofValues? : Json → Option Record
  | .object fields => (fields.mapM entryOfField?).map ofList
  | _ => none

/-- The record of a tree. -/
def ofJson? (j : Json) : Option Record := (j.onlyField? "values").bind ofValues?

/-- The text of a record. -/
def render (r : Record) : String := r.toJson.render

/-- The record of a text. -/
def parse? (s : String) : Option Record := (Json.parse? s).bind ofJson?

end Record

namespace Row

/-- The tree of a row. -/
def toJson (r : Row) : Json :=
  .object [(some "cells", .array (r.cells.map Value.toJson))]

/-- The row of an array of values. -/
def ofCells? : Json → Option Row
  | .array items => (items.mapM Value.ofJson?).map fun vs => ⟨vs⟩
  | _ => none

/-- The row of a tree. -/
def ofJson? (j : Json) : Option Row := (j.onlyField? "cells").bind ofCells?

/-- The text of a row. -/
def render (r : Row) : String := r.toJson.render

/-- The row of a text. -/
def parse? (s : String) : Option Row := (Json.parse? s).bind ofJson?

end Row

end Crosswalk
