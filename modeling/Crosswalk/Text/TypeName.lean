/-!
# Short type names

A type name is a path of segments joined by `::`, perhaps with generic arguments in angle
brackets, which may hold paths themselves. Its short name is the last segment of the path,
with its arguments.
-/

namespace Crosswalk.Text

/-- What follows the last `::` that stands before every `<`, where there is one. -/
def afterPath : List Char → Option (List Char)
  | [] => none
  | c :: cs =>
    if c = '<' then none
    else match afterPath cs with
      | some r => some r
      | none =>
        match cs with
        | d :: r => if c = ':' ∧ d = ':' then some r else none
        | [] => none

/-- The last segment of the path with its arguments. -/
def shortTypeName (name : String) : String :=
  match afterPath name.toList with
  | some r => String.ofList r
  | none => name

end Crosswalk.Text
