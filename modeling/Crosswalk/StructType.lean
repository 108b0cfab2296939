import Crosswalk.Member

/-!
# Structures

A structure type declares typed fields, each with an initial element, and registers some of
them under member names. An instance holds an element for each field.
-/

namespace Crosswalk

/-- A typed field. -/
structure Field where
  name : String
  carrier : Carrier
  /-- What the field of a new instance holds. -/
  initial : carrier.Elem

/-- A structure type. -/
structure StructType where
  /-- The full name of the type. -/
  name : String
  fields : List Field
  /-- Member names with the fields they stand for, in order. -/
  registered : List (String × Fin fields.length)

namespace StructType

/-- The type with these fields, each registered under a member name. -/
def ofFields (name : String) (decls : List (String × Field)) : StructType where
  name := name
  fields := decls.map Prod.snd
  registered := (decls.map Prod.fst).zip (List.finRange (decls.map Prod.snd).length)

variable (S : StructType)

/-- An element for each field. -/
def Instance : Type := (i : Fin S.fields.length) → (S.fields.get i).carrier.Elem

/-- The instance in which each field holds its initial element. -/
def initial : S.Instance := fun i => (S.fields.get i).initial

/-- The instance with another element in a field. -/
def setField {S : StructType} (i : Fin S.fields.length) (x : (S.fields.get i).carrier.Elem)
    (s : S.Instance) : S.Instance :=
  fun j => if h : j = i then h ▸ x else s j

/-- The member of a registered field. -/
def memberOf (name : String) (i : Fin S.fields.length) : Member S.Instance :=
  .field S.name name (.field (S.fields.get i).name) (S.fields.get i).carrier (fun s => s i)
    (setField i)

/-- The registered members, in order. -/
def members : List (Member S.Instance) := S.registered.map fun r => S.memberOf r.1 r.2

/-- The first member of the name. -/
def member? (name : String) : Option (Member S.Instance) :=
  S.members.find? fun m => m.name == name

end StructType

end Crosswalk
