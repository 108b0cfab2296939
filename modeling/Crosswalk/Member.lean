import Crosswalk.Carrier
import Crosswalk.Text.TypeName
import Crosswalk.Update

/-!
# Members

A member is a named and typed part of an owner that can be read, written, or both. What
stores it is named by its slot; two members are the same (`==`) when they agree in kind,
name, type, slot and abilities, whatever owner label diagnostics use for them.
-/

namespace Crosswalk

/-- What backs a member. -/
inductive MemberKind where
  /-- A part of a structure. -/
  | field
  /-- A reading and a writing procedure. -/
  | accessor
  /-- A value derived from the owner. -/
  | computed
  deriving DecidableEq, Repr

/-- The storage that a member reads and writes. -/
inductive Slot where
  /-- A field of a structure. -/
  | field (name : String)
  /-- A key of a record. -/
  | key (key : String)
  /-- A position of a row. -/
  | index (n : Nat)
  /-- Procedures known by their identities, zero for one that is missing. -/
  | delegates (getter setter : Nat)
  deriving DecidableEq, Repr

/-- How a member is read. -/
abbrev Getter (σ : Type) : Type := σ → Except AccessError Value

/-- How a member is written. -/
abbrev Setter (σ : Type) : Type := Value → Update AccessError σ

/-- A named and typed part of an owner. -/
structure Member (σ : Type) where
  /-- The owner in diagnostics. -/
  owner : String
  name : String
  type : ValueType
  kind : MemberKind
  slot : Slot
  getter : Option (Getter σ)
  setter : Option (Setter σ)

namespace Member

variable {σ : Type}

/-! ## Members backed by typed procedures -/

/-- Reading through elements of a carrier. -/
def typedGetter (c : Carrier) (get : σ → c.Elem) : Getter σ := fun s => .ok (c.toValue (get s))

/-- Writing through elements of a carrier: a value that is none leaves the owner as it is. -/
def typedSetter (c : Carrier) (set : c.Elem → σ → σ) : Setter σ := fun v =>
  match c.ofValue v with
  | .ok x => .modify (set x)
  | .error e => .fail e

/-- A field that can be read and written. -/
def field (owner name : String) (slot : Slot) (c : Carrier) (get : σ → c.Elem)
    (set : c.Elem → σ → σ) : Member σ :=
  ⟨owner, name, c.valueType, .field, slot, some (typedGetter c get), some (typedSetter c set)⟩

/-- A field that can only be read. -/
def readOnly (owner name : String) (slot : Slot) (c : Carrier) (get : σ → c.Elem) : Member σ :=
  ⟨owner, name, c.valueType, .field, slot, some (typedGetter c get), none⟩

/-- A field that can only be written. -/
def writeOnly (owner name : String) (slot : Slot) (c : Carrier) (set : c.Elem → σ → σ) :
    Member σ :=
  ⟨owner, name, c.valueType, .field, slot, none, some (typedSetter c set)⟩

/-- A value derived from the owner. -/
def computed (owner name : String) (slot : Slot) (c : Carrier) (compute : σ → c.Elem) :
    Member σ :=
  ⟨owner, name, c.valueType, .computed, slot, some (typedGetter c compute), none⟩

/-- A member backed by untyped procedures, which are trusted to keep to the type. -/
def accessor (owner name : String) (slot : Slot) (type : ValueType)
    (get : Option (Getter σ)) (set : Option (Setter σ)) : Member σ :=
  ⟨owner, name, type, .accessor, slot, get, set⟩

/-! ## Reading and writing -/

variable (m : Member σ)

/-- There is a getter. -/
def canRead : Bool := m.getter.isSome

/-- There is a setter. -/
def canWrite : Bool := m.setter.isSome

/-- The error of a missing ability. -/
def unsupported (op : Operation) : AccessError := .unsupported m.owner m.name op

/-- The value of the member in an owner. -/
def read (s : σ) : Except AccessError Value :=
  match m.getter with
  | some get => get s
  | none => .error (m.unsupported .read)

/-- The value put into the member of an owner. -/
def write (v : Value) : Update AccessError σ :=
  match m.setter with
  | some set => set v
  | none => .fail (m.unsupported .write)

/-! ## Comparing and showing -/

/-- The owner as diagnostics shorten it. -/
def shortOwner : String := Text.shortTypeName m.owner

/-- The member in diagnostics, after its owner. -/
def display : String := m.shortOwner ++ "." ++ m.name

instance : BEq (Member σ) where
  beq a b := a.kind == b.kind && a.name == b.name && a.type == b.type && a.slot == b.slot &&
    a.canRead == b.canRead && a.canWrite == b.canWrite

end Member

namespace MemberKind

/-- What tells kinds of members apart. -/
def fingerprint : MemberKind → List Token
  | field => [.tag 0]
  | accessor => [.tag 1]
  | computed => [.tag 2]

end MemberKind

namespace Slot

/-- What tells places apart: the kind of place first, then where it is. -/
def fingerprint : Slot → List Token
  | field name => [.tag 0, .text name]
  | key k => [.tag 1, .text k]
  | index n => [.tag 2, .count n]
  | delegates g s => [.tag 3, .identity g, .identity s]

end Slot

/-- What tells members apart. -/
def Member.fingerprint {σ : Type} (m : Member σ) : List Token :=
  m.kind.fingerprint ++ .text m.name :: m.type.fingerprint ++ m.slot.fingerprint ++
    [.flag m.canRead, .flag m.canWrite]

end Crosswalk
