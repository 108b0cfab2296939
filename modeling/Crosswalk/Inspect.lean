import Crosswalk.Cache

/-!
# Inspection

The parts of members, mappings, configurations and caches written out on one line, for
debugging. A structure is its name with its fields in braces, a constructor its name with
its arguments in parentheses, a list its items in brackets; texts are quoted.
-/

namespace Crosswalk

namespace Inspect

/-- Texts with commas between. -/
def commas (parts : List String) : String := ", ".intercalate parts

/-- A structure with named fields; `more` says that others are left out. -/
def fields (name : String) (parts : List (String × String)) (more : Bool) : String :=
  let written := parts.map (fun p => p.1 ++ ": " ++ p.2) ++ (if more then [".."] else [])
  name ++ " \x7b " ++ commas written ++ " \x7d"

/-- A constructor with arguments. -/
def args (name : String) (parts : List String) : String := name ++ "(" ++ commas parts ++ ")"

/-- A list. -/
def list (parts : List String) : String := "[" ++ commas parts ++ "]"

/-- A truth value. -/
def bool (b : Bool) : String := if b then "true" else "false"

end Inspect

open Inspect

namespace IntKind

/-- The kind as a constructor. -/
def inspect : IntKind → String
  | i8 => "I8" | i16 => "I16" | i32 => "I32" | i64 => "I64"
  | u8 => "U8" | u16 => "U16" | u32 => "U32" | u64 => "U64"

end IntKind

namespace FloatKind

/-- The kind as a constructor. -/
def inspect : FloatKind → String
  | f32 => "F32" | f64 => "F64"

end FloatKind

namespace EnumType

/-- The enumeration with its variants, each as a pair of its name and its number. -/
def inspect (e : EnumType) : String :=
  fields "EnumType"
    [("name", Text.quoted e.name),
      ("variants", list (e.variants.map fun v => args "" [Text.quoted v.1, toString v.2.1]))]
    false

end EnumType

namespace ValueType

/-- The type as a constructor. -/
def inspect : ValueType → String
  | bool => "Bool"
  | char => "Char"
  | int k => k.inspect
  | float k => k.inspect
  | string => "String"
  | enum e => args "Enum" [e.inspect]
  | nullable t => args "Nullable" [t.inspect]

end ValueType

namespace Value

/-- The value as a constructor. Floating-point numbers keep their point. -/
def inspect : Value → String
  | null => "Null"
  | bool b => args "Bool" [Inspect.bool b]
  | char c => args "Char" [Text.quotedChar c]
  | int k n => args k.inspect [toString n.1]
  | float k w => args k.inspect [k.text .debug w]
  | str s => args "Str" [Text.quoted s]
  | enum d => args "Enum" [toString d.1]

end Value

namespace MemberKind

/-- The kind of member as a constructor. -/
def inspect : MemberKind → String
  | field => "Field"
  | accessor => "Accessor"
  | computed => "Computed"

end MemberKind

namespace Slot

/-- The place of a member. Closures are told apart by their identities. -/
def inspect : Slot → String
  | field name => args "Field" [Text.quoted name]
  | key k => args "Key" [Text.quoted k]
  | index n => args "Index" [toString n]
  | delegates g s => args "Delegates" [toString g, toString s]

end Slot

section

variable {σ τ : Type}

/-- The parts of the member, and what can be done with it. -/
def Member.inspect (m : Member σ) : String :=
  fields "Member"
    [("owner", Text.quoted m.owner), ("name", Text.quoted m.name),
      ("value_type", m.type.inspect), ("kind", m.kind.inspect), ("slot", m.slot.inspect),
      ("can_read", Inspect.bool m.canRead), ("can_write", Inspect.bool m.canWrite)]
    false

/-- A list of members. -/
def inspectMembers (ms : List (Member σ)) : String := list (ms.map Member.inspect)

/-- The plan as nested constructors, from the outside in. -/
def Coercion.inspect : Coercion → String
  | identity => "Identity"
  | wrap inner t =>
    fields "WrapNullable"
      [("inner", inner.inspect),
        ("null_if_default_of", match t with
          | none => "None"
          | some t => args "Some" [t.inspect])]
      false
  | unwrap inner t =>
    fields "UnwrapNullable" [("inner", inner.inspect), ("default_of", t.inspect)] false
  | lift inner => args "LiftNullable" [inner.inspect]
  | parseEnum e => args "ParseEnum" [e.inspect]
  | integralToEnum e => args "IntegralToEnum" [e.inspect]
  | enumToString e => args "EnumToString" [e.inspect]
  | enumToIntegral t => args "EnumToIntegral" [t.inspect]
  | convert t => args "Convert" [t.inspect]

/-- The signature of the function. The body cannot be shown. -/
def Function.inspect (f : Function) : String :=
  fields "Function"
    [("name", Text.quoted f.name), ("params", list (f.params.map ValueType.inspect)),
      ("output", f.output.inspect)]
    true

mutual

/-- The expression as nested constructors. -/
def Expr.inspect : Expr → String
  | .member name => args "Member" [Text.quoted name]
  | .const v t => args "Constant" [v.inspect, t.inspect]
  | .call f es => args "Call" [f.inspect, list (inspectAll es)]

/-- Each of several expressions. -/
def Expr.inspectAll : List Expr → List String
  | [] => []
  | e :: es => inspect e :: inspectAll es

end

/-- The delegate by its output. The body cannot be shown. -/
def Delegate.inspect (d : Delegate σ) : String :=
  fields "Delegate" [("output", d.output.inspect)] true

/-- The binding as a constructor. -/
def Binding.inspect : Binding σ → String
  | .member name => args "Member" [Text.quoted name]
  | .expression e => args "Expression" [e.inspect]
  | .delegate d => args "Delegate" [d.inspect]

/-- The directive as a constructor with the name that it gives. -/
def Directive.inspect : Directive σ → String
  | .ignoreSource name => args "IgnoreSource" [Text.quoted name]
  | .ignoreTarget name => args "IgnoreTarget" [Text.quoted name]
  | .bind name b => args "Bind" [Text.quoted name, b.inspect]
  | .reset name => args "Reset" [Text.quoted name]

/-- The mode as a constructor. -/
def MappingMode.inspect : MappingMode → String
  | strict => "Strict"
  | allSourceMembers => "AllSourceMembers"
  | allTargetMembers => "AllTargetMembers"
  | relaxed => "Relaxed"

/-- The comparer as a constructor. -/
def NameComparer.inspect : NameComparer → String
  | ordinal => "Ordinal"
  | ignoreCase => "IgnoreCase"
  | normalized => "Normalized"

/-- The behaviour as a constructor. -/
def NullableBehavior.inspect : NullableBehavior → String
  | defaultMapsToNull => "DefaultMapsToNull"
  | assignDefaultAsIs => "AssignDefaultAsIs"
  | error => "Error"

/-- The three options. -/
def MappingOptions.inspect (o : MappingOptions) : String :=
  fields "MappingOptions"
    [("mode", o.mode.inspect), ("name_comparer", o.nameComparer.inspect),
      ("nullable_behavior", o.nullableBehavior.inspect)]
    false

/-- The members of both sides, the directives in order and the options. -/
def Configuration.inspect (c : Configuration σ τ) : String :=
  fields "MappingConfiguration"
    [("source_members", inspectMembers c.sourceMembers),
      ("target_members", inspectMembers c.targetMembers),
      ("directives", list (c.directives.map Directive.inspect)),
      ("options", c.options.inspect)]
    false

/-- The mapping with its plan. The source side is shown as diagnostics show it. -/
def Mapping.inspect (m : Mapping σ τ) : String :=
  fields "MemberMapping"
    [("source", Text.quoted m.source.display), ("target", m.target.inspect),
      ("coercion", m.plan.inspect)]
    false

/-- A list of mappings. -/
def inspectMappings (ms : List (Mapping σ τ)) : String := list (ms.map Mapping.inspect)

/-- A compiled mapping as a mapper holds it. -/
def Compiled.inspect (u : Usage) (c : Compiled σ τ) : String :=
  fields "Mapper"
    [("compiled", fields "CompiledMapping"
      [("mappings", inspectMappings c.mappings), ("compiled", Inspect.bool (c.isBuilt u))] false)]
    false

end

/-- The cache by the number of compiled mappings it holds. -/
def Cache.inspect {C : Catalog} (cache : Cache C) : String :=
  fields "MappingCache" [("compiled", toString cache.size)] true

end Crosswalk
