import Crosswalk.Text.Blank
import Crosswalk.Text.LowerCase

/-!
# Mapping options

Which members may stay without a counterpart, how names are compared, and what becomes of
default values in nullable members. The initial options are strict, compare names exactly
and turn defaults into absent values.
-/

namespace Crosswalk

/-- Which members must have a counterpart. -/
inductive MappingMode where
  /-- Source members and target members. -/
  | strict
  | allSourceMembers
  | allTargetMembers
  /-- None. -/
  | relaxed
  deriving DecidableEq, Repr

namespace MappingMode

/-- Every target member must be mapped. -/
def requiresAllTargets : MappingMode → Bool
  | strict | allTargetMembers => true
  | allSourceMembers | relaxed => false

/-- Every source member must be read. -/
def requiresAllSources : MappingMode → Bool
  | strict | allSourceMembers => true
  | allTargetMembers | relaxed => false

/-- The mode in words. -/
def label : MappingMode → String
  | strict => "strict"
  | allSourceMembers => "all source members"
  | allTargetMembers => "all target members"
  | relaxed => "relaxed"

/-- The name in configuration files. -/
def name : MappingMode → String
  | strict => "strict"
  | allSourceMembers => "all_source_members"
  | allTargetMembers => "all_target_members"
  | relaxed => "relaxed"

/-- Every mode. -/
def all : List MappingMode := [strict, allSourceMembers, allTargetMembers, relaxed]

/-- The mode of a name. -/
def ofName? (s : String) : Option MappingMode := all.find? fun m => m.name == s

end MappingMode

/-- How a value that cannot be absent enters a nullable member. -/
inductive NullableBehavior where
  /-- The default of the source type becomes absent. -/
  | defaultMapsToNull
  /-- The default stays present. -/
  | assignDefaultAsIs
  /-- The two members may not be paired. -/
  | error
  deriving DecidableEq, Repr

namespace NullableBehavior

/-- The name in configuration files. -/
def name : NullableBehavior → String
  | defaultMapsToNull => "default_maps_to_null"
  | assignDefaultAsIs => "assign_default_as_is"
  | error => "error"

/-- Every behaviour. -/
def all : List NullableBehavior := [defaultMapsToNull, assignDefaultAsIs, error]

/-- The behaviour of a name. -/
def ofName? (s : String) : Option NullableBehavior := all.find? fun b => b.name == s

end NullableBehavior

/-- Which names count as the same. -/
inductive NameComparer where
  /-- Equal names. -/
  | ordinal
  /-- Names with equal lower case. -/
  | ignoreCase
  /-- Names with equal lower case once separators and blanks are left out. -/
  | normalized
  deriving DecidableEq, Repr

namespace NameComparer

/-- The name in configuration files. -/
def name : NameComparer → String
  | ordinal => "ordinal"
  | ignoreCase => "ignore_case"
  | normalized => "normalized"

/-- Every comparer. -/
def all : List NameComparer := [ordinal, ignoreCase, normalized]

/-- The comparer of a name. -/
def ofName? (s : String) : Option NameComparer := all.find? fun c => c.name == s

/-- The character separates the words of a name. -/
def isSeparator (c : Char) : Bool :=
  c == '_' || c == '-' || c == '.' || c == '/' || c == '\\'

/-- The key of a name: two names are the same when their keys are equal. -/
def normalize (comparer : NameComparer) (name : String) : String :=
  match comparer with
  | ordinal => name
  | ignoreCase => String.ofList (Text.lower name.toList)
  | normalized =>
    String.ofList ((Text.lower (Text.trim name.toList)).filter
      fun c => !isSeparator c && !Text.isBlank c)

/-- The names count as the same. -/
def sameName (comparer : NameComparer) (a b : String) : Bool :=
  comparer.normalize a == comparer.normalize b

end NameComparer

/-- The policies of a configuration. -/
structure MappingOptions where
  mode : MappingMode
  nameComparer : NameComparer
  nullableBehavior : NullableBehavior
  deriving DecidableEq, Repr

/-- The options a configuration starts with. -/
def MappingOptions.initial : MappingOptions := ⟨.strict, .ordinal, .defaultMapsToNull⟩

end Crosswalk
