import Crosswalk.Mapping

/-!
# Configurations

What the pairing of two owners starts from: the members of both, the directives in the
order they were given, and the options. A directive names members by raw names; which
members they are is decided when the configuration is validated.
-/

namespace Crosswalk

/-- One instruction about members of a name. -/
inductive Directive (σ : Type) where
  /-- Leave source members out of the pairing. -/
  | ignoreSource (name : String)
  /-- Leave target members out, and drop their overrides. -/
  | ignoreTarget (name : String)
  /-- Fill the target member by a computation of its own. -/
  | bind (name : String) (binding : Binding σ)
  /-- Treat the members of both sides as if nothing had been said. -/
  | reset (name : String)

/-- The setup of a mapping from `σ` to `τ`. -/
structure Configuration (σ τ : Type) where
  /-- The full name of the source type, for owners without members. -/
  sourceType : String
  targetType : String
  sourceMembers : List (Member σ)
  targetMembers : List (Member τ)
  directives : List (Directive σ)
  options : MappingOptions

namespace Configuration

variable {σ τ : Type}

/-- The setup without directives, with the initial options. -/
def new (sourceType targetType : String) (sources : List (Member σ)) (targets : List (Member τ)) :
    Configuration σ τ :=
  ⟨sourceType, targetType, sources, targets, [], .initial⟩

variable (c : Configuration σ τ)

/-- One more directive. -/
def add (d : Directive σ) : Configuration σ τ := { c with directives := c.directives ++ [d] }

/-- Leaves the source members of the name out. -/
def ignoreSource (name : String) : Configuration σ τ := c.add (.ignoreSource name)

/-- Leaves the target members of the name as they are. -/
def ignoreTarget (name : String) : Configuration σ τ := c.add (.ignoreTarget name)

/-- Ignores the members of the name on both sides. -/
def ignoreTargetCascading (name : String) : Configuration σ τ :=
  (c.ignoreSource name).ignoreTarget name

/-- Takes back what was said of the members of the name on either side. -/
def reset (name : String) : Configuration σ τ := c.add (.reset name)

/-- Fills the target member of the name from the binding. -/
def bind (target : String) (b : Binding σ) : Configuration σ τ := c.add (.bind target b)

/-- Fills a target member from a source member. -/
def mapMember (target source : String) : Configuration σ τ := c.bind target (.member source)

/-- Fills a target member by an expression. -/
def mapExpr (target : String) (e : Expr) : Configuration σ τ := c.bind target (.expression e)

/-- Fills a target member by a computation that nothing is known about. -/
def mapWith (target : String) (d : Delegate σ) : Configuration σ τ := c.bind target (.delegate d)

/-- Requires members to be mapped as the mode says. -/
def withMode (mode : MappingMode) : Configuration σ τ :=
  { c with options := { c.options with mode := mode } }

/-- Compares names in another way, those of earlier directives too. -/
def withNameComparer (comparer : NameComparer) : Configuration σ τ :=
  { c with options := { c.options with nameComparer := comparer } }

/-- Lets values enter nullable members in another way. -/
def withNullableBehavior (behavior : NullableBehavior) : Configuration σ τ :=
  { c with options := { c.options with nullableBehavior := behavior } }

/-- Replaces all options, whichever were set before. -/
def withOptions (options : MappingOptions) : Configuration σ τ := { c with options := options }

end Configuration

end Crosswalk
