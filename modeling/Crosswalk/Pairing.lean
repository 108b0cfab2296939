import Crosswalk.Configuration

/-!
# Pairing

From a configuration to its list of mappings. The directives are replayed in order, which
leaves some members ignored and some target members overridden (`Replay`). The members
that take part are indexed by normalized name; two different members of one name are an
error. Then the target members are walked in order: an overridden one gets its own
computation, another the source member of its name, which nothing else is paired with
afterwards. The mode decides which members without a counterpart are errors.
-/

namespace Crosswalk

variable {σ τ : Type}

/-! ## Members of a name -/

/-- The owner of the members in diagnostics. -/
def ownerLabel (typeName : String) (members : List (Member σ)) : String :=
  Text.shortTypeName (match members with
    | [] => typeName
    | m :: _ => m.owner)

/-- A member with its position. -/
abbrev Positioned (σ : Type) : Type := Nat × Member σ

/-- The members with their positions. -/
def positioned (members : List (Member σ)) : List (Positioned σ) :=
  members.zipIdx.map fun p => (p.2, p.1)

/-- The members of exactly the name where there are any, and otherwise those of the same
name under the comparer. -/
def named (comparer : NameComparer) (members : List (Member σ)) (name : String) :
    List (Positioned σ) :=
  let exact := (positioned members).filter fun p => p.2.name == name
  if exact.isEmpty then
    let key := comparer.normalize name
    (positioned members).filter fun p => comparer.normalize p.2.name == key
  else exact

/-- The positions of the members of the name. -/
def positionsOf (comparer : NameComparer) (members : List (Member σ)) (name : String) :
    List Nat :=
  (named comparer members name).map Prod.fst

/-- The one member of the name; several listings of it count as one. -/
def findMember (typeName : String) (comparer : NameComparer) (members : List (Member σ))
    (name : String) : Except MappingError (Positioned σ) :=
  match named comparer members name with
  | [] => .error (.memberNotFound (ownerLabel typeName members) name)
  | p :: ps =>
    match ps.find? fun q => !(q.2 == p.2) with
    | some q => .error (.ambiguousMember (ownerLabel typeName members) p.2.name q.2.name
        (comparer.normalize name))
    | none => .ok p

/-! ## Replaying the directives -/

/-- What the directives leave: the ignored positions of either side, and the overrides by the
position of the target member. -/
structure Replay (σ : Type) where
  ignoresSource : Nat → Bool
  ignoresTarget : Nat → Bool
  override? : Nat → Option (Binding σ)

namespace Replay

/-- The state before any directive. -/
def start : Replay σ := ⟨fun _ => false, fun _ => false, fun _ => none⟩

/-- The positions are among the ignored ones of the source. -/
def ignoreSources (r : Replay σ) (ps : List Nat) : Replay σ :=
  { r with ignoresSource := fun i => ps.contains i || r.ignoresSource i }

/-- The positions are not among the ignored ones of the source. -/
def admitSources (r : Replay σ) (ps : List Nat) : Replay σ :=
  { r with ignoresSource := fun i => !ps.contains i && r.ignoresSource i }

/-- The positions are among the ignored ones of the target. -/
def ignoreTargets (r : Replay σ) (ps : List Nat) : Replay σ :=
  { r with ignoresTarget := fun i => ps.contains i || r.ignoresTarget i }

/-- The positions are not among the ignored ones of the target. -/
def admitTargets (r : Replay σ) (ps : List Nat) : Replay σ :=
  { r with ignoresTarget := fun i => !ps.contains i && r.ignoresTarget i }

/-- The positions have no override. -/
def dropOverrides (r : Replay σ) (ps : List Nat) : Replay σ :=
  { r with override? := fun i => if ps.contains i then none else r.override? i }

/-- The position has the override. -/
def override (r : Replay σ) (p : Nat) (b : Binding σ) : Replay σ :=
  { r with override? := fun i => if i == p then some b else r.override? i }

end Replay

/-- The positions of the source members of a name. -/
def Configuration.sourcePositions (c : Configuration σ τ) (name : String) : List Nat :=
  positionsOf c.options.nameComparer c.sourceMembers name

/-- The positions of the target members of a name. -/
def Configuration.targetPositions (c : Configuration σ τ) (name : String) : List Nat :=
  positionsOf c.options.nameComparer c.targetMembers name

/-- One directive. -/
def Replay.step (c : Configuration σ τ) (r : Replay σ) :
    Directive σ → Except MappingError (Replay σ)
  | .ignoreSource name => .ok (r.ignoreSources (c.sourcePositions name))
  | .ignoreTarget name =>
    .ok ((r.dropOverrides (c.targetPositions name)).ignoreTargets (c.targetPositions name))
  | .bind name b =>
    (findMember c.targetType c.options.nameComparer c.targetMembers name).map fun p =>
      (r.admitTargets [p.1]).override p.1 b
  | .reset name =>
    .ok (((r.admitSources (c.sourcePositions name)).admitTargets
      (c.targetPositions name)).dropOverrides (c.targetPositions name))

/-- The directives from `r` on, or the first that names no target member. -/
def Replay.run (c : Configuration σ τ) (r : Replay σ) :
    List (Directive σ) → Except MappingError (Replay σ)
  | [] => .ok r
  | d :: ds => (r.step c d).bind fun r' => Replay.run c r' ds

/-- All directives of the configuration. -/
def Configuration.replay (c : Configuration σ τ) : Except MappingError (Replay σ) :=
  Replay.run c .start c.directives

/-! ## Indexing members by name -/

/-- A member under its normalized name. -/
structure IndexEntry (σ : Type) where
  key : String
  position : Nat
  member : Member σ

/-- The entry of a key. -/
def lookup (key : String) (index : List (IndexEntry σ)) : Option (IndexEntry σ) :=
  index.find? fun e => e.key == key

/-- The members under their normalized names, in order, after those of `index`. A repeated
listing of a member is left out. -/
def indexFrom (comparer : NameComparer) (owner : String) (index : List (IndexEntry σ)) :
    List (Positioned σ) → Except MappingError (List (IndexEntry σ))
  | [] => .ok index
  | (i, m) :: ps =>
    match lookup (comparer.normalize m.name) index with
    | none => indexFrom comparer owner (index ++ [⟨comparer.normalize m.name, i, m⟩]) ps
    | some e =>
      if e.member == m then indexFrom comparer owner index ps
      else .error (.ambiguousMember owner e.member.name m.name e.key)

/-- The eligible source members by name. -/
def Configuration.indexSources (c : Configuration σ τ) (r : Replay σ) :
    Except MappingError (List (IndexEntry σ)) :=
  indexFrom c.options.nameComparer (ownerLabel c.sourceType c.sourceMembers) []
    ((positioned c.sourceMembers).filter fun p => p.2.canRead && !r.ignoresSource p.1)

/-- The eligible target members by name. -/
def Configuration.indexTargets (c : Configuration σ τ) (r : Replay σ) :
    Except MappingError (List (IndexEntry τ)) :=
  indexFrom c.options.nameComparer (ownerLabel c.targetType c.targetMembers) []
    ((positioned c.targetMembers).filter fun p =>
      p.2.canWrite && !r.ignoresTarget p.1)

/-! ## Walking the target members -/

/-- The one source member of the name. -/
def Configuration.findSource (c : Configuration σ τ) (name : String) :
    Except MappingError (Member σ) :=
  (findMember c.sourceType c.options.nameComparer c.sourceMembers name).map Prod.snd

/-- The binding with its members looked up, ignored ones among them. -/
def Configuration.resolveBinding (c : Configuration σ τ) :
    Binding σ → Except MappingError (Computation σ)
  | .member name => (c.findSource name).map .member
  | .expression e => (e.bind c.sourceType c.findSource).map .expression
  | .delegate d => .ok (.delegate d)

/-- The mapping of a computation under the options. -/
def Configuration.makeMapping (c : Configuration σ τ) (source : Computation σ)
    (target : Member τ) : Except MappingError (Mapping σ τ) :=
  Mapping.make c.sourceType source target c.options.nullableBehavior

/-- What the walk over the target members leaves. -/
structure Walk (σ τ : Type) where
  mappings : List (Mapping σ τ)
  /-- The source members that were not paired. -/
  remaining : List (IndexEntry σ)
  /-- The normalized names of the members that overrides read. -/
  readNames : List String

/-- The result with one more mapping in front. -/
def Walk.cons (m : Mapping σ τ) (reads : List String) (w : Walk σ τ) : Walk σ τ :=
  ⟨m :: w.mappings, w.remaining, reads ++ w.readNames⟩

/-- Walks the target members, given the source members left to pair. -/
def Configuration.walk (c : Configuration σ τ) (r : Replay σ) (targets : List (IndexEntry τ)) :
    List (IndexEntry σ) → List (Positioned τ) → Except MappingError (Walk σ τ)
  | sources, [] => .ok ⟨[], sources, []⟩
  | sources, (i, t) :: rest =>
    match r.override? i with
    | some b =>
      (c.resolveBinding b).bind fun source =>
      (c.makeMapping source t).bind fun m =>
      (c.walk r targets sources rest).map
        (Walk.cons m (source.reads.map fun s => c.options.nameComparer.normalize s.name))
    | none =>
      let key := c.options.nameComparer.normalize t.name
      match lookup key targets with
      | none => c.walk r targets sources rest
      | some e =>
        if e.position ≠ i then c.walk r targets sources rest
        else match lookup key sources with
          | some s =>
            (c.makeMapping (.member s.member) t).bind fun m =>
            (c.walk r targets (sources.filter fun s => s.key != key) rest).map (Walk.cons m [])
          | none =>
            if c.options.mode.requiresAllTargets then
              .error (.unmappedTarget (ownerLabel c.targetType c.targetMembers) t.name)
            else c.walk r targets sources rest

/-- The mappings of the walk, unless the mode needs a source member that is left. -/
def Configuration.checkSources (c : Configuration σ τ) (w : Walk σ τ) :
    Except MappingError (List (Mapping σ τ)) :=
  if c.options.mode.requiresAllSources then
    match w.remaining.find? fun e => !w.readNames.contains e.key with
    | some e => .error (.unmappedSource (ownerLabel c.sourceType c.sourceMembers) e.member.name)
    | none => .ok w.mappings
  else .ok w.mappings

/-- The mappings of the configuration, in the order of the target members, or the first
fault. -/
def Configuration.validate (c : Configuration σ τ) : Except MappingError (List (Mapping σ τ)) :=
  c.replay.bind fun r =>
  (c.indexSources r).bind fun sources =>
  (c.indexTargets r).bind fun targets =>
  (c.walk r targets sources (positioned c.targetMembers)).bind c.checkSources

end Crosswalk
