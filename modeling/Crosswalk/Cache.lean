import Crosswalk.Pairing
import Crosswalk.Transform

/-!
# Compiled mappings and their cache

A compiled mapping is a list of mappings with a ticket, by which it is known wherever it is
handed out. A cache issues a new ticket for a list only when it holds none that is the same
for the same pair of owner types, so that configurations with the same mappings share one
compiled mapping. It also remembers the default compiled mapping of a pair; a pair whose
default configuration fails is not remembered. A transformation is built when a compiled
mapping is first run, which `Usage` records.
-/

namespace Crosswalk

/-! ## Owner types -/

/-- The owner types that a cache knows, with the registered members of each. -/
structure Catalog where
  Key : Type
  keyEq : DecidableEq Key
  Owner : Key → Type
  /-- The full name of the owner type. -/
  typeName : Key → String
  members : (k : Key) → List (Member (Owner k))

instance (C : Catalog) : DecidableEq C.Key := C.keyEq

/-! ## Compiled mappings -/

/-- Which compiled mapping: the cache that issued it, and its number there. -/
structure Ticket where
  cache : Nat
  serial : Nat
  deriving DecidableEq, Repr

/-- A list of mappings known by a ticket. -/
structure Compiled (σ τ : Type) where
  ticket : Ticket
  mappings : List (Mapping σ τ)

/-- The tickets of the compiled mappings that have been run. -/
structure Usage where
  started : List Ticket

/-- Nothing has been run. -/
def Usage.none : Usage := ⟨[]⟩

namespace Compiled

variable {σ τ : Type}

/-- The transformation has been built. -/
def isBuilt (u : Usage) (c : Compiled σ τ) : Bool := u.started.contains c.ticket

/-- The usage after a run. -/
def build (u : Usage) (c : Compiled σ τ) : Usage :=
  if c.isBuilt u then u else ⟨c.ticket :: u.started⟩

/-- Carries out the mappings, whose transformation is built from then on. -/
def run (u : Usage) (c : Compiled σ τ) (s : σ) (t : τ) : (Except MappingError Unit × τ) × Usage :=
  (transform c.mappings s t, c.build u)

/-- The target that the mappings make of a new one. -/
def runNew (u : Usage) (c : Compiled σ τ) (s : σ) (new : τ) : Except MappingError τ × Usage :=
  match c.run u s new with
  | ((.ok (), t), u') => (.ok t, u')
  | ((.error e, _), u') => (.error e, u')

/-- Carries out the mappings when both owners are there; the source is looked at first. -/
def runOptional (u : Usage) (c : Compiled σ τ) :
    Option σ → Option τ → (Except MappingError Unit × Option τ) × Usage
  | .none, t => ((.error (.argumentNull "source"), t), u)
  | some _, .none => ((.error (.argumentNull "target"), .none), u)
  | some s, some t =>
    let ((r, t'), u') := c.run u s t
    ((r, some t'), u')

/-- The compiled mappings are one. -/
def shares (a b : Compiled σ τ) : Bool := a.ticket == b.ticket

end Compiled

/-! ## The cache -/

/-- A compiled mapping of a pair of owner types. -/
structure CacheEntry (C : Catalog) where
  source : C.Key
  target : C.Key
  compiled : Compiled (C.Owner source) (C.Owner target)

/-- The compiled mapping, where the entry is of the pair. -/
def CacheEntry.at? {C : Catalog} (e : CacheEntry C) (s t : C.Key) :
    Option (Compiled (C.Owner s) (C.Owner t)) :=
  if h : e.source = s ∧ e.target = t then some (h.1 ▸ h.2 ▸ e.compiled) else none

/-- Compiled mappings by pair and list, and default ones by pair. -/
structure Cache (C : Catalog) where
  /-- What tells caches apart. -/
  identity : Nat
  /-- The number of tickets issued. -/
  issued : Nat
  compiled : List (CacheEntry C)
  defaults : List (CacheEntry C)

namespace Cache

variable {C : Catalog}

/-- The cache that has issued nothing. -/
def empty (C : Catalog) (identity : Nat) : Cache C := ⟨identity, 0, [], []⟩

/-- The compiled mapping held for the pair and the list. -/
def find? (cache : Cache C) (s t : C.Key) (ms : List (Mapping (C.Owner s) (C.Owner t))) :
    Option (Compiled (C.Owner s) (C.Owner t)) :=
  cache.compiled.findSome? fun e => (e.at? s t).filter fun c => c.mappings == ms

/-- The compiled mapping of the list, a new one where the cache holds none. -/
def compile (cache : Cache C) (s t : C.Key) (ms : List (Mapping (C.Owner s) (C.Owner t))) :
    Compiled (C.Owner s) (C.Owner t) × Cache C :=
  match cache.find? s t ms with
  | some c => (c, cache)
  | none =>
    let c : Compiled (C.Owner s) (C.Owner t) := ⟨⟨cache.identity, cache.issued⟩, ms⟩
    (c, { cache with
      issued := cache.issued + 1
      compiled := cache.compiled ++ [⟨s, t, c⟩] })

/-- The compiled mapping of a configuration; one that fails leaves the cache as it is. -/
def build (cache : Cache C) (s t : C.Key) (c : Configuration (C.Owner s) (C.Owner t)) :
    Except MappingError (Compiled (C.Owner s) (C.Owner t)) × Cache C :=
  match c.validate with
  | .error e => (.error e, cache)
  | .ok ms =>
    let (m, cache') := cache.compile s t ms
    (.ok m, cache')

/-- The default configuration of a pair: the registered members, without directives. -/
def defaultConfiguration (C : Catalog) (s t : C.Key) :
    Configuration (C.Owner s) (C.Owner t) :=
  .new (C.typeName s) (C.typeName t) (C.members s) (C.members t)

/-- The default compiled mapping remembered for the pair. -/
def default? (cache : Cache C) (s t : C.Key) : Option (Compiled (C.Owner s) (C.Owner t)) :=
  cache.defaults.findSome? fun e => e.at? s t

/-- The default compiled mapping of the pair, remembered from its first success on. -/
def defaultMapping (cache : Cache C) (s t : C.Key) :
    Except MappingError (Compiled (C.Owner s) (C.Owner t)) × Cache C :=
  match cache.default? s t with
  | some c => (.ok c, cache)
  | none =>
    match cache.build s t (defaultConfiguration C s t) with
    | (.error e, cache') => (.error e, cache')
    | (.ok c, cache') => (.ok c, { cache' with defaults := cache'.defaults ++ [⟨s, t, c⟩] })

/-- A default compiled mapping is remembered for the pair. -/
def containsDefault (cache : Cache C) (s t : C.Key) : Bool := (cache.default? s t).isSome

/-- The number of compiled mappings held. -/
def size (cache : Cache C) : Nat := cache.compiled.length

/-- No compiled mapping is held. -/
def isEmpty (cache : Cache C) : Bool := cache.size == 0

/-- Forgets everything but the tickets issued. -/
def clear (cache : Cache C) : Cache C := { cache with compiled := [], defaults := [] }

end Cache

end Crosswalk
