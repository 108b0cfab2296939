import Crosswalk.Proofs.Binding
import Crosswalk.Proofs.Requests
import Crosswalk.Record

/-!
# The members that an expression reads

What an expression reads is known twice: by name before it is bound (`Expr.reads`), and as members
afterwards (`SourceExpr.members`). Both are passes over the same leaves of the tree, from left to
right. The first keeps each name where it is first met (`Expr.reads_eq_eraseDups`), the second
keeps them all (`Expr.Binds.members_eq`). So the members of the bound expression are those that
the names read lead to (`Expr.Binds.mem_members_iff`), and a resolved override reads the members
that its binding names (`Configuration.mem_reads_of_resolveBinding`).
-/

namespace Crosswalk

variable {σ τ : Type} {lookup : String → Except MappingError (Member σ)} {sourceType : String}

namespace Expr

mutual

/-- The names at the leaves of an expression, from left to right. -/
def leaves : Expr → List String
  | member name => [name]
  | const _ _ => []
  | call _ args => leavesAll args

/-- The names at the leaves of expressions, from left to right. -/
def leavesAll : List Expr → List String
  | [] => []
  | e :: es => e.leaves ++ leavesAll es

end

/-! ## Before binding -/

mutual

/-- An expression adds its leaves to the names met before it. -/
theorem collectReads_eraseDups : ∀ (e : Expr) (names : List String),
    e.collectReads names.eraseDups = (names ++ e.leaves).eraseDups
  | member name, names => by
    have hmet : names.eraseDups.any (· == name) = names.eraseDups.contains name := by
      rw [List.contains_eq_any_beq]
      exact List.any_congr rfl fun a => BEq.comm
    rw [collectReads, leaves, eraseDups_concat, hmet]
  | const _ _, names => by rw [collectReads, leaves, List.append_nil]
  | call _ args, names => collectReadsAll_eraseDups args names

theorem collectReadsAll_eraseDups : ∀ (es : List Expr) (names : List String),
    collectReadsAll es names.eraseDups = (names ++ leavesAll es).eraseDups
  | [], names => by rw [collectReadsAll, leavesAll, List.append_nil]
  | e :: es, names => by
    rw [collectReadsAll, collectReads_eraseDups e, collectReadsAll_eraseDups es, leavesAll,
      List.append_assoc]

end

/-- The reads of an expression are the names in it, each at its first place. -/
theorem reads_eq_eraseDups (e : Expr) : e.reads = e.leaves.eraseDups :=
  collectReads_eraseDups e []

/-- What is read is what is named. -/
theorem mem_reads_iff {e : Expr} {name : String} : name ∈ e.reads ↔ name ∈ e.leaves := by
  rw [reads_eq_eraseDups, List.mem_eraseDups]

/-! ## After binding -/

mutual

/-- The members of a bound expression are those of the leaves, one for each. -/
theorem Binds.members_eq {e : Expr} {bound : SourceExpr σ} (h : Binds lookup e bound) :
    bound.members.map .ok = e.leaves.map lookup := by
  cases h with
  | member h => rw [SourceExpr.members, leaves, List.map_singleton, List.map_singleton, h]
  | const v t => rfl
  | call h => exact BindsArgs.members_eq h

/-- The members of bound arguments are those that their names lead to, one by one. -/
theorem BindsArgs.members_eq {es : List Expr} {ts : List ValueType} {bound : SourceArgs σ}
    (h : BindsArgs lookup es ts bound) : bound.members.map .ok = (leavesAll es).map lookup := by
  cases h with
  | nil => rfl
  | cons h _ hrest =>
    rw [SourceArgs.members, leavesAll, List.map_append, List.map_append, Binds.members_eq h,
      BindsArgs.members_eq hrest]

end

/-- The members of a bound expression are those that the names read lead to. -/
theorem Binds.mem_members_iff {e : Expr} {bound : SourceExpr σ} (h : Binds lookup e bound)
    {m : Member σ} : m ∈ bound.members ↔ ∃ name ∈ e.reads, lookup name = .ok m := by
  have hmem : m ∈ bound.members ↔ .ok m ∈ bound.members.map (.ok : _ → Except MappingError _) := by
    simp
  rw [hmem, h.members_eq, List.mem_map]
  simp only [mem_reads_iff]

/-- What the bound expression reads is what the expression names. -/
structure ReadsNamed (lookup : String → Except MappingError (Member σ)) (e : Expr)
    (bound : SourceExpr σ) : Prop where
  /-- The members read are those of the leaves in order, with repeats. -/
  members : bound.members.map .ok = e.leaves.map lookup
  /-- The names read are those of the leaves, each where it is first met. -/
  reads : e.reads = e.leaves.eraseDups
  image : ∀ m, m ∈ bound.members ↔ ∃ name ∈ e.reads, lookup name = .ok m

/-- Binding keeps what is read, for any lookup under which it succeeds. -/
theorem readsNamed_of_bind {e : Expr} {bound : SourceExpr σ}
    (h : e.bind sourceType lookup = .ok bound) : ReadsNamed lookup e bound where
  members := (binds_of_bind h).members_eq
  reads := reads_eq_eraseDups e
  image _ := (binds_of_bind h).mem_members_iff

/-- The price of one piece more than the count says. -/
def priceOfOneMore : Expr :=
  let times : Function :=
    .binary 1 "times" (.int .i64) (.int .i64) (.int .i64) fun x y => IntKind.i64.wrap (x.1 * y.1)
  let plus : Function :=
    .binary 2 "plus" (.int .i64) (.int .i64) (.int .i64) fun x y => IntKind.i64.wrap (x.1 + y.1)
  .call plus [.member "Price", .call times [.member "Price", .member "Count"]]

/-- The member of an order that has the name. -/
def orderMember (name : String) : Except MappingError (Member Record) :=
  let order : RecordSchema := ⟨"Order", [⟨"Count", .int .i32⟩, ⟨"Price", .int .i64⟩]⟩
  match order.members.find? fun m => m.name == name with
  | some m => .ok m
  | none => .error (.memberNotFound "Order" name)

theorem readsNamed_of_bind_priceOfOneMore : ∃ bound,
    priceOfOneMore.bind "Order" orderMember = .ok bound ∧
    bound.members.map Member.name = ["Price", "Price", "Count"] ∧
    priceOfOneMore.reads = ["Price", "Count"] ∧ ReadsNamed orderMember priceOfOneMore bound := by
  have hbind : ∃ bound, priceOfOneMore.bind "Order" orderMember = .ok bound ∧
      bound.members.map Member.name = ["Price", "Price", "Count"] := ⟨_, rfl, rfl⟩
  obtain ⟨bound, hbound, hnames⟩ := hbind
  exact ⟨bound, hbound, hnames, by decide, readsNamed_of_bind hbound⟩

end Expr

namespace Configuration

variable {c : Configuration σ τ}

/-- A resolved override reads the members that its binding names. -/
theorem mem_reads_of_resolveBinding {b : Binding σ} {source : Computation σ}
    (h : c.resolveBinding b = .ok source) {m : Member σ} :
    m ∈ source.reads ↔ ∃ name ∈ b.reads, c.findSource name = .ok m := by
  cases b with
  | member name =>
    obtain ⟨m', hm', rfl⟩ := Except.map_eq_ok_iff.mp h
    rw [Computation.reads, Binding.reads]
    simp [hm', eq_comm]
  | expression e =>
    obtain ⟨bound, hbound, rfl⟩ := Except.map_eq_ok_iff.mp h
    exact (Expr.binds_of_bind hbound).mem_members_iff
  | delegate d =>
    cases h
    simp [Computation.reads, Binding.reads]

end Configuration

end Crosswalk
