import Crosswalk.Proofs.Evaluation
import Crosswalk.Proofs.PairingSoundness
import Crosswalk.Proofs.Phases

/-!
# Transformations happen fully or not at all

Between members of schemas and structures, a mapping of a validated configuration gives a
value for its target or fails on data (`Configuration.Walked.sound`). A value of the type of
the target can always be written, so the writing phase never fails: a transformation either
succeeds, or leaves the target as it was and blames data that some mapping read
(`Configuration.transform_of_validate`).
-/

namespace Crosswalk

variable {σ τ : Type}

/-- The binding names a member, is built from typed functions, or computes typed elements. -/
inductive Binding.Typed : Binding σ → Prop
  | member (name : String) : Typed (.member name)
  | expression {e} (h : e.Built) : Typed (.expression e)
  | delegate (identity : Nat) (c : Carrier) (compute : σ → c.Elem) :
      Typed (.delegate (.typed identity c compute))

/-- On every source, the mapping gives a value of the type of its target, or fails on data
that it reads. -/
def Mapping.Sound (m : Mapping σ τ) : Prop :=
  ∀ s, GivesType m.source.reads s m.target.type (m.produce s)

/-! ## The two phases -/

/-- What a provider makes takes every value of its type. -/
theorem Member.Provided.accepting {m : Member σ} (h : m.Provided) : m.Accepting :=
  fun _ hv s => h.write hv s

section

variable {ms : List (Mapping σ τ)}

/-- Sound mappings read values for their targets, or one of them fails on data. -/
theorem gives_readAll (s : σ) : ∀ {ms : List (Mapping σ τ)}, (∀ m ∈ ms, m.Sound) →
    Except.Gives (FitTargets ms)
      (fun e => ∃ m ∈ ms, ∃ cause, e = m.failure cause ∧ m.produce s = .error cause ∧
        DataFault m.source.reads s cause)
      (readAll s ms)
  | [], _ => List.Forall₂.nil
  | m :: ms, h => by
    obtain ⟨hm, hms⟩ := List.forall_mem_cons.mp h
    have hgives := hm s
    unfold readAll
    cases hx : m.produce s with
    | error cause =>
      rw [hx] at hgives
      exact ⟨m, List.mem_cons_self, cause, rfl, hx, hgives⟩
    | ok v =>
      rw [hx] at hgives
      refine Except.Gives.map ?_ fun vs hvs => List.Forall₂.cons hgives hvs
      refine (gives_readAll s hms).mono (fun _ hvs => hvs) ?_
      rintro _ ⟨m', hm', hcause⟩
      exact ⟨m', List.mem_cons_of_mem _ hm', hcause⟩

/-- Sound mappings to provided targets succeed, or one of them has no value and the target is
left as it was. -/
theorem transform_of_sound (hsound : ∀ m ∈ ms, m.Sound) (htargets : ∀ m ∈ ms, m.target.Provided)
    (s : σ) (t : τ) : (∃ t', transform ms s t = (.ok (), t')) ∨
      ∃ m ∈ ms, ∃ cause, transform ms s t = (.error (m.failure cause), t) ∧
        m.produce s = .error cause ∧ DataFault m.source.reads s cause := by
  have hread := gives_readAll s hsound
  unfold transform
  cases hx : readAll s ms with
  | ok vs =>
    rw [hx] at hread
    exact .inl (exists_writeAll hread (fun m hm => (htargets m hm).accepting) t)
  | error e =>
    rw [hx] at hread
    obtain ⟨m, hm, cause, rfl, hproduce, hcause⟩ := hread
    exact .inr ⟨m, hm, cause, rfl, hproduce, hcause⟩

end

namespace Configuration

variable {c : Configuration σ τ} {r : Replay σ}

/-! ## Sound mappings -/

/-- A typed override over provided members gives a value of its type, or fails on data. -/
theorem givesType_of_resolveBinding {b : Binding σ} {source : Computation σ} (hb : b.Typed)
    (h : c.resolveBinding b = .ok source) (hsources : ∀ m ∈ c.sourceMembers, m.Provided) (s : σ) :
    GivesType source.reads s source.valueType (source.eval s) := by
  have hread : ∀ m ∈ source.reads, GivesType source.reads s m.type (m.read s) := fun m hm =>
    (hsources m (mem_of_resolveBinding h hm)).givesType s hm
  cases hb with
  | member name =>
    obtain ⟨m, -, rfl⟩ := Except.map_eq_ok_iff.mp h
    exact hread m (List.mem_singleton.mpr rfl)
  | expression he =>
    obtain ⟨bound, hbound, rfl⟩ := Except.map_eq_ok_iff.mp h
    exact (Expr.binds_of_bind hbound).gives_eval he.wellTyped hread
  | delegate identity carrier compute =>
    cases h
    exact Carrier.conforms_toValue carrier (compute s)

/-- A placed mapping is sound: what it reads is of the declared type, and its plan leads from there
to the type of its target. -/
theorem Walked.sound {sources left : List (IndexEntry σ)} {targets : List (IndexEntry τ)}
    {placed : List (Placed σ τ)} (h : c.Walked r sources targets placed left)
    (hsources : ∀ m ∈ c.sourceMembers, m.Provided) (htargets : ∀ m ∈ c.targetMembers, m.Provided)
    (hbindings : ∀ name b, .bind name b ∈ c.directives → b.Typed) {p : Placed σ τ}
    (hp : p ∈ placed) : p.2.Sound := by
  intro s
  obtain ⟨-, -, -, -, hplan⟩ := makeMapping_eq_ok (h.pairs.made p hp)
  have htarget := htargets _ (List.mem_of_getElem? (h.target_eq hp))
  rw [Mapping.produce_eq_bind]
  refine GivesType.coerce ?_ (Coercion.leads_of_resolve hplan) htarget.hasVariants
  cases h.pairs.fills p hp with
  | override hi hb =>
    obtain ⟨name, hname⟩ := h.regular.given p.1 _ hi
    exact givesType_of_resolveBinding (hbindings name _ hname) hb hsources s
  | pair _ _ _ _ he _ hsource =>
    have hlisted := mem_eligibleSources.mp (h.sourceIndex.listed _ he)
    have hprovided := hsources _ (List.mem_of_getElem? hlisted.1)
    rw [hsource]
    exact hprovided.givesType s (List.mem_singleton.mpr rfl)

/-- Between provided members and with typed overrides, the transformation of a validated
configuration succeeds, or leaves the target as it was because the blamed mapping has no value
for it, which is due to data. -/
theorem transform_of_validate {ms : List (Mapping σ τ)} (h : c.validate = .ok ms)
    (hsources : ∀ m ∈ c.sourceMembers, m.Provided) (htargets : ∀ m ∈ c.targetMembers, m.Provided)
    (hbindings : ∀ name b, .bind name b ∈ c.directives → b.Typed) (s : σ) (t : τ) :
    (∃ t', transform ms s t = (.ok (), t')) ∨
      ∃ m ∈ ms, ∃ cause, transform ms s t = (.error (m.failure cause), t) ∧
        m.produce s = .error cause ∧ DataFault m.source.reads s cause ∧
        ∀ owner member op, cause ≠ .unsupported owner member op := by
  obtain ⟨r, sources, targets, placed, left, -, rfl, hwalked⟩ := exists_placed_of_validate h
  have hsound : ∀ m ∈ placed.map Prod.snd, m.Sound := List.forall_mem_map.mpr fun p hp =>
    hwalked.sound hsources htargets hbindings hp
  have hprovided : ∀ m ∈ placed.map Prod.snd, m.target.Provided :=
    List.forall_mem_map.mpr fun p hp =>
      htargets _ (List.mem_of_getElem? (hwalked.target_eq hp))
  refine (transform_of_sound hsound hprovided s t).imp_right ?_
  rintro ⟨m, hm, cause, hfail, hproduce, hcause⟩
  exact ⟨m, hm, cause, hfail, hproduce, hcause, hcause.ne_unsupported⟩

/-- Journal lines, as records. -/
def journal : RecordSchema := ⟨"Journal", [⟨"Id", .int .i32⟩, ⟨"Note", .string⟩]⟩

/-- Accounts, as structures. -/
def account : StructType :=
  .ofFields "Account"
    [("Id", ⟨"id", .int .u8, IntKind.zero .u8⟩), ("Label", ⟨"label", .string, ""⟩)]

/-- Journal lines into accounts: the numbers by name, the labels made of the notes. -/
def opening : Configuration Record account.Instance :=
  let label : Function := .unary 1 "label" .string .string (String.append "#")
  (new "Journal" "Account" journal.members account.members).mapExpr "Label"
    (.call label [.member "Note"])

/-- A line with a number and a note. -/
def rent : Record := .ofList [("Id", .int .i32 (IntKind.i32.wrap 7)), ("Note", .str "rent")]

/-- A line whose number no account can hold. -/
def overdue : Record := .ofList [("Id", .int .i32 (IntKind.i32.wrap 300)), ("Note", .str "late")]

/-- The one line opens an account. The other one fails on its number, and the account stays as the
first has left it. -/
theorem transform_of_validate_opening : ∃ ms opened e, opening.validate = .ok ms ∧
    (∀ m ∈ opening.sourceMembers, m.Provided) ∧ (∀ m ∈ opening.targetMembers, m.Provided) ∧
    (∀ name b, .bind name b ∈ opening.directives → b.Typed) ∧
    transform ms rent account.initial = (.ok (), opened) ∧
    account.members.map (fun m => m.read opened) =
      [.ok (.int .u8 (IntKind.u8.wrap 7)), .ok (.str "#rent")] ∧
    transform ms overdue opened = (.error e, opened) ∧
    ((∃ t', transform ms overdue opened = (.ok (), t')) ∨
      ∃ m ∈ ms, ∃ cause, transform ms overdue opened = (.error (m.failure cause), opened) ∧
        m.produce overdue = .error cause ∧ DataFault m.source.reads overdue cause ∧
        ∀ owner member op, cause ≠ .unsupported owner member op) := by
  have hsources : ∀ m ∈ opening.sourceMembers, m.Provided :=
    RecordSchema.provided (s := journal) (by decide)
  have htargets : ∀ m ∈ opening.targetMembers, m.Provided :=
    StructType.provided (S := account) (by decide)
  have hbindings : ∀ name b, .bind name b ∈ opening.directives → b.Typed := by
    intro name b hb
    cases List.mem_singleton.mp hb
    exact .expression (.unary trivial (.member "Note"))
  refine ⟨_, _, _, rfl, hsources, htargets, hbindings, rfl, rfl, rfl, ?_⟩
  exact transform_of_validate rfl hsources htargets hbindings overdue _

end Configuration

end Crosswalk
