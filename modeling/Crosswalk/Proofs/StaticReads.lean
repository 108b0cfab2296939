import Crosswalk.Pairing
import Crosswalk.Record
import Crosswalk.Transform

/-!
# What a transformation depends on

A computation that is no delegate lists the members it reads. Two sources on which these read
alike cannot be told apart by it: an expression has one value, or one failure, on both
(`SourceExpr.eval_eq_of_agreeOn`, along the tree). So mappings without delegates do the same
to a target from either source (`transform_eq_of_agreeOn`).
-/

namespace Crosswalk

variable {σ τ : Type} {s₁ s₂ : σ}

/-- The members read alike on the two sources: the same value, or the same failure. -/
def AgreeOn (ms : List (Member σ)) (s₁ s₂ : σ) : Prop := ∀ m ∈ ms, m.read s₁ = m.read s₂

theorem agreeOn_append {ms ns : List (Member σ)} :
    AgreeOn (ms ++ ns) s₁ s₂ ↔ AgreeOn ms s₁ s₂ ∧ AgreeOn ns s₁ s₂ :=
  List.forall_mem_append

/-! ## Expressions -/

mutual

/-- The value of an expression depends on its members alone. -/
theorem SourceExpr.eval_eq_of_agreeOn :
    ∀ e : SourceExpr σ, AgreeOn e.members s₁ s₂ → e.eval s₁ = e.eval s₂
  | .member m, h => h m (List.mem_singleton.mpr rfl)
  | .const _ _, _ => rfl
  | .call f args, h => by
    rw [SourceExpr.eval, SourceExpr.eval, args.eval_eq_of_agreeOn h]

theorem SourceArgs.eval_eq_of_agreeOn :
    ∀ args : SourceArgs σ, AgreeOn args.members s₁ s₂ → args.eval s₁ = args.eval s₂
  | .nil, _ => rfl
  | .cons arg plan rest, h => by
    obtain ⟨harg, hrest⟩ := agreeOn_append.mp h
    rw [SourceArgs.eval, SourceArgs.eval, arg.eval_eq_of_agreeOn harg,
      rest.eval_eq_of_agreeOn hrest]

end

/-! ## Mappings -/

/-- The computation is no delegate: `reads` lists all members that it may read. -/
def Computation.IsStatic : Computation σ → Prop
  | member _ => True
  | expression _ => True
  | delegate _ => False

theorem Computation.eval_eq_of_agreeOn {c : Computation σ} (hc : c.IsStatic)
    (h : AgreeOn c.reads s₁ s₂) : c.eval s₁ = c.eval s₂ := by
  cases c with
  | member m => exact h m (List.mem_singleton.mpr rfl)
  | expression e => exact e.eval_eq_of_agreeOn h
  | delegate d => exact hc.elim

/-- The members that the mappings list as read, in order. -/
def readsOf (ms : List (Mapping σ τ)) : List (Member σ) := ms.flatMap fun m => m.source.reads

/-- The reading phase gives the same values, or the same failure. -/
theorem readAll_eq_of_agreeOn {ms : List (Mapping σ τ)} (hstatic : ∀ m ∈ ms, m.source.IsStatic)
    (h : AgreeOn (readsOf ms) s₁ s₂) : readAll s₁ ms = readAll s₂ ms := by
  induction ms with
  | nil => rfl
  | cons m ms ih =>
    obtain ⟨hm, hms⟩ := List.forall_mem_cons.mp hstatic
    obtain ⟨hfirst, hrest⟩ := agreeOn_append.mp h
    have hvalue : m.produce s₁ = m.produce s₂ := by
      rw [Mapping.produce_eq_bind, Mapping.produce_eq_bind,
        Computation.eval_eq_of_agreeOn hm hfirst]
    rw [readAll, readAll, hvalue, ih hms hrest]

/-- From two sources on which the members read agree, mappings without delegates give one
result, and leave one target. -/
theorem transform_eq_of_agreeOn {ms : List (Mapping σ τ)}
    (hstatic : ∀ m ∈ ms, m.source.IsStatic) (h : AgreeOn (readsOf ms) s₁ s₂) (t : τ) :
    transform ms s₁ t = transform ms s₂ t := by
  rw [transform, transform, readAll_eq_of_agreeOn hstatic h]

/-- Letters to the labels on them: the town as it is, the postage from the weight. -/
def labels : Configuration Record Record :=
  let letter : RecordSchema :=
    ⟨"Letter", [⟨"Town", .string⟩, ⟨"Weight", .int .i32⟩, ⟨"Text", .string⟩]⟩
  let label : RecordSchema := ⟨"Label", [⟨"Town", .string⟩, ⟨"Postage", .int .i64⟩]⟩
  let postage : Function :=
    .unary 1 "postage" (.int .i64) (.int .i64) fun n => IntKind.i64.wrap (n.1 * 3)
  ((Configuration.new "Letter" "Label" letter.members label.members).withMode .relaxed).mapExpr
    "Postage" (.call postage [.member "Weight"])

/-- A letter to Ghent. -/
def letterSaying (text : String) : Record :=
  .ofList [("Text", .str text), ("Town", .str "Ghent"), ("Weight", .int .i32 (IntKind.i32.wrap 20))]

/-- What a letter says does not show on its label. -/
theorem transform_eq_of_agreeOn_labels : ∃ ms, labels.validate = .ok ms ∧ ms.length = 2 ∧
    (∀ m ∈ ms, m.source.IsStatic) ∧
    AgreeOn (readsOf ms) (letterSaying "Come.") (letterSaying "Stay.") ∧
    (letterSaying "Come.").get? "Text" ≠ (letterSaying "Stay.").get? "Text" ∧
    transform ms (letterSaying "Come.") .empty = transform ms (letterSaying "Stay.") .empty := by
  have hms : ∃ ms, labels.validate = .ok ms ∧ ms.length = 2 ∧ (∀ m ∈ ms, m.source.IsStatic) ∧
      AgreeOn (readsOf ms) (letterSaying "Come.") (letterSaying "Stay.") :=
    ⟨_, rfl, rfl, List.forall_mem_cons.mpr ⟨trivial, List.forall_mem_singleton.mpr trivial⟩,
      List.forall_mem_cons.mpr ⟨rfl, List.forall_mem_singleton.mpr rfl⟩⟩
  obtain ⟨ms, hvalidate, hlength, hstatic, hagree⟩ := hms
  exact ⟨ms, hvalidate, hlength, hstatic, hagree, by decide,
    transform_eq_of_agreeOn hstatic hagree .empty⟩

end Crosswalk
