import Crosswalk.Proofs.Evaluation

/-!
# Safe calls

Evaluation that keeps a record of the calls it makes (`SourceExpr.evalTraced`) has the result of
plain evaluation (`SourceExpr.result_evalTraced`). Over members that read as values of their
types, a well-typed expression calls its functions on conforming arguments only
(`Expr.Binds.conformAll_of_mem_calls`), so the functions never fail: what fails is the plan of
some argument (`Expr.Binds.rejects_of_eval`), and for want of a counterpart of the data alone
(`Expr.eval_safe`).
-/

namespace Crosswalk

variable {σ α β : Type}

/-! ## Recorded calls -/

/-- A function with the arguments that it is called on. -/
structure Invocation where
  function : Function
  args : List Value

/-- A result, with the calls made on the way to it. -/
structure Traced (α : Type) where
  result : Except AccessError α
  calls : List Invocation

namespace Traced

/-- A result without calls. -/
def silent (result : Except AccessError α) : Traced α := ⟨result, []⟩

/-- The call of a function. -/
def invoke (f : Function) (args : List Value) : Traced Value := ⟨f.body args, [⟨f, args⟩]⟩

/-- The result changed by a plan, which calls no function. -/
def coerce (plan : Coercion) (x : Traced Value) : Traced Value :=
  ⟨x.result.bind plan.apply, x.calls⟩

/-- The result changed by a function, with the same calls. -/
def map (f : α → β) (x : Traced α) : Traced β := ⟨x.result.map f, x.calls⟩

/-- One step, and where it succeeds another on its result. -/
def bind (x : Traced α) (f : α → Traced β) : Traced β :=
  match x.result with
  | .ok a => ⟨(f a).result, x.calls ++ (f a).calls⟩
  | .error e => ⟨.error e, x.calls⟩

variable {x : Traced α} {f : α → Traced β} {i : Invocation}

/-- Recording the calls does not change the result of two steps. -/
theorem result_bind : (x.bind f).result = x.result.bind fun a => (f a).result := by
  unfold bind
  split
  · next a h => rw [h, Except.bind]
  · next e h => rw [h, Except.bind]

/-- The calls are those of the first step, and those of the second where it is taken. -/
theorem mem_calls_bind :
    i ∈ (x.bind f).calls ↔ i ∈ x.calls ∨ ∃ a, x.result = .ok a ∧ i ∈ (f a).calls := by
  unfold bind
  split
  · next a h => simp [h]
  · next e h => simp [h]

end Traced

mutual

/-- The evaluation of the expression, with its calls in order. -/
def SourceExpr.evalTraced (s : σ) : SourceExpr σ → Traced Value
  | .member m => .silent (m.read s)
  | .const v _ => .silent (.ok v)
  | .call f args => (args.evalTraced s).bind fun vs => .invoke f vs

/-- The evaluation of the arguments, with its calls in order. -/
def SourceArgs.evalTraced (s : σ) : SourceArgs σ → Traced (List Value)
  | .nil => .silent (.ok [])
  | .cons arg plan rest =>
    ((arg.evalTraced s).coerce plan).bind fun v => (rest.evalTraced s).map fun vs => v :: vs

end

mutual

/-- Recording the calls does not change the value. -/
theorem SourceExpr.result_evalTraced (s : σ) :
    ∀ e : SourceExpr σ, (e.evalTraced s).result = e.eval s
  | .member _ | .const _ _ => rfl
  | .call f args => by
    rw [SourceExpr.evalTraced, Traced.result_bind, SourceArgs.result_evalTraced s args]
    rfl

theorem SourceArgs.result_evalTraced (s : σ) :
    ∀ args : SourceArgs σ, (args.evalTraced s).result = args.eval s
  | .nil => rfl
  | .cons arg plan rest => by
    rw [SourceArgs.evalTraced, Traced.result_bind]
    simp only [Traced.coerce, Traced.map, SourceExpr.result_evalTraced s arg,
      SourceArgs.result_evalTraced s rest]
    rfl

end

/-! ## Rejected arguments -/

mutual

/-- Evaluation of the expression meets the failure of a plan on the value of an argument. -/
inductive SourceExpr.Rejects (s : σ) : SourceExpr σ → AccessError → Prop
  | call {f args e} (h : SourceArgs.Rejects s args e) : SourceExpr.Rejects s (.call f args) e

/-- The failure is met in an argument or in its plan, or after both have succeeded. -/
inductive SourceArgs.Rejects (s : σ) : SourceArgs σ → AccessError → Prop
  | inside {arg plan rest e} (h : SourceExpr.Rejects s arg e) :
      SourceArgs.Rejects s (.cons arg plan rest) e
  | plan {arg plan rest v e} (hv : arg.eval s = .ok v) (h : plan.apply v = .error e) :
      SourceArgs.Rejects s (.cons arg plan rest) e
  | later {arg plan rest v w e} (hv : arg.eval s = .ok v) (hw : plan.apply v = .ok w)
      (h : SourceArgs.Rejects s rest e) : SourceArgs.Rejects s (.cons arg plan rest) e

end

/-- The data has no counterpart: a conversion fails, or no variant is found. -/
inductive AccessError.Unmatched : AccessError → Prop
  | conversion (v : String) (t : ValueType) : Unmatched (.conversion v t)
  | unknownVariant (enumName v : String) : Unmatched (.unknownVariant enumName v)

/-- Without members to blame, data that fails has no counterpart. -/
theorem DataFault.unmatched {s : σ} {e : AccessError} (h : DataFault [] s e) : e.Unmatched := by
  cases h with
  | conversion v t => exact .conversion v t
  | unknownVariant enumName v => exact .unknownVariant enumName v
  | misstored hm _ => cases hm

/-- The members read as values of their types. -/
def ReadAs (s : σ) (ms : List (Member σ)) : Prop :=
  ∀ m ∈ ms, ∃ v, m.read s = .ok v ∧ v.conforms m.type = true

/-- What is read as declared gives values of its type, and fails on no data. -/
theorem ReadAs.givesType {s : σ} {ms : List (Member σ)} (h : ReadAs s ms) :
    ∀ m ∈ ms, GivesType [] s m.type (m.read s) := by
  intro m hm
  obtain ⟨v, hv, hconforms⟩ := h m hm
  rw [hv]
  exact hconforms

/-! ## Safety -/

namespace Expr

variable {lookup : String → Except MappingError (Member σ)} {sourceType : String} {s : σ}

/-- Arguments that evaluate conform to their parameters. -/
theorem BindsArgs.conformAll {es : List Expr} {ts : List ValueType} {bound : SourceArgs σ}
    (h : BindsArgs lookup es ts bound) (hw : ∀ e ∈ es, e.WellTyped)
    (hts : ∀ t ∈ ts, t.HasVariants) (hread : ReadAs s bound.members) {vs : List Value}
    (hvs : bound.eval s = .ok vs) : ConformAll vs ts :=
  (h.gives_eval hw hts hread.givesType).of_ok hvs

mutual

/-- Each call is made on arguments that conform to the parameters. -/
theorem Binds.conformAll_of_mem_calls {e : Expr} {bound : SourceExpr σ}
    (h : Binds lookup e bound) (hw : e.WellTyped) (hread : ReadAs s bound.members)
    {i : Invocation} (hi : i ∈ (bound.evalTraced s).calls) :
    ConformAll i.args i.function.params := by
  cases h with
  | member h => cases hi
  | const v t => cases hi
  | call h =>
    cases hw with
    | call hf hparams hargs =>
      rcases Traced.mem_calls_bind.mp hi with hi | ⟨vs, hvs, hi⟩
      · exact BindsArgs.conformAll_of_mem_calls h hargs hparams hread hi
      · rw [SourceArgs.result_evalTraced] at hvs
        obtain rfl := List.mem_singleton.mp hi
        exact h.conformAll hargs hparams hread hvs

theorem BindsArgs.conformAll_of_mem_calls {es : List Expr} {ts : List ValueType}
    {bound : SourceArgs σ} (h : BindsArgs lookup es ts bound) (hw : ∀ e ∈ es, e.WellTyped)
    (hts : ∀ t ∈ ts, t.HasVariants) (hread : ReadAs s bound.members) {i : Invocation}
    (hi : i ∈ (bound.evalTraced s).calls) : ConformAll i.args i.function.params := by
  cases h with
  | nil => cases hi
  | cons h hplan hrest =>
    obtain ⟨he, hes⟩ := List.forall_mem_cons.mp hw
    obtain ⟨ht, hts⟩ := List.forall_mem_cons.mp hts
    obtain ⟨hhead, htail⟩ := List.forall_mem_append.mp hread
    rcases Traced.mem_calls_bind.mp hi with hi | ⟨v, -, hi⟩
    · exact Binds.conformAll_of_mem_calls h he hhead hi
    · exact BindsArgs.conformAll_of_mem_calls hrest hes hts htail hi

end

mutual

/-- A failure is that of the plan of an argument, since the functions do not fail. -/
theorem Binds.rejects_of_eval {e : Expr} {bound : SourceExpr σ} (h : Binds lookup e bound)
    (hw : e.WellTyped) (hread : ReadAs s bound.members) {cause : AccessError}
    (hcause : bound.eval s = .error cause) : bound.Rejects s cause := by
  cases h with
  | member h =>
    obtain ⟨v, hv, -⟩ := hread _ (List.mem_singleton.mpr rfl)
    rw [SourceExpr.eval, hv] at hcause
    cases hcause
  | const v t => cases hcause
  | call h =>
    cases hw with
    | call hf hparams hargs =>
      rcases Except.bind_eq_error_iff.mp hcause with hfail | ⟨vs, hvs, hfail⟩
      · exact .call (BindsArgs.rejects_of_eval h hargs hparams hread hfail)
      · obtain ⟨w, hbody, -⟩ := hf vs (h.conformAll hargs hparams hread hvs)
        rw [hbody] at hfail
        cases hfail

theorem BindsArgs.rejects_of_eval {es : List Expr} {ts : List ValueType} {bound : SourceArgs σ}
    (h : BindsArgs lookup es ts bound) (hw : ∀ e ∈ es, e.WellTyped)
    (hts : ∀ t ∈ ts, t.HasVariants) (hread : ReadAs s bound.members) {cause : AccessError}
    (hcause : bound.eval s = .error cause) : bound.Rejects s cause := by
  cases h with
  | nil => cases hcause
  | cons h hplan hrest =>
    obtain ⟨he, hes⟩ := List.forall_mem_cons.mp hw
    obtain ⟨ht, hts⟩ := List.forall_mem_cons.mp hts
    obtain ⟨hhead, htail⟩ := List.forall_mem_append.mp hread
    rcases Except.bind_eq_error_iff.mp hcause with hfail | ⟨w, hcoerced, hfail⟩
    · rcases Except.bind_eq_error_iff.mp hfail with hfail | ⟨v, hv, hfail⟩
      · exact .inside (Binds.rejects_of_eval h he hhead hfail)
      · exact .plan hv hfail
    · obtain ⟨v, hv, hw⟩ := Except.bind_eq_ok_iff.mp hcoerced
      exact .later hv hw
        (BindsArgs.rejects_of_eval hrest hes hts htail (Except.map_eq_error_iff.mp hfail))

end

/-- Evaluation calls the functions on conforming arguments only. It gives a value of the type of
the expression, or the plan of an argument rejects data without a counterpart. -/
theorem eval_safe {e : Expr} {bound : SourceExpr σ} (h : e.bind sourceType lookup = .ok bound)
    (hw : e.WellTyped) (hread : ReadAs s bound.members) :
    (bound.evalTraced s).result = bound.eval s ∧
      (∀ i ∈ (bound.evalTraced s).calls, ConformAll i.args i.function.params) ∧
      Except.Gives (fun v => v.conforms bound.valueType = true)
        (fun cause => cause.Unmatched ∧ bound.Rejects s cause) (bound.eval s) := by
  have hbinds := binds_of_bind h
  have hgives := hbinds.gives_eval hw hread.givesType
  refine ⟨SourceExpr.result_evalTraced s bound,
    fun i hi => hbinds.conformAll_of_mem_calls hw hread hi, ?_⟩
  cases hvalue : bound.eval s with
  | ok v => exact hgives.of_ok hvalue
  | error cause =>
    exact ⟨(hgives.of_error hvalue).unmatched, hbinds.rejects_of_eval hw hread hvalue⟩

/-- Invoices, as records. -/
def invoices : Configuration Record Row :=
  .new "Invoice" "Line"
    (RecordSchema.members ⟨"Invoice", [⟨"Amount", .int .u8⟩, ⟨"Currency", .string⟩]⟩) []

/-- Twice the amount, with the currency. -/
def doubled : Expr :=
  let double : Function :=
    .unary 1 "double" (.int .i64) (.int .i64) fun n => IntKind.i64.wrap (n.1 + n.1)
  let label : Function := .binary 2 "label" .string .string .string String.append
  .call label [.call double [.member "Amount"], .member "Currency"]

/-- An invoice without a currency. -/
def drafted : Record := .ofList [("Amount", .int .u8 (IntKind.u8.wrap 4))]

/-- The currency that the draft lacks reads as the empty text, so that both calls get what they
take. -/
theorem eval_safe_doubled : ∃ bound, doubled.bind "Invoice" invoices.findSource = .ok bound ∧
    doubled.WellTyped ∧ ReadAs drafted bound.members ∧
    (bound.evalTraced drafted).result = bound.eval drafted ∧
    (∀ i ∈ (bound.evalTraced drafted).calls, ConformAll i.args i.function.params) ∧
    Except.Gives (fun v => v.conforms bound.valueType = true)
      (fun cause => cause.Unmatched ∧ bound.Rejects drafted cause) (bound.eval drafted) := by
  have hw : doubled.WellTyped := by
    refine Built.wellTyped (.binary ?_ ?_ (.unary ?_ (.member "Amount")) (.member "Currency"))
    all_goals trivial
  have hbind : ∃ bound, doubled.bind "Invoice" invoices.findSource = .ok bound ∧
      ReadAs drafted bound.members := by
    refine ⟨_, rfl, ?_⟩
    exact List.forall_mem_cons.mpr
      ⟨⟨_, rfl, by decide⟩, List.forall_mem_singleton.mpr ⟨_, rfl, by decide⟩⟩
  obtain ⟨bound, hbound, hread⟩ := hbind
  exact ⟨bound, hbound, hw, hread, eval_safe hbound hw hread⟩

end Expr

end Crosswalk
