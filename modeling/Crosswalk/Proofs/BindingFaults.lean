import Crosswalk.Proofs.Binding

/-!
# When an expression can be bound

Binding checks three things: that each member is found, that each call has as many arguments as its
function has parameters, and that each argument has a plan into the type of its parameter.
`Expr.Fits` says them of all that stands in an expression, and `Expr.checks` lists them in order: a
call's count of arguments before anything in these, the arguments from left to right, and what is in
an argument before its own plan. An expression is bound just where it fits, and otherwise the
failure is that of the first check that fails (`Expr.bind_by_checks`). One induction along the
expression carries both (`Expr.gives_bind`).
-/

namespace Crosswalk

variable {σ : Type} {lookup : String → Except MappingError (Member σ)} {sourceType : String}

namespace Expr

/-! ## What binding asks -/

/-- The type that values of the expression have, by the declarations of its outermost part. -/
inductive HasType (lookup : String → Except MappingError (Member σ)) : Expr → ValueType → Prop
  | member {name : String} {m : Member σ} (h : lookup name = .ok m) :
      HasType lookup (.member name) m.type
  | const (v : Value) (t : ValueType) : HasType lookup (.const v t) t
  | call (f : Function) (args : List Expr) : HasType lookup (.call f args) f.output

/-- The argument has a plan into the type of its parameter, in which defaults stay present. -/
def Accepted (lookup : String → Except MappingError (Member σ)) (arg : Expr) (t : ValueType) :
    Prop :=
  ∃ s plan, arg.HasType lookup s ∧ Coercion.resolve s t .assignDefaultAsIs = .ok plan

/-- The one expression is the other, or stands somewhere in it. -/
inductive Within : Expr → Expr → Prop
  | refl (e : Expr) : Within e e
  | arg {e arg : Expr} {f : Function} {args : List Expr} (hmem : arg ∈ args) (h : Within e arg) :
      Within e (.call f args)

/-- Members are found, calls have their number of arguments, and arguments have plans. -/
structure Fits (lookup : String → Except MappingError (Member σ)) (e : Expr) : Prop where
  found (name : String) (h : Within (.member name) e) : ∃ m, lookup name = .ok m
  arity (f : Function) (args : List Expr) (h : Within (.call f args) e) :
    args.length = f.params.length
  accepted (f : Function) (args : List Expr) (h : Within (.call f args) e) (i : Nat) (arg : Expr)
    (t : ValueType) (harg : args[i]? = some arg) (ht : f.params[i]? = some t) :
    arg.Accepted lookup t

/-! ## The order of the checks -/

/-- Something that binding checks. -/
inductive Check where
  | found (name : String)
  | arity (f : Function) (given : Nat)
  /-- The argument at position `i`, for a parameter of type `t`. -/
  | accepted (f : Function) (i : Nat) (arg : Expr) (t : ValueType)

mutual

/-- What is checked of the expression, in order. -/
def checks : Expr → List Check
  | .member name => [.found name]
  | .const _ _ => []
  | .call f args => .arity f args.length :: checksArgs f 0 args f.params

/-- What is checked of the arguments from position `i` on. -/
def checksArgs (f : Function) (i : Nat) : List Expr → List ValueType → List Check
  | [], _ => []
  | e :: es, [] => e.checks ++ checksArgs f (i + 1) es []
  | e :: es, t :: ts => e.checks ++ .accepted f i e t :: checksArgs f (i + 1) es ts

end

/-- The check succeeds. -/
def Check.Passes (lookup : String → Except MappingError (Member σ)) : Check → Prop
  | found name => ∃ m, lookup name = .ok m
  | arity f given => given = f.params.length
  | accepted _ _ arg t => arg.Accepted lookup t

/-- The check fails with the error. -/
inductive Check.Fails (sourceType : String) (lookup : String → Except MappingError (Member σ)) :
    Check → MappingError → Prop
  | found {name : String} {err : MappingError} (h : lookup name = .error err) :
      Fails sourceType lookup (.found name) err
  | arity {f : Function} {given : Nat} (h : given ≠ f.params.length) :
      Fails sourceType lookup (.arity f given) (.arityMismatch f.name f.params.length given)
  | accepted {f : Function} {i : Nat} {arg : Expr} {t : ValueType} {bound : SourceExpr σ}
      {failure : CoercionFailure} (hbound : Binds lookup arg bound)
      (h : Coercion.resolve bound.valueType t .assignDefaultAsIs = .error failure) :
      Fails sourceType lookup (.accepted f i arg t)
        (.incompatible ⟨Text.shortTypeName sourceType, bound.display, bound.valueType⟩
          ⟨f.name, "#" ++ toString i, t⟩)

/-- The first of the checks that does not pass fails with the error. -/
inductive FirstFault (sourceType : String) (lookup : String → Except MappingError (Member σ)) :
    List Check → MappingError → Prop
  | here {c : Check} {cs : List Check} {err : MappingError} (h : c.Fails sourceType lookup err) :
      FirstFault sourceType lookup (c :: cs) err
  | later {c : Check} {cs : List Check} {err : MappingError} (h : c.Passes lookup)
      (hrest : FirstFault sourceType lookup cs err) : FirstFault sourceType lookup (c :: cs) err

variable {e : Expr} {es : List Expr} {s t : ValueType} {ts : List ValueType}
  {bound : SourceExpr σ} {c : Check} {cs ds : List Check} {err err' : MappingError} {f : Function}
  {i : Nat}

/-! ## Types and bound expressions are unique -/

theorem HasType.unique (h : e.HasType lookup s) (h' : e.HasType lookup t) : s = t := by
  cases h with
  | member h =>
    cases h' with
    | member h' => rw [Except.ok.inj (h.symm.trans h')]
  | const => cases h'; rfl
  | call => cases h'; rfl

/-- What is bound is of the type that the expression has. -/
theorem Binds.hasType (h : Binds lookup e bound) : e.HasType lookup bound.valueType := by
  cases h with
  | member h => exact .member h
  | const v t => exact .const v t
  | call h => exact .call _ _

mutual

/-- Each expression has one bound expression. -/
theorem Binds.unique : ∀ {e : Expr} {b b' : SourceExpr σ}, Binds lookup e b → Binds lookup e b' →
    b = b'
  | .member _, _, _, .member h, .member h' => by rw [Except.ok.inj (h.symm.trans h')]
  | .const _ _, _, _, .const _ _, .const _ _ => rfl
  | .call _ _, _, _, .call h, .call h' => by rw [BindsArgs.unique h h']

theorem BindsArgs.unique : ∀ {es : List Expr} {ts : List ValueType} {b b' : SourceArgs σ},
    BindsArgs lookup es ts b → BindsArgs lookup es ts b' → b = b'
  | _, _, _, _, .nil, .nil => rfl
  | _, _, _, _, .cons h hplan hrest, .cons h' hplan' hrest' => by
    obtain rfl := Binds.unique h h'
    rw [Except.ok.inj (hplan.symm.trans hplan'), BindsArgs.unique hrest hrest']

end

/-! ## Checks that pass and checks that fail -/

theorem Check.Passes.not_fails (h : c.Passes lookup) : ¬c.Fails sourceType lookup err := by
  intro hfails
  cases hfails with
  | found herr =>
    obtain ⟨m, hm⟩ := h
    rw [hm] at herr
    cases herr
  | arity hne => exact hne h
  | accepted hbound herr =>
    obtain ⟨s, plan, hs, hplan⟩ := h
    rw [hs.unique hbound.hasType, herr] at hplan
    cases hplan

/-- A check fails in one way at most. -/
theorem Check.Fails.unique (h : c.Fails sourceType lookup err)
    (h' : c.Fails sourceType lookup err') : err = err' := by
  cases h with
  | found h =>
    cases h' with
    | found h' => exact Except.error.inj (h.symm.trans h')
  | arity => cases h'; rfl
  | accepted hbound =>
    cases h' with
    | accepted hbound' => rw [hbound.unique hbound']

namespace FirstFault

theorem not_pass (h : FirstFault sourceType lookup cs err) : ¬∀ c ∈ cs, c.Passes lookup := by
  intro hpass
  induction h with
  | here h => exact (hpass _ List.mem_cons_self).not_fails h
  | later _ _ ih => exact ih fun c hc => hpass c (List.mem_cons_of_mem _ hc)

/-- There is one first fault at most. -/
theorem unique (h : FirstFault sourceType lookup cs err)
    (h' : FirstFault sourceType lookup cs err') : err = err' := by
  induction h with
  | here h =>
    cases h' with
    | here h' => exact h.unique h'
    | later hpass => exact absurd h hpass.not_fails
  | later hpass _ ih =>
    cases h' with
    | here h' => exact absurd h' hpass.not_fails
    | later _ h' => exact ih h'

/-- Checks that come later do not matter to the first fault. -/
theorem append (h : FirstFault sourceType lookup cs err) (ds : List Check) :
    FirstFault sourceType lookup (cs ++ ds) err := by
  induction h with
  | here h => exact .here h
  | later hpass _ ih => exact .later hpass ih

/-- Checks that pass do not matter to the first fault. -/
theorem append_left (hpass : ∀ c ∈ cs, c.Passes lookup) (h : FirstFault sourceType lookup ds err) :
    FirstFault sourceType lookup (cs ++ ds) err := by
  induction cs with
  | nil => exact h
  | cons c cs ih =>
    obtain ⟨hc, hcs⟩ := List.forall_mem_cons.mp hpass
    exact .later hc (ih hcs)

end FirstFault

/-! ## Binding makes the checks in order -/

/-- The result is by the checks: all pass, or the first that fails gives the error. -/
abbrev ByChecks {α : Type} (sourceType : String)
    (lookup : String → Except MappingError (Member σ)) (cs : List Check) :
    Except MappingError α → Prop :=
  Except.Gives (fun _ => ∀ c ∈ cs, c.Passes lookup) (FirstFault sourceType lookup cs)

namespace ByChecks

variable {α β : Type} {x : Except MappingError α}

/-- A check that passes can be put in front. -/
theorem passing (hc : c.Passes lookup) (h : ByChecks sourceType lookup cs x) :
    ByChecks sourceType lookup (c :: cs) x :=
  Except.Gives.mono h (fun _ hcs => List.forall_mem_cons.mpr ⟨hc, hcs⟩) fun _ => .later hc

/-- The checks of a sequence are those of its first step, then those of its second. -/
theorem sequence {g : α → Except MappingError β} (h : ByChecks sourceType lookup cs x)
    (hg : ∀ a, x = .ok a → ByChecks sourceType lookup ds (g a)) :
    ByChecks sourceType lookup (cs ++ ds) (x.bind g) := by
  cases x with
  | error err => exact FirstFault.append h ds
  | ok a =>
    refine Except.Gives.mono (hg a rfl) (fun _ hds => ?_) fun _ => .append_left h
    exact List.forall_mem_append.mpr ⟨h, hds⟩

end ByChecks

mutual

/-- What binding an expression gives is by the checks of the expression. -/
theorem gives_bind : ∀ e : Expr, ByChecks sourceType lookup e.checks (e.bind sourceType lookup)
  | .member name => by
    unfold bind checks
    cases h : lookup name with
    | ok m => exact List.forall_mem_singleton.mpr ⟨m, h⟩
    | error err => exact .here (.found h)
  | .const v t => by
    unfold bind checks
    exact nofun
  | .call f args => by
    unfold bind checks
    split
    · next hlength =>
      have hargs := gives_bindArgs f 0 hlength
      exact .passing hlength (Except.Gives.map hargs fun _ h => h)
    · next hlength => exact .here (.arity hlength)

/-- Arguments are bound by the checks of each in turn, and of its type after it. -/
theorem gives_bindArgs (f : Function) (i : Nat) : ∀ {es : List Expr} {ts : List ValueType},
    es.length = ts.length → ByChecks sourceType lookup (checksArgs f i es ts)
      (bindArgs sourceType lookup f.name i es ts)
  | [], _, _ => by
    unfold bindArgs checksArgs
    exact nofun
  | _ :: _, [], hlength => nomatch hlength
  | e :: es, t :: ts, hlength => by
    unfold bindArgs checksArgs
    refine .sequence (gives_bind e) fun arg harg => ?_
    have hbound := binds_of_bind harg
    cases hplan : Coercion.resolve arg.valueType t .assignDefaultAsIs with
    | error failure => exact .here (.accepted hbound hplan)
    | ok plan =>
      have hrest := gives_bindArgs f (i + 1) (Nat.succ.inj hlength)
      exact .passing ⟨_, plan, hbound.hasType, hplan⟩ (Except.Gives.map hrest fun _ h => h)

end

/-! ## The checks are those of all that stands in an expression -/

/-- What is checked of an expression, apart from what is in its arguments. -/
inductive Asks : Expr → Check → Prop
  | found (name : String) : Asks (.member name) (.found name)
  | arity (f : Function) (args : List Expr) : Asks (.call f args) (.arity f args.length)
  | accepted {f : Function} {args : List Expr} {i : Nat} {arg : Expr} {t : ValueType}
      (harg : args[i]? = some arg) (ht : f.params[i]? = some t) :
      Asks (.call f args) (.accepted f i arg t)

/-- The checks of arguments are those inside each of them, and one on the type of each. -/
theorem mem_checksArgs_iff : c ∈ checksArgs f i es ts ↔ (∃ e ∈ es, c ∈ e.checks) ∨
    ∃ j arg t, es[j]? = some arg ∧ ts[j]? = some t ∧ c = .accepted f (i + j) arg t := by
  induction es generalizing i ts with
  | nil => simp [checksArgs]
  | cons e es ih =>
    cases ts with
    | nil => simp [checksArgs, ih]
    | cons t ts =>
      have hplace : (∃ j arg u, (e :: es)[j]? = some arg ∧ (t :: ts)[j]? = some u ∧
          c = .accepted f (i + j) arg u) ↔ c = .accepted f i e t ∨
          ∃ j arg u, es[j]? = some arg ∧ ts[j]? = some u ∧ c = .accepted f (i + 1 + j) arg u := by
        constructor
        · rintro ⟨_ | j, arg, u, harg, hu, hc⟩
          · cases harg
            cases hu
            exact .inl hc
          · exact .inr ⟨j, arg, u, harg, hu, by rw [hc, Nat.add_right_comm i 1 j]; rfl⟩
        · rintro (hc | ⟨j, arg, u, harg, hu, hc⟩)
          · exact ⟨0, e, t, rfl, rfl, hc⟩
          · exact ⟨j + 1, arg, u, harg, hu, by rw [hc, Nat.add_right_comm i 1 j]; rfl⟩
      rw [checksArgs, List.mem_append, List.mem_cons, ih, hplace]
      simp only [List.mem_cons, exists_eq_or_imp, or_assoc]
      rw [or_left_comm (a := c = .accepted f i e t)]

theorem Asks.mem_checks (h : e.Asks c) : c ∈ e.checks := by
  cases h with
  | found name => exact List.mem_singleton.mpr rfl
  | arity f args => exact List.mem_cons_self
  | @accepted f args i arg t harg ht =>
    refine List.mem_cons_of_mem _ (mem_checksArgs_iff.mpr (.inr ⟨i, arg, t, harg, ht, ?_⟩))
    rw [Nat.zero_add]

/-- What a part of an expression asks, the whole one checks. -/
theorem Within.mem_checks {n : Expr} (h : Within n e) (hc : n.Asks c) : c ∈ e.checks := by
  induction h with
  | refl => exact hc.mem_checks
  | arg hmem _ ih =>
    exact List.mem_cons_of_mem _ (mem_checksArgs_iff.mpr (.inl ⟨_, hmem, ih⟩))

mutual

theorem exists_asks : ∀ {e : Expr} {c : Check}, c ∈ e.checks → ∃ n, Within n e ∧ n.Asks c
  | .member name, c, h => by
    obtain rfl := List.mem_singleton.mp h
    exact ⟨_, .refl _, .found name⟩
  | .const _ _, _, h => nomatch h
  | .call f args, c, h => by
    rcases List.mem_cons.mp h with rfl | h
    · exact ⟨_, .refl _, .arity f args⟩
    · rcases mem_checksArgs_iff.mp h with ⟨arg, harg, hc⟩ | ⟨i, arg, t, harg, ht, rfl⟩
      · obtain ⟨n, hn, hasks⟩ := exists_asks_of_mem harg hc
        exact ⟨n, .arg harg hn, hasks⟩
      · rw [Nat.zero_add]
        exact ⟨_, .refl _, .accepted harg ht⟩

theorem exists_asks_of_mem : ∀ {es : List Expr} {e : Expr} {c : Check}, e ∈ es → c ∈ e.checks →
    ∃ n, Within n e ∧ n.Asks c
  | _ :: _, _, _, .head _, hc => exists_asks hc
  | _ :: _, _, _, .tail _ h, hc => exists_asks_of_mem h hc

end

/-- An expression fits just when all its checks pass. -/
theorem fits_iff : e.Fits lookup ↔ ∀ c ∈ e.checks, c.Passes lookup := by
  constructor
  · intro h c hc
    obtain ⟨n, hn, hasks⟩ := exists_asks hc
    cases hasks with
    | found name => exact h.found name hn
    | arity f args => exact h.arity f args hn
    | accepted harg ht => exact h.accepted _ _ hn _ _ _ harg ht
  · intro h
    exact {
      found := fun name hn => h _ (hn.mem_checks (.found name))
      arity := fun f args hn => h _ (hn.mem_checks (.arity f args))
      accepted := fun f args hn i arg t harg ht => h _ (hn.mem_checks (.accepted harg ht)) }

/-- An expression is bound just where it fits, and otherwise its first fault is the failure. -/
theorem bind_by_checks (sourceType : String) (lookup : String → Except MappingError (Member σ))
    (e : Expr) : ((∃ bound, e.bind sourceType lookup = .ok bound) ↔ e.Fits lookup) ∧
      ∀ err, e.bind sourceType lookup = .error err ↔
        FirstFault sourceType lookup e.checks err := by
  have hgives : ByChecks sourceType lookup e.checks (e.bind sourceType lookup) := gives_bind e
  rw [fits_iff]
  cases hbind : e.bind sourceType lookup with
  | ok bound =>
    have hpass := hgives.of_ok hbind
    refine ⟨⟨fun _ => hpass, fun _ => ⟨bound, rfl⟩⟩, fun err => ⟨nofun, fun hfault => ?_⟩⟩
    exact absurd hpass hfault.not_pass
  | error err =>
    have hfault := hgives.of_error hbind
    refine ⟨⟨nofun, fun hpass => absurd hpass hfault.not_pass⟩, fun err' => ⟨?_, fun h => ?_⟩⟩
    · rintro ⟨⟩
      exact hfault
    · rw [hfault.unique h]

/-- A wrong number of arguments comes before an argument that is not found. -/
example : (call (.unary 1 "len" .string .string id) [member "Code", member "Code"]).bind "Order"
    (fun name => .error (.memberNotFound "Order" name) : String → Except MappingError (Member σ)) =
    .error (.arityMismatch "len" 1 2) := rfl

end Expr

end Crosswalk
