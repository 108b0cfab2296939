import Crosswalk.Proofs.Demands
import Crosswalk.Proofs.Sameness

/-!
# The order of declaration

Over other lists of the same members the same is demanded, and it is filled by equal mappings:
a name leads to equal members (`Configuration.exists_resolveBinding_relist`), and so does a
normalized name among admitted ones. What fulfils a configuration therefore has its like over the
other lists (`Configuration.Fulfils.exists_relist`). As the mappings stand in the order of the
first listings of their targets, the order of the source members does not show in the list, and
that of the target members shows in the order of the mappings alone
(`Configuration.validate_rearranged`).
-/

namespace Crosswalk

variable {σ τ : Type}

/-! ## Lists of equal elements -/

/-- Lists of different elements that have each other's elements, up to `==`, differ in order. -/
theorem exists_perm_of_partners {α : Type} [BEq α] [EquivBEq α] {xs ys : List α}
    (hxs : xs.Pairwise fun a b => (a == b) = false) (hys : ys.Pairwise fun a b => (a == b) = false)
    (hxy : ∀ x ∈ xs, ∃ y ∈ ys, (x == y) = true) (hyx : ∀ y ∈ ys, ∃ x ∈ xs, (x == y) = true) :
    ∃ zs, zs.Perm ys ∧ (xs == zs) = true := by
  induction xs generalizing ys with
  | nil =>
    cases ys with
    | nil => exact ⟨[], .refl _, rfl⟩
    | cons y ys =>
      obtain ⟨x, hx, -⟩ := hyx y List.mem_cons_self
      cases hx
  | cons x xs ih =>
    obtain ⟨y, hy, hsame⟩ := hxy x List.mem_cons_self
    obtain ⟨us, vs, rfl⟩ := List.append_of_mem hy
    have hmiddle : (us ++ y :: vs).Perm (y :: (us ++ vs)) := List.perm_middle
    rw [hmiddle.pairwise_iff fun h => BEq.comm.trans h, List.pairwise_cons] at hys
    rw [List.pairwise_cons] at hxs
    -- The partner of another element is not `y`, which is the partner of `x`.
    have hxy' : ∀ x' ∈ xs, ∃ y' ∈ us ++ vs, (x' == y') = true := by
      intro x' hx'
      obtain ⟨y', hy', hsame'⟩ := hxy x' (List.mem_cons_of_mem _ hx')
      rcases List.mem_cons.mp (hmiddle.mem_iff.mp hy') with rfl | hy'
      · have hboth := BEq.trans hsame (BEq.symm hsame')
        rw [hxs.1 x' hx'] at hboth
        cases hboth
      · exact ⟨y', hy', hsame'⟩
    have hyx' : ∀ y' ∈ us ++ vs, ∃ x' ∈ xs, (x' == y') = true := by
      intro y' hy'
      obtain ⟨x', hx', hsame'⟩ := hyx y' (hmiddle.mem_iff.mpr (List.mem_cons_of_mem _ hy'))
      rcases List.mem_cons.mp hx' with rfl | hx'
      · have hboth := BEq.trans (BEq.symm hsame) hsame'
        rw [hys.1 y' hy'] at hboth
        cases hboth
      · exact ⟨x', hx', hsame'⟩
    obtain ⟨zs, hzs, hbeq⟩ := ih hxs.2 hys.2 hxy' hyx'
    refine ⟨y :: zs, (hzs.cons y).trans hmiddle.symm, ?_⟩
    rw [List.cons_beq_cons, hsame, hbeq, Bool.and_self]

/-- An element of a list has its like in an equal list. -/
theorem exists_beq_of_mem {α : Type} [BEq α] {xs ys : List α}
    (h : List.Forall₂ (fun x y => (x == y) = true) xs ys) {y : α} (hy : y ∈ ys) :
    ∃ x ∈ xs, (x == y) = true := by
  induction h with
  | nil => cases hy
  | @cons a b as bs hab _ ih =>
    rcases List.mem_cons.mp hy with rfl | hy
    · exact ⟨a, List.mem_cons_self, hab⟩
    · obtain ⟨x, hx, hxy⟩ := ih hy
      exact ⟨x, List.mem_cons_of_mem _ hx, hxy⟩

theorem map_eq_of_forall₂ {α β : Type} [BEq α] {f : α → β} {xs ys : List α}
    (h : List.Forall₂ (fun x y => (x == y) = true) xs ys)
    (hf : ∀ x y, (x == y) = true → f x = f y) : xs.map f = ys.map f := by
  rw [← List.forall₂_eq_eq_eq, List.forall₂_map_left_iff, List.forall₂_map_right_iff]
  exact h.imp hf

/-! ## Expressions over equal lookups -/

section

variable {lookup lookup' : String → Except MappingError (Member σ)} {sourceType : String}

/-- What the first lookup finds, the second finds up to `==`. -/
def LookupLike (lookup lookup' : String → Except MappingError (Member σ)) : Prop :=
  ∀ {name m}, lookup name = .ok m → ∃ m', lookup' name = .ok m' ∧ (m == m') = true

mutual

/-- Over equal lookups an expression is bound to what is taken for the same, of the same type. -/
theorem Expr.exists_bind_like (h : LookupLike lookup lookup') :
    ∀ {e : Expr} {bound : SourceExpr σ}, e.bind sourceType lookup = .ok bound →
      ∃ bound', e.bind sourceType lookup' = .ok bound' ∧ bound.same bound' = true ∧
        bound.valueType = bound'.valueType
  | .member name, _, hbound => by
    obtain ⟨m, hm, rfl⟩ := Except.map_eq_ok_iff.mp hbound
    obtain ⟨m', hm', hsame⟩ := h hm
    refine ⟨.member m', ?_, hsame, (Member.beq_iff.mp hsame).2.2.1⟩
    rw [Expr.bind, hm']
    rfl
  | .const v t, _, hbound => by
    cases hbound
    exact ⟨.const v t, rfl, SourceExpr.same_self _, rfl⟩
  | .call f args, _, hbound => by
    unfold Expr.bind at hbound ⊢
    split at hbound
    · next hlength =>
      obtain ⟨bound, hargs, rfl⟩ := Except.map_eq_ok_iff.mp hbound
      obtain ⟨bound', hargs', hsame⟩ := Expr.exists_bindArgs_like h hargs
      refine ⟨.call f bound', ?_, ?_, rfl⟩
      · rw [if_pos hlength, hargs']
        rfl
      · rw [SourceExpr.same, BEq.rfl, hsame, Bool.and_self]
    · cases hbound

theorem Expr.exists_bindArgs_like (h : LookupLike lookup lookup') :
    ∀ {function : String} {i : Nat} {es : List Expr} {ts : List ValueType} {bound : SourceArgs σ},
      Expr.bindArgs sourceType lookup function i es ts = .ok bound →
      ∃ bound', Expr.bindArgs sourceType lookup' function i es ts = .ok bound' ∧
        bound.same bound' = true
  | _, _, [], _, _, hbound => by
    unfold Expr.bindArgs at hbound ⊢
    exact ⟨_, hbound, SourceArgs.same_self _⟩
  | _, _, _ :: _, [], _, hbound => by
    unfold Expr.bindArgs at hbound ⊢
    exact ⟨_, hbound, SourceArgs.same_self _⟩
  | function, i, e :: es, t :: ts, _, hbound => by
    unfold Expr.bindArgs at hbound ⊢
    obtain ⟨arg, harg, hbound⟩ := Except.bind_eq_ok_iff.mp hbound
    obtain ⟨arg', harg', hsame, htype⟩ := Expr.exists_bind_like h harg
    rw [harg']
    dsimp only [Except.bind]
    rw [← htype]
    split at hbound
    · next plan hplan =>
      obtain ⟨rest, hrest, rfl⟩ := Except.map_eq_ok_iff.mp hbound
      obtain ⟨rest', hrest', hsameRest⟩ := Expr.exists_bindArgs_like h hrest
      refine ⟨.cons arg' plan rest', ?_, ?_⟩
      · rw [hrest']
        rfl
      · rw [SourceArgs.same, hsame, hsameRest, BEq.rfl, Bool.and_self, Bool.and_self]
    · cases hbound

end

end

namespace Configuration

variable {c : Configuration σ τ} {sources : List (Member σ)} {targets : List (Member τ)}

/-! ## Filling over other lists -/

section

variable (hsources : ∀ s, s ∈ sources ↔ s ∈ c.sourceMembers)

include hsources

/-- The same source members are acquitted. -/
theorem mem_acquitted_relist (targets : List (Member τ)) (s : Member σ) :
    s ∈ (c.relist sources targets).acquitted ↔ s ∈ c.acquitted := by
  rw [acquitted, acquitted, List.mem_filter, List.mem_filter, ignores_relist hsources]
  exact and_congr_left fun _ => hsources s

/-- A name of an override leads to equal source members. -/
theorem findSource_relist (targets : List (Member τ)) :
    LookupLike c.findSource (c.relist sources targets).findSource := by
  intro name m h
  obtain ⟨p, hp, rfl⟩ := Except.map_eq_ok_iff.mp h
  obtain ⟨⟨s, hs, hstands⟩, hsame⟩ := exists_findMember_iff.mp ⟨p, hp⟩
  have hfound : ∃ q, findMember c.sourceType c.options.nameComparer sources name = .ok q := by
    refine exists_findMember_iff.mpr ⟨⟨s, (hsources s).mpr hs, (stands_congr hsources).mpr hstands⟩,
      fun a ha b hb hastands hbstands => ?_⟩
    exact hsame a ((hsources a).mp ha) b ((hsources b).mp hb) ((stands_congr hsources).mp hastands)
      ((stands_congr hsources).mp hbstands)
  obtain ⟨q, hq⟩ := hfound
  refine ⟨q.2, Except.map_eq_ok_iff.mpr ⟨q, hq, rfl⟩, BEq.symm ?_⟩
  obtain ⟨hlisted, hcalled, -⟩ := firstCalled_of_findMember hq
  exact beq_of_stands hp ((hsources q.2).mp (List.mem_of_getElem? hlisted))
    ((stands_congr hsources).mp (hcalled.stands hlisted))

/-- A binding resolves to an equal computation of the same type. -/
theorem exists_resolveBinding_relist {b : Binding σ} {x : Computation σ}
    (h : c.resolveBinding b = .ok x) :
    ∃ y, (c.relist sources targets).resolveBinding b = .ok y ∧ (x == y) = true ∧
      x.valueType = y.valueType := by
  cases b with
  | member name =>
    obtain ⟨m, hm, rfl⟩ := Except.map_eq_ok_iff.mp h
    obtain ⟨m', hm', hsame⟩ := findSource_relist hsources targets hm
    exact ⟨.member m', Except.map_eq_ok_iff.mpr ⟨m', hm', rfl⟩, hsame,
      (Member.beq_iff.mp hsame).2.2.1⟩
  | expression e =>
    obtain ⟨bound, hbound, rfl⟩ := Except.map_eq_ok_iff.mp h
    obtain ⟨bound', hbound', hsame, htype⟩ :=
      Expr.exists_bind_like (findSource_relist hsources targets) hbound
    exact ⟨.expression bound', Except.map_eq_ok_iff.mpr ⟨bound', hbound', rfl⟩, hsame, htype⟩
  | delegate d =>
    cases h
    exact ⟨.delegate d, rfl, BEq.rfl, rfl⟩

end

/-- Equal sides give equal mappings, by the same plan. -/
theorem exists_makeMapping_like {x y : Computation σ} {t u : Member τ} {m : Mapping σ τ}
    (h : c.makeMapping x t = .ok m) (hxy : (x == y) = true) (htype : x.valueType = y.valueType)
    (htu : (t == u) = true) : ∃ n, (c.relist sources targets).makeMapping y u = .ok n ∧
      (m == n) = true := by
  obtain ⟨hsource, htarget, hwrite, hread, hplan⟩ := makeMapping_eq_ok h
  obtain ⟨-, -, hutype, -, -, huwrite⟩ := Member.beq_iff.mp htu
  refine ⟨⟨y, u, m.plan⟩, makeMapping_of_resolve (huwrite ▸ hwrite) ?_ (htype ▸ hutype ▸ hplan), ?_⟩
  · intro n hn
    obtain ⟨k, hk, hkn⟩ := exists_beq_of_mem (Computation.reads_of_beq hxy) hn
    rw [← Member.canRead_eq_of_beq hkn, hread k hk]
  · exact Mapping.beq_iff.mpr ⟨htarget ▸ htu, hsource ▸ hxy, rfl⟩

/-- Among members of distinct normalized names, it does not matter which is found first. -/
theorem find?_like {ss ss' : List (Member σ)} (hmem : ∀ s, s ∈ ss' ↔ s ∈ ss)
    (hdistinct : ∀ a ∈ ss, ∀ b ∈ ss, c.keyOf a = c.keyOf b → (a == b) = true) (key : String) :
    Option.Rel (fun a b => (a == b) = true) (ss.find? fun s => c.keyOf s == key)
      (ss'.find? fun s => c.keyOf s == key) := by
  cases hs : ss.find? fun s => c.keyOf s == key with
  | none =>
    have hnone : (ss'.find? fun s => c.keyOf s == key) = none :=
      List.find?_eq_none.mpr fun s hs' => List.find?_eq_none.mp hs s ((hmem s).mp hs')
    rw [hnone]
    exact .none
  | some s =>
    have hkey := List.find?_some hs
    obtain ⟨s', hs'⟩ : ∃ s', (ss'.find? fun s => c.keyOf s == key) = some s' :=
      Option.isSome_iff_exists.mp (List.find?_isSome.mpr
        ⟨s, (hmem s).mpr (List.mem_of_find?_eq_some hs), hkey⟩)
    have hkey' := List.find?_some hs'
    rw [hs']
    exact .some (hdistinct s (List.mem_of_find?_eq_some hs) s'
      ((hmem s').mp (List.mem_of_find?_eq_some hs'))
      ((beq_iff_eq.mp hkey).trans (beq_iff_eq.mp hkey').symm))

/-- Equal mappings, for which overrides read members of the same names. -/
structure FilledLike (f g : Filled σ τ) : Prop where
  mapping : (f.mapping == g.mapping) = true
  readNames : f.readNames = g.readNames

/-- A task is filled alike over other lists, for an equal target member. -/
theorem exists_fill_relist (hsources : ∀ s, s ∈ sources ↔ s ∈ c.sourceMembers)
    (hdistinct : ∀ a ∈ c.acquitted, ∀ b ∈ c.acquitted, c.keyOf a = c.keyOf b → (a == b) = true)
    {t u : Member τ} (htu : (t == u) = true) {b? : Option (Binding σ)}
    {f? : Option (Filled σ τ)} (h : c.fill c.acquitted ⟨t, b?⟩ = .ok f?) :
    ∃ g?, (c.relist sources targets).fill (c.relist sources targets).acquitted ⟨u, b?⟩ = .ok g? ∧
      Option.Rel FilledLike f? g? := by
  cases b? with
  | some b =>
    obtain ⟨x, hx, h⟩ := Except.bind_eq_ok_iff.mp h
    obtain ⟨m, hm, rfl⟩ := Except.map_eq_ok_iff.mp h
    obtain ⟨y, hy, hxy, htype⟩ := exists_resolveBinding_relist hsources (τ := τ) hx
    obtain ⟨n, hn, hmn⟩ := exists_makeMapping_like hm hxy htype htu
    have hreads : x.reads.map c.keyOf = y.reads.map c.keyOf :=
      map_eq_of_forall₂ (Computation.reads_of_beq hxy) fun _ _ => c.keyOf_eq_of_beq
    refine ⟨some ⟨n, y.reads.map c.keyOf⟩, ?_, .some ⟨hmn, hreads⟩⟩
    exact Except.bind_eq_ok_iff.mpr ⟨y, hy, Except.map_eq_ok_iff.mpr ⟨n, hn, rfl⟩⟩
  | none =>
    have hfind := find?_like (mem_acquitted_relist hsources targets) hdistinct (c.keyOf u)
    have hkey : c.keyOf t = c.keyOf u := c.keyOf_eq_of_beq htu
    have hkey' : ∀ s : Member σ, (c.relist sources targets).keyOf s = c.keyOf s := fun _ => rfl
    have hkeyu : (c.relist sources targets).keyOf u = c.keyOf u := rfl
    simp only [fill, hkey] at h
    simp only [fill, hkey', hkeyu]
    generalize (c.acquitted.find? fun s => c.keyOf s == c.keyOf u) = s? at h hfind
    generalize ((c.relist sources targets).acquitted.find? fun s => c.keyOf s == c.keyOf u) = s?'
      at hfind
    cases hfind with
    | none =>
      dsimp only at h ⊢
      split at h
      · cases h
      · next hmode =>
        cases h
        exact ⟨none, if_neg hmode, .none⟩
    | @some s s' hsame =>
      obtain ⟨m, hm, rfl⟩ := Except.map_eq_ok_iff.mp h
      obtain ⟨n, hn, hmn⟩ := exists_makeMapping_like hm (y := .member s') hsame
        (Member.beq_iff.mp hsame).2.2.1 htu
      exact ⟨some ⟨n, []⟩, Except.map_eq_ok_iff.mpr ⟨n, hn, rfl⟩, .some ⟨hmn, rfl⟩⟩

/-! ## Fulfilment over other lists -/

section

variable (hsources : ∀ s, s ∈ sources ↔ s ∈ c.sourceMembers)
  (htargets : ∀ t, t ∈ targets ↔ t ∈ c.targetMembers)

include htargets

/-- What is demanded over the other lists is demanded over these. -/
theorem Demands.of_relist {t : Member τ} {b? : Option (Binding σ)}
    (h : (c.relist sources targets).Demands t b?) : c.Demands t b? := by
  have hverdict : (c.relist sources targets).verdict = c.verdict := verdict_relist htargets
  cases h with
  | override hb => exact .override (hverdict ▸ hb)
  | auto hauto hwrite => exact .auto (hverdict ▸ hauto) hwrite

/-- Names of overrides stay bound over other lists of the same members. -/
theorem Bound.relist (h : c.Bound) : (c.relist sources targets).Bound := by
  intro name b hb hun
  refine h name b hb ?_
  rcases hun with hnone | ⟨t, ht, u, hu, hts, hus, hdiffer⟩
  · refine .inl fun t ht hstands => hnone t ((htargets t).mpr ht) ?_
    exact (stands_congr htargets).mpr hstands
  · exact .inr ⟨t, (htargets t).mp ht, u, (htargets u).mp hu, (stands_congr htargets).mp hts,
      (stands_congr htargets).mp hus, hdiffer⟩

/-- Open members stay distinct over other lists of the same members. -/
theorem Distinct.relist (h : c.Distinct) : (c.relist sources targets).Distinct := by
  have hverdict : (c.relist sources targets).verdict = c.verdict := verdict_relist htargets
  intro t ht u hu htopen huopen
  rw [Opens, hverdict] at htopen huopen
  exact h t ((htargets t).mp ht) u ((htargets u).mp hu) htopen huopen

/-- A task over other lists is one over these, for an equal target member. -/
theorem exists_task_relist (hbound : c.Bound) (hdistinct : c.Distinct) {q : Task σ τ}
    (hq : q ∈ (c.relist sources targets).tasks [] targets) :
    ∃ p ∈ c.tasks [] c.targetMembers, (p.target == q.target) = true ∧
      p.override? = q.override? := by
  obtain ⟨hlisted, hdemands⟩ := demands_of_mem_tasks (hbound.relist htargets) hq
  exact exists_task_of_demands hbound hdistinct ((htargets _).mp hlisted)
    (hdemands.of_relist htargets)

include hsources

/-- What fulfils a configuration has its like over other lists of the same members. -/
theorem Fulfils.exists_relist {filled : List (Filled σ τ)} (h : c.Fulfils filled) :
    ∃ filled', (c.relist sources targets).Fulfils filled' ∧
      (∀ f ∈ filled, ∃ g ∈ filled', FilledLike f g) ∧
      ∀ g ∈ filled', ∃ f ∈ filled, FilledLike f g := by
  have hback : ∀ q ∈ (c.relist sources targets).tasks [] targets,
      ∃ p ∈ c.tasks [] c.targetMembers, (p.target == q.target) = true ∧
        p.override? = q.override? := fun q hq =>
    exists_task_relist htargets h.bound h.distinct hq
  have hforth : ∀ p ∈ c.tasks [] c.targetMembers,
      ∃ q ∈ (c.relist sources targets).tasks [] targets, (q.target == p.target) = true ∧
        q.override? = p.override? := fun p hp =>
    @exists_task_relist _ _ (c.relist sources targets) c.sourceMembers c.targetMembers
      (fun t => (htargets t).symm) (h.bound.relist htargets) (h.distinct.relist htargets) _ hp
  have hfill : ∀ {p q : Task σ τ} {f? : Option (Filled σ τ)}, (p.target == q.target) = true →
      p.override? = q.override? → c.fill c.acquitted p = .ok f? →
      ∃ g?, (c.relist sources targets).fill (c.relist sources targets).acquitted q = .ok g? ∧
        Option.Rel FilledLike f? g? := by
    rintro ⟨t, b?⟩ ⟨u, b?'⟩ f? htarget hover hf
    obtain rfl : b? = b?' := hover
    exact exists_fill_relist hsources h.sources htarget hf
  have hfills := Except.exists_collect_iff.mp ⟨filled, h.collected⟩
  obtain ⟨filled', hfilled'⟩ : ∃ filled', Except.collect
      ((c.relist sources targets).fill (c.relist sources targets).acquitted)
      ((c.relist sources targets).tasks [] targets) = .ok filled' := by
    refine Except.exists_collect_iff.mpr fun q hq => ?_
    obtain ⟨p, hp, htarget, hover⟩ := hback q hq
    obtain ⟨f?, hf⟩ := hfills p hp
    obtain ⟨g?, hg, -⟩ := hfill htarget hover hf
    exact ⟨g?, hg⟩
  have hlike : ∀ f ∈ filled, ∃ g ∈ filled', FilledLike f g := by
    intro f hf
    obtain ⟨p, hp, hfp⟩ := (Except.mem_collect_iff h.collected).mp hf
    obtain ⟨q, hq, htarget, hover⟩ := hforth p hp
    obtain ⟨g?, hg, hrel⟩ := hfill (BEq.symm htarget) hover.symm hfp
    cases hrel with
    | @some _ g hlike => exact ⟨g, (Except.mem_collect_iff hfilled').mpr ⟨q, hq, hg⟩, hlike⟩
  have hlike' : ∀ g ∈ filled', ∃ f ∈ filled, FilledLike f g := by
    intro g hg
    obtain ⟨q, hq, hgq⟩ := (Except.mem_collect_iff hfilled').mp hg
    obtain ⟨p, hp, htarget, hover⟩ := hback q hq
    obtain ⟨f?, hf⟩ := hfills p hp
    obtain ⟨g?, hg', hrel⟩ := hfill htarget hover hf
    obtain rfl : g? = some g := Except.ok.inj (hg'.symm.trans hgq)
    cases hrel with
    | @some f _ hlike => exact ⟨f, (Except.mem_collect_iff h.collected).mpr ⟨p, hp, hf⟩, hlike⟩
  refine ⟨filled', ⟨h.bound.relist htargets, fun a ha b hb hkey => ?_, h.distinct.relist htargets,
    hfilled', fun hmode s hs => ?_⟩, hlike, hlike'⟩
  · exact h.sources a ((mem_acquitted_relist hsources targets a).mp ha) b
      ((mem_acquitted_relist hsources targets b).mp hb) hkey
  · rcases h.complete hmode s ((mem_acquitted_relist hsources targets s).mp hs) with
      ⟨p, hp, hover, hkey⟩ | ⟨f, hf, hread⟩
    · obtain ⟨q, hq, htarget, hsame⟩ := hforth p hp
      exact .inl ⟨q, hq, hsame.trans hover, (c.keyOf_eq_of_beq htarget).trans hkey⟩
    · obtain ⟨g, hg, hlike⟩ := hlike f hf
      exact .inr ⟨g, hg, hlike.readNames ▸ hread⟩

end

/-! ## The order of the mappings -/

theorem idxOf_eq_of_beq {ρ : Type} (ts : List (Member ρ)) {t u : Member ρ} (h : (t == u) = true) :
    ts.idxOf t = ts.idxOf u := by
  have hsame : (fun v => v == t) = fun v : Member ρ => v == u := by
    funext v
    exact BEq.congr_right h
  rw [List.idxOf, List.idxOf, hsame]

/-- A task fills its own target. -/
theorem target_of_fill {ss : List (Member σ)} {task : Task σ τ} {f : Filled σ τ}
    (h : c.fill ss task = .ok (some f)) : f.mapping.target = task.target := by
  unfold fill at h
  split at h
  · obtain ⟨x, -, h⟩ := Except.bind_eq_ok_iff.mp h
    obtain ⟨m, hm, hf⟩ := Except.map_eq_ok_iff.mp h
    cases hf
    exact (makeMapping_eq_ok hm).2.1
  · split at h
    · obtain ⟨m, hm, hf⟩ := Except.map_eq_ok_iff.mp h
      cases hf
      exact (makeMapping_eq_ok hm).2.1
    · split at h <;> cases h

/-- The mappings stand in the order of the first listings of their targets. -/
theorem Fulfils.pairwise {filled : List (Filled σ τ)} (h : c.Fulfils filled) :
    (filled.map Filled.mapping).Pairwise fun m n =>
      c.targetMembers.idxOf m.target < c.targetMembers.idxOf n.target := by
  rw [List.pairwise_map]
  refine Except.pairwise_collect h.collected (c.pairwise_tasks c.targetMembers) ?_
  intro p q f g hf hg hlt
  rwa [target_of_fill hf, target_of_fill hg]

/-- Mappings in the order of the first listings of their targets are different. -/
theorem pairwise_beq_eq_false {ts : List (Member τ)} {ms : List (Mapping σ τ)}
    (h : ms.Pairwise fun m n => ts.idxOf m.target < ts.idxOf n.target) :
    ms.Pairwise fun m n => (m == n) = false := by
  refine h.imp fun {m n} hlt => Bool.eq_false_iff.mpr fun hsame => ?_
  rw [idxOf_eq_of_beq ts (Mapping.beq_iff.mp hsame).1] at hlt
  exact Nat.lt_irrefl _ hlt

/-- Over other lists of the same members, a validation succeeds too, with the same mappings up to
their order, which is that of the first listings. -/
theorem validate_relist (hsources : ∀ s, s ∈ sources ↔ s ∈ c.sourceMembers)
    (htargets : ∀ t, t ∈ targets ↔ t ∈ c.targetMembers) {ms : List (Mapping σ τ)}
    (h : c.validate = .ok ms) : ∃ ms' ns, (c.relist sources targets).validate = .ok ms' ∧
      ns.Perm ms ∧ (ms' == ns) = true ∧
      ms'.Pairwise fun m n => targets.idxOf m.target < targets.idxOf n.target := by
  obtain ⟨filled, hfilled, rfl⟩ := validate_eq_ok_iff_fulfils.mp h
  obtain ⟨filled', hfilled', hlike, hlike'⟩ := hfilled.exists_relist hsources htargets
  have hpartners : ∀ m ∈ filled.map Filled.mapping,
      ∃ n ∈ filled'.map Filled.mapping, (n == m) = true := by
    intro m hm
    obtain ⟨f, hf, rfl⟩ := List.mem_map.mp hm
    obtain ⟨g, hg, hfg⟩ := hlike f hf
    exact ⟨_, List.mem_map_of_mem hg, BEq.symm hfg.mapping⟩
  have hpartners' : ∀ n ∈ filled'.map Filled.mapping,
      ∃ m ∈ filled.map Filled.mapping, (n == m) = true := by
    intro n hn
    obtain ⟨g, hg, rfl⟩ := List.mem_map.mp hn
    obtain ⟨f, hf, hfg⟩ := hlike' g hg
    exact ⟨_, List.mem_map_of_mem hf, BEq.symm hfg.mapping⟩
  obtain ⟨ns, hns, hsame⟩ := exists_perm_of_partners (pairwise_beq_eq_false hfilled'.pairwise)
    (pairwise_beq_eq_false hfilled.pairwise) hpartners' hpartners
  exact ⟨_, ns, validate_eq_ok_iff_fulfils.mpr ⟨filled', hfilled', rfl⟩, hns, hsame,
    hfilled'.pairwise⟩

/-- Equal lists have their targets at the same places. -/
theorem pairwise_of_beq {ts : List (Member τ)} {ms ns : List (Mapping σ τ)}
    (hsame : (ms == ns) = true)
    (h : ms.Pairwise fun m n => ts.idxOf m.target < ts.idxOf n.target) :
    ns.Pairwise fun m n => ts.idxOf m.target < ts.idxOf n.target := by
  have hplaces : (ms.map fun m => ts.idxOf m.target) = ns.map fun m => ts.idxOf m.target :=
    map_eq_of_forall₂ (forall₂_of_beq hsame) fun m n hmn =>
      idxOf_eq_of_beq ts (Mapping.beq_iff.mp hmn).1
  have hlt : (ms.map fun m => ts.idxOf m.target).Pairwise (· < ·) := List.pairwise_map.mpr h
  rw [hplaces] at hlt
  exact List.pairwise_map.mp hlt

/-- Whether validation succeeds is a question about the sets of listed members. -/
theorem exists_validate_relist_iff (hsources : ∀ s, s ∈ sources ↔ s ∈ c.sourceMembers)
    (htargets : ∀ t, t ∈ targets ↔ t ∈ c.targetMembers) :
    (∃ ms, (c.relist sources targets).validate = .ok ms) ↔ ∃ ms, c.validate = .ok ms := by
  constructor
  · rintro ⟨ms, hms⟩
    obtain ⟨ms', -, hms', -⟩ := @validate_relist _ _ (c.relist sources targets) c.sourceMembers
      c.targetMembers (fun s => (hsources s).symm) (fun t => (htargets t).symm) _ hms
    exact ⟨ms', hms'⟩
  · rintro ⟨ms, hms⟩
    obtain ⟨ms', -, hms', -⟩ := validate_relist hsources htargets hms
    exact ⟨ms', hms'⟩

/-- Permuting the source members leaves success and the list as they were. Permuting the target
members leaves success, and the mappings but for their order, which is that of the first
occurrences of their targets in the permuted list. -/
theorem validate_rearranged (c : Configuration σ τ) :
    (∀ sources : List (Member σ), sources.Perm c.sourceMembers →
      ((∃ ms, { c with sourceMembers := sources }.validate = .ok ms) ↔
        ∃ ms, c.validate = .ok ms) ∧
      ∀ ms ms', c.validate = .ok ms → { c with sourceMembers := sources }.validate = .ok ms' →
        (ms' == ms) = true) ∧
    ∀ targets : List (Member τ), targets.Perm c.targetMembers →
      ((∃ ms, { c with targetMembers := targets }.validate = .ok ms) ↔
        ∃ ms, c.validate = .ok ms) ∧
      ∀ ms ms', c.validate = .ok ms → { c with targetMembers := targets }.validate = .ok ms' →
        ∃ ns : List (Mapping σ τ), ns.Perm ms ∧ (ms' == ns) = true ∧
          ms'.Pairwise fun m n => targets.idxOf m.target < targets.idxOf n.target := by
  refine ⟨fun sources hperm => ⟨?_, fun ms ms' h h' => ?_⟩,
    fun targets hperm => ⟨?_, fun ms ms' h h' => ?_⟩⟩
  · exact exists_validate_relist_iff (fun s => hperm.mem_iff) fun _ => Iff.rfl
  · obtain ⟨ms'', ns, hms'', hns, hsame, horder⟩ :=
      validate_relist (fun s => hperm.mem_iff) (fun _ => Iff.rfl) h
    obtain rfl : ms' = ms'' := Except.ok.inj (h'.symm.trans hms'')
    obtain ⟨filled, hfilled, rfl⟩ := validate_eq_ok_iff_fulfils.mp h
    -- Both stand in the order of the one list of target members.
    have heq : ns = filled.map Filled.mapping :=
      hns.eq_of_pairwise (fun m n _ _ hlt hgt => absurd hgt (Nat.lt_asymm hlt))
        (pairwise_of_beq hsame horder) hfilled.pairwise
    rwa [heq] at hsame
  · exact exists_validate_relist_iff (fun _ => Iff.rfl) fun t => hperm.mem_iff
  · obtain ⟨ms'', ns, hms'', hns, hsame, horder⟩ :=
      validate_relist (fun _ => Iff.rfl) (fun t => hperm.mem_iff) h
    obtain rfl : ms' = ms'' := Except.ok.inj (h'.symm.trans hms'')
    exact ⟨ns, hns, hsame, horder⟩

/-- Guests to their places at the table, with the name on a card. -/
def seating : Configuration Record Record :=
  let guest : RecordSchema := ⟨"Guest", [⟨"Name", .string⟩, ⟨"Diet", .string⟩]⟩
  let place : RecordSchema := ⟨"Place", [⟨"Card", .string⟩, ⟨"Diet", .string⟩]⟩
  (new "Guest" "Place" guest.members place.members).mapMember "Card" "Name"

/-- Either list turned round. -/
theorem validate_rearranged_seating : ∃ ms ms' ms'', seating.validate = .ok ms ∧
    (ms.map fun m => m.target.name) = ["Card", "Diet"] ∧
    { seating with sourceMembers := seating.sourceMembers.reverse }.validate = .ok ms' ∧
    (ms' == ms) = true ∧
    { seating with targetMembers := seating.targetMembers.reverse }.validate = .ok ms'' ∧
    (ms''.map fun m => m.target.name) = ["Diet", "Card"] ∧
    ∃ ns : List (Mapping Record Record), ns.Perm ms ∧ (ms'' == ns) = true := by
  obtain ⟨hsources, htargets⟩ := validate_rearranged seating
  obtain ⟨-, hsame⟩ := hsources _ (List.reverse_perm _)
  obtain ⟨-, hreordered⟩ := htargets _ (List.reverse_perm _)
  refine ⟨_, _, _, rfl, rfl, rfl, hsame _ _ rfl rfl, rfl, rfl, ?_⟩
  obtain ⟨ns, hns, hbeq, -⟩ := hreordered _ _ rfl rfl
  exact ⟨ns, hns, hbeq⟩

end Configuration

end Crosswalk
