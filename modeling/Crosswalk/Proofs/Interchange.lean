import Crosswalk.Proofs.Sameness
import Crosswalk.Record
import Crosswalk.Row
import Crosswalk.StructType
import Crosswalk.Transform
import Mathlib.Data.List.Nodup

/-!
# Equal mappings work alike

`==` compares neither the procedures of members nor the bodies of functions. Among mappings
whose equal parts do work alike (`Consistent`), equal lists carry out the same
transformation: both succeed with the same target, or both fail at a target member of the
same name, with the same cause and the same target left (`Agree`, `Consistent.agree`). Only
the owner label in the failure may differ.

Members of records, rows and structures meet the condition (`RecordSchema.alike_of_beq`,
`RowSchema.alike_of_beq`, `StructType.alike_of_beq`).
-/

namespace Crosswalk

variable {σ τ : Type}

/-! ## Members that work alike -/

/-- The members read and write alike. -/
def Member.Alike (a b : Member σ) : Prop := a.getter = b.getter ∧ a.setter = b.setter

namespace Member.Alike

variable {a b : Member σ}

theorem refl (a : Member σ) : a.Alike a := ⟨rfl, rfl⟩

theorem read_eq (h : a.Alike b) (hb : b.canRead = true) : a.read = b.read := by
  obtain ⟨get, hget⟩ := Option.isSome_iff_exists.mp hb
  funext s
  rw [read, read, h.1, hget]

theorem write_eq (h : a.Alike b) (hb : b.canWrite = true) : a.write = b.write := by
  obtain ⟨set, hset⟩ := Option.isSome_iff_exists.mp hb
  funext v
  rw [write, write, h.2, hset]

end Member.Alike

/-- Equal members of record schemas work alike, whatever owner they are listed under. -/
theorem RecordSchema.alike_of_beq {owner owner' : String} {col col' : Column}
    (h : (memberOf owner col == memberOf owner' col') = true) :
    (memberOf owner col).Alike (memberOf owner' col') := by
  obtain ⟨-, hname, htype, -⟩ := Member.beq_iff.mp h
  obtain rfl : col = col' := by
    cases col
    cases col'
    cases hname
    cases htype
    rfl
  exact .refl _

/-- Equal members of row schemas work alike, as they have the same place. -/
theorem RowSchema.alike_of_beq {owner owner' : String} {col col' : Column} {i j : Nat}
    (h : (memberOf owner col i == memberOf owner' col' j) = true) :
    (memberOf owner col i).Alike (memberOf owner' col' j) := by
  obtain ⟨-, -, htype, hslot, -⟩ := Member.beq_iff.mp h
  obtain rfl : i = j := Slot.index.inj hslot
  have hcol : col.type = col'.type := htype
  exact ⟨by rw [memberOf, memberOf, hcol]; rfl, by rw [memberOf, memberOf, hcol]; rfl⟩

/-- The slot of a registered field is the field's name. -/
theorem StructType.alike_of_beq {S : StructType} (hnames : (S.fields.map Field.name).Nodup)
    {name name' : String} {i j : Fin S.fields.length}
    (h : (S.memberOf name i == S.memberOf name' j) = true) :
    (S.memberOf name i).Alike (S.memberOf name' j) := by
  obtain ⟨-, -, -, hslot, -⟩ := Member.beq_iff.mp h
  have hname : (S.fields.get i).name = (S.fields.get j).name := Slot.field.inj hslot
  obtain rfl : i = j := by
    have hi : i.1 < (S.fields.map Field.name).length := by simp
    have hj : j.1 < (S.fields.map Field.name).length := by simp
    have hij : (S.fields.map Field.name)[i.1] = (S.fields.map Field.name)[j.1] := by
      simpa using hname
    exact Fin.ext ((List.Nodup.getElem_inj_iff hnames).mp hij)
  exact .refl _

/-! ## Parts of mappings -/

mutual

/-- The functions called, from left to right. -/
def SourceExpr.functions : SourceExpr σ → List Function
  | .member _ => []
  | .const _ _ => []
  | .call f args => f :: args.functions

/-- The functions called in arguments, from left to right. -/
def SourceArgs.functions : SourceArgs σ → List Function
  | .nil => []
  | .cons arg _ rest => arg.functions ++ rest.functions

end

/-- The functions that a computation may call. What a delegate calls is not known. -/
def Computation.functions : Computation σ → List Function
  | .member _ => []
  | .expression e => e.functions
  | .delegate _ => []

/-- What in the two computations `==` takes for one works alike. -/
structure Computation.Consistent (x y : Computation σ) : Prop where
  members : ∀ a ∈ x.reads, ∀ b ∈ y.reads, (a == b) = true → a.Alike b
  functions : ∀ f ∈ x.functions, ∀ g ∈ y.functions, f.identity = g.identity → f = g
  delegates : ∀ d e, x = .delegate d → y = .delegate e → (d == e) = true → d = e

/-- What in the mappings `==` takes for one works alike: equal members read and write alike,
and an identity stands for one function, or one delegate. -/
structure Consistent (ms : List (Mapping σ τ)) : Prop where
  sources : ∀ m ∈ ms, ∀ n ∈ ms, m.source.Consistent n.source
  targets : ∀ m ∈ ms, ∀ n ∈ ms, (m.target == n.target) = true → m.target.Alike n.target

/-- Members of records read and write alike where they are equal. -/
theorem RecordSchema.consistent {ms : List (Mapping Record Record)}
    (hsources : ∀ m ∈ ms, ∃ owner col, m.source = .member (memberOf owner col))
    (htargets : ∀ m ∈ ms, ∃ owner col, m.target = memberOf owner col) : Consistent ms where
  sources m hm n hn := by
    obtain ⟨owner, col, hsource⟩ := hsources m hm
    obtain ⟨owner', col', hsource'⟩ := hsources n hn
    rw [hsource, hsource']
    refine ⟨fun a ha b hb hab => ?_, nofun, nofun⟩
    obtain rfl := List.mem_singleton.mp ha
    obtain rfl := List.mem_singleton.mp hb
    exact alike_of_beq hab
  targets m hm n hn hmn := by
    obtain ⟨owner, col, htarget⟩ := htargets m hm
    obtain ⟨owner', col', htarget'⟩ := htargets n hn
    rw [htarget, htarget'] at hmn ⊢
    exact alike_of_beq hmn

/-! ## Equal computations -/

mutual

/-- Expressions that are taken for one give the same, if their equal members read alike and their
functions of one identity are one. -/
theorem SourceExpr.eval_eq_of_same (s : σ) (x y : SourceExpr σ)
    (hread : ∀ a ∈ x.members, ∀ b ∈ y.members, (a == b) = true → a.read s = b.read s)
    (hcall : ∀ f ∈ x.functions, ∀ g ∈ y.functions, f.identity = g.identity → f = g)
    (h : x.same y = true) : x.eval s = y.eval s := by
  cases SourceExpr.Same.of_same h with
  | @member a b hab =>
    exact hread a (by simp [SourceExpr.members]) b (by simp [SourceExpr.members]) hab
  | const _ _ => rfl
  | @call f g xs ys hcallee hargs =>
    obtain rfl : f = g :=
      hcall f (by simp [SourceExpr.functions]) g (by simp [SourceExpr.functions]) hcallee
    have hvalues : xs.eval s = ys.eval s := xs.eval_eq_of_same s ys hread
      (fun f hf g hg => hcall f (List.mem_cons_of_mem _ hf) g (List.mem_cons_of_mem _ hg)) hargs
    rw [SourceExpr.eval, SourceExpr.eval, hvalues]

theorem SourceArgs.eval_eq_of_same (s : σ) (xs ys : SourceArgs σ)
    (hread : ∀ a ∈ xs.members, ∀ b ∈ ys.members, (a == b) = true → a.read s = b.read s)
    (hcall : ∀ f ∈ xs.functions, ∀ g ∈ ys.functions, f.identity = g.identity → f = g)
    (h : xs.same ys = true) : xs.eval s = ys.eval s := by
  cases SourceArgs.Same.of_same h with
  | nil => rfl
  | @cons x y xs ys _ hfirst hrest =>
    simp only [SourceArgs.members, SourceArgs.functions, List.mem_append] at hread hcall
    have hvalue : x.eval s = y.eval s := x.eval_eq_of_same s y
      (fun a ha b hb => hread a (.inl ha) b (.inl hb))
      (fun f hf g hg => hcall f (.inl hf) g (.inl hg)) hfirst
    have hvalues : xs.eval s = ys.eval s := xs.eval_eq_of_same s ys
      (fun a ha b hb => hread a (.inr ha) b (.inr hb))
      (fun f hf g hg => hcall f (.inr hf) g (.inr hg)) hrest
    rw [SourceArgs.eval, SourceArgs.eval, hvalue, hvalues]

end

/-- Equal computations that are consistent give the same. -/
theorem Computation.Consistent.eval_eq {x y : Computation σ} (h : x.Consistent y)
    (hxy : (x == y) = true) (hable : ∀ b ∈ y.reads, b.canRead = true) (s : σ) :
    x.eval s = y.eval s := by
  have hread : ∀ a ∈ x.reads, ∀ b ∈ y.reads, (a == b) = true → a.read s = b.read s :=
    fun a ha b hb hab => congrFun ((h.members a ha b hb hab).read_eq (hable b hb)) s
  cases same_of_beq hxy with
  | @member a b hab =>
    exact hread a (List.mem_singleton.mpr rfl) b (List.mem_singleton.mpr rfl) hab
  | @expression x y hxy => exact x.eval_eq_of_same s y hread h.functions hxy
  | @delegate d e hde =>
    obtain rfl := h.delegates d e rfl rfl hde
    rfl

/-! ## Equal mappings -/

/-- The mappings give the same values to target members of one name that are written alike. -/
structure Mapping.Alike (m n : Mapping σ τ) : Prop where
  produce_eq : ∀ s, m.produce s = n.produce s
  write_eq : m.target.write = n.target.write
  name_eq : m.target.name = n.target.name

/-- The target is writable, and what is read is readable. -/
def Mapping.Able (m : Mapping σ τ) : Prop :=
  m.target.canWrite = true ∧ ∀ s ∈ m.source.reads, s.canRead = true

theorem Consistent.alike {ms : List (Mapping σ τ)} (h : Consistent ms) {m n : Mapping σ τ}
    (hm : m ∈ ms) (hn : n ∈ ms) (hmn : (m == n) = true) (hable : n.Able) : m.Alike n := by
  obtain ⟨htarget, hsource, hplan⟩ := Mapping.beq_iff.mp hmn
  refine ⟨fun s => ?_, (h.targets m hm n hn htarget).write_eq hable.1,
    Member.name_eq_of_beq htarget⟩
  rw [Mapping.produce_eq_bind, Mapping.produce_eq_bind, hplan,
    (h.sources m hm n hn).eval_eq hsource hable.2 s]

/-- Outcomes that differ in the owner label of the failure at most. -/
inductive Agree : Except MappingError Unit × τ → Except MappingError Unit × τ → Prop
  | success (t : τ) : Agree (.ok (), t) (.ok (), t)
  | failure (owner owner' member : String) (cause : AccessError) (t : τ) :
      Agree (.error (.transform owner member cause), t)
        (.error (.transform owner' member cause), t)

section

variable {ms ns : List (Mapping σ τ)}

/-- Mappings that are alike read the same values, or fail at the same name. -/
theorem readAll_of_alike (h : List.Forall₂ Mapping.Alike ms ns) (s : σ) :
    (∃ vs, readAll s ms = .ok vs ∧ readAll s ns = .ok vs) ∨
      ∃ owner owner' member cause, readAll s ms = .error (.transform owner member cause) ∧
        readAll s ns = .error (.transform owner' member cause) := by
  induction h with
  | nil => exact .inl ⟨[], rfl, rfl⟩
  | @cons m n ms ns hmn _ ih =>
    simp only [readAll, hmn.produce_eq s]
    cases n.produce s with
    | error cause =>
      refine .inr ⟨m.target.shortOwner, n.target.shortOwner, n.target.name, cause, ?_, rfl⟩
      simp only [Mapping.failure, hmn.name_eq]
    | ok v =>
      rcases ih with ⟨vs, hms, hns⟩ | ⟨owner, owner', member, cause, hms, hns⟩
      · exact .inl ⟨v :: vs, by rw [hms]; rfl, by rw [hns]; rfl⟩
      · exact .inr ⟨owner, owner', member, cause, by rw [hms]; rfl, by rw [hns]; rfl⟩

/-- Mappings that are alike one by one write alike, up to the label of the owner. -/
theorem agree_writeAll (h : List.Forall₂ Mapping.Alike ms ns) (vs : List Value) (t : τ) :
    Agree (writeAll ms vs t) (writeAll ns vs t) := by
  induction h generalizing vs t with
  | nil => exact .success t
  | @cons m n ms ns hmn _ ih =>
    cases vs with
    | nil => exact .success t
    | cons v vs =>
      simp only [writeAll, Update.andThen, Update.mapError, hmn.write_eq]
      cases hw : n.target.write v t with
      | mk r t' =>
        cases r with
        | ok u => exact ih vs t'
        | error cause =>
          simp only [Mapping.failure, hmn.name_eq]
          exact .failure _ _ _ _ _

/-- Mappings that are alike carry out the same transformation. -/
theorem agree_transform (h : List.Forall₂ Mapping.Alike ms ns) (s : σ) (t : τ) :
    Agree (transform ms s t) (transform ns s t) := by
  unfold transform
  rcases readAll_of_alike h s with ⟨vs, hms, hns⟩ | ⟨owner, owner', member, cause, hms, hns⟩
  · rw [hms, hns]
    exact agree_writeAll h vs t
  · rw [hms, hns]
    exact .failure owner owner' member cause t

end

section

variable {ls ms ns : List (Mapping σ τ)}

theorem Consistent.forall₂_alike (h : Consistent ls)
    (hsame : List.Forall₂ (fun m n => (m == n) = true) ms ns) (hms : ∀ m ∈ ms, m ∈ ls)
    (hns : ∀ n ∈ ns, n ∈ ls) (hable : ∀ n ∈ ns, n.Able) : List.Forall₂ Mapping.Alike ms ns := by
  induction hsame with
  | nil => exact .nil
  | cons hmn _ ih =>
    simp only [List.forall_mem_cons] at hms hns hable
    exact .cons (h.alike hms.1 hns.1 hmn hable.1) (ih hms.2 hns.2 hable.2)

/-- Equal lists of consistent mappings carry out the same transformation. -/
theorem Consistent.agree (h : Consistent ls) (hsame : (ms == ns) = true) (hms : ∀ m ∈ ms, m ∈ ls)
    (hns : ∀ n ∈ ns, n ∈ ls) (hable : ∀ n ∈ ns, n.Able) (s : σ) (t : τ) :
    Agree (transform ms s t) (transform ns s t) :=
  agree_transform (h.forall₂_alike (forall₂_of_beq hsame) hms hns hable) s t

end

end Crosswalk
