import Crosswalk.Proofs.CoercionChoice
import Crosswalk.Proofs.NamePairing
import Crosswalk.Proofs.Storage

/-!
# Mapping a provider to itself

Between a provider and itself every member is of the name and type of its own, so where the
comparer tells the names apart a configuration without directives pairs each member with
itself by the identity (`Provider.exists_copies`). The transformation of such mappings is a
copy of the members, whatever the target held before (`Provider.Copies.exists_transform`).
-/

namespace Crosswalk

namespace Provider

/-- The enumerations of the columns have variants. A field always holds an element of its type. -/
def HasVariants : Provider → Prop
  | record schema => ∀ col ∈ schema.columns, col.type.HasVariants
  | row schema => ∀ col ∈ schema.columns, col.type.HasVariants
  | struct _ => True

/-- The configuration from the provider to itself, without directives. -/
def toItself (p : Provider) (source target : String) (options : MappingOptions) :
    Configuration p.Owner p.Owner :=
  (Configuration.new source target p.members p.members).withOptions options

/-- The comparer tells the members apart by their names. -/
def NamedApart (p : Provider) (comparer : NameComparer) : Prop :=
  (p.members.map fun m => comparer.normalize m.name).Nodup

/-- The mappings fill the members one by one, each from itself as it is. -/
structure Copies (p : Provider) (ms : List (Mapping p.Owner p.Owner)) : Prop where
  targets : ms.map Mapping.target = p.members
  itself : ∀ m ∈ ms, m.source = .member m.target ∧ m.plan = .identity

variable {p : Provider} {options : MappingOptions} {comparer : NameComparer}
  {a b m : Member p.Owner} {s t : p.Owner} {v w : Value}

/-- Members of one name are one member. -/
theorem NamedApart.eq_of_name_eq (h : p.NamedApart comparer) (ha : a ∈ p.members)
    (hb : b ∈ p.members) (hname : a.name = b.name) : a = b :=
  List.inj_on_of_nodup_map h ha hb (congrArg comparer.normalize hname)

/-! ## Validation -/

theorem plain_toItself (p : Provider) (source target : String) (options : MappingOptions) :
    (p.toItself source target options).Plain where
  undirected := rfl
  readable m hm := (p.able m hm).1
  writable m hm := (p.able m hm).2

/-- Every member of a provider is matched with itself. -/
theorem matched_toItself (h : p.NamedApart options.nameComparer) (source target : String) :
    (p.toItself source target options).Matched where
  sourceNames := h
  targetNames := h
  sameNames _ := Iff.rfl
  convertible a ha b hb hkey := by
    obtain rfl : a = b := List.inj_on_of_nodup_map h ha hb hkey
    exact ⟨_, Coercion.resolve_self a.type _⟩

/-- Every mode and every behaviour pairs each member with itself. -/
theorem exists_copies (h : p.NamedApart options.nameComparer) (source target : String) :
    ∃ ms, (p.toItself source target options).validate = .ok ms ∧ p.Copies ms := by
  obtain ⟨ms, hvalidate, hbyName⟩ :=
    Configuration.exists_byName_of_matched (p.plain_toItself source target options)
      (matched_toItself h source target)
  have htargets : ms.map Mapping.target = p.members := hbyName.targets
  refine ⟨ms, hvalidate, htargets, fun m hm => ?_⟩
  obtain ⟨a, ha, hkey, hsource, hplan⟩ := hbyName.sources m hm
  have htarget : m.target ∈ p.members := htargets ▸ List.mem_map_of_mem hm
  obtain rfl : a = m.target := List.inj_on_of_nodup_map h ha htarget hkey
  rw [Coercion.resolve_self] at hplan
  exact ⟨hsource, (Except.ok.inj hplan).symm⟩

/-! ## Copying -/

/-- What a member reads is of its type: an absent value reads as a default that is. -/
theorem conforms_of_read (h : p.HasVariants) (hm : m ∈ p.members) (hv : m.read s = .ok v) :
    v.conforms m.type = true := by
  cases p with
  | record schema => exact ((RecordSchema.provided h m hm).read s).of_ok hv
  | row schema => exact ((RowSchema.provided h m hm).read s).of_ok hv
  | struct S =>
    obtain ⟨r, -, rfl⟩ := List.mem_map.mp hm
    obtain rfl := Except.ok.inj hv
    exact Carrier.conforms_toValue _ _

/-- Writing what one member reads leaves in another one what that one reads. Two members of a
field read the same. -/
theorem keeps_of_read (h : p.NamedApart comparer) (ha : a ∈ p.members) (hb : b ∈ p.members)
    (hv : a.read s = .ok v) (hw : b.read s = .ok w) : a.Keeps v b w := by
  by_cases hab : a = b
  · subst hab
    obtain rfl := Except.ok.inj (hv.symm.trans hw)
    exact (retains a ha).keeps_self v
  · cases p with
    | record schema =>
      refine keeps_of_slot_ne ha hb (fun hslot => hab ?_) v w
      obtain ⟨col, -, rfl⟩ := List.mem_map.mp ha
      obtain ⟨col', -, rfl⟩ := List.mem_map.mp hb
      exact h.eq_of_name_eq ha hb (Slot.key.inj hslot)
    | row schema =>
      refine keeps_of_slot_ne ha hb (fun hslot => hab ?_) v w
      obtain ⟨i, hi, rfl⟩ := List.mem_mapIdx.mp ha
      obtain ⟨j, hj, rfl⟩ := List.mem_mapIdx.mp hb
      obtain rfl : i = j := Slot.index.inj hslot
      rfl
    | struct S =>
      obtain ⟨⟨name, i⟩, -, rfl⟩ := List.mem_map.mp ha
      obtain ⟨⟨name', j⟩, -, rfl⟩ := List.mem_map.mp hb
      by_cases hij : i = j
      · subst hij
        obtain rfl := Except.ok.inj (hv.symm.trans hw)
        exact (StructType.retains S name' i).keeps_self v
      · exact StructType.keeps hij v w

namespace Copies

variable {ms : List (Mapping p.Owner p.Owner)}

theorem target_mem (h : p.Copies ms) {m : Mapping p.Owner p.Owner} (hm : m ∈ ms) :
    m.target ∈ p.members :=
  h.targets ▸ List.mem_map_of_mem hm

theorem produce_eq (h : p.Copies ms) {m : Mapping p.Owner p.Owner} (hm : m ∈ ms) (s : p.Owner) :
    m.produce s = m.target.read s := by
  obtain ⟨hsource, hplan⟩ := h.itself m hm
  rw [Mapping.produce, hsource, hplan, Coercion.isIdentity, if_pos rfl, Computation.eval]

/-- From a source whose members all read, every target becomes one whose members read the
same. -/
theorem exists_transform (h : p.Copies ms) (hvariants : p.HasVariants)
    (hnames : p.NamedApart comparer) (hs : ∀ m ∈ p.members, ∃ v, m.read s = .ok v) (t : p.Owner) :
    ∃ t', transform ms s t = (.ok (), t') ∧ ∀ m ∈ p.members, m.read t' = m.read s := by
  have hproduce : ∀ m ∈ ms, ∃ v, m.produce s = .ok v ∧ v.conforms m.target.type = true := by
    intro m hm
    obtain ⟨v, hv⟩ := hs m.target (h.target_mem hm)
    rw [h.produce_eq hm]
    exact ⟨v, hv, conforms_of_read hvariants (h.target_mem hm) hv⟩
  have hretains : ∀ m ∈ ms, m.target.Retains := fun m hm => retains _ (h.target_mem hm)
  have hkeeps : ∀ m ∈ ms, ∀ n ∈ ms, ∀ v w, m.produce s = .ok v → n.produce s = .ok w →
      n.target.Keeps w m.target v := by
    intro m hm n hn v w hv hw
    rw [h.produce_eq hm] at hv
    rw [h.produce_eq hn] at hw
    exact keeps_of_read hnames (h.target_mem hn) (h.target_mem hm) hw hv
  obtain ⟨t', htransform⟩ :=
    Crosswalk.exists_transform hproduce (fun m hm => accepting _ (h.target_mem hm)) t
  refine ⟨t', htransform, fun b hb => ?_⟩
  obtain ⟨m, hm, rfl⟩ := List.mem_map.mp (h.targets ▸ hb)
  obtain ⟨v, hv, hheld⟩ := holds_of_transform hretains hkeeps htransform m hm
  rw [(hretains m hm).read hheld, ← hv, h.produce_eq hm]

end Copies

/-- Mapping a provider to itself pairs each member with itself, and copies what the members of
the source read to any target. -/
theorem toItself_copies (p : Provider) (hvariants : p.HasVariants) (options : MappingOptions)
    (hnames : p.NamedApart options.nameComparer) (source target : String) :
    ∃ ms, (p.toItself source target options).validate = .ok ms ∧ p.Copies ms ∧
      ∀ s t, (∀ m ∈ p.members, ∃ v, m.read s = .ok v) →
        ∃ t', transform ms s t = (.ok (), t') ∧ ∀ m ∈ p.members, m.read t' = m.read s := by
  obtain ⟨ms, hvalidate, hcopies⟩ := exists_copies hnames source target
  exact ⟨ms, hvalidate, hcopies, fun _ t hs => hcopies.exists_transform hvariants hnames hs t⟩

/-- Rows of goods, with names that differ without case and separators. -/
def goods : Provider :=
  let kind : EnumType := ⟨"Kind", [("Raw", IntKind.i64.wrap 1), ("Made", IntKind.i64.wrap 2)]⟩
  .row ⟨"Goods", [⟨"Kind", .enum kind⟩, ⟨"kind_of", .string⟩, ⟨"Parts", .nullable (.int .u8)⟩]⟩

/-- A row that ends after its first cell. -/
def started : Row := ⟨[.enum (IntKind.i64.wrap 2)]⟩

theorem toItself_copies_goods : goods.HasVariants ∧ goods.NamedApart .normalized ∧
    (∀ m ∈ goods.members, ∃ v, m.read started = .ok v) ∧
    ∃ ms, (goods.toItself "Row" "Row" ⟨.strict, .normalized, .error⟩).validate = .ok ms ∧
      goods.Copies ms ∧ ∃ t', transform ms started (⟨[]⟩ : Row) = (.ok (), t') ∧
        ∀ m ∈ goods.members, m.read t' = m.read started := by
  have hvariants : goods.HasVariants := by
    show ∀ col ∈ _, _
    decide
  have hnames : goods.NamedApart .normalized := by
    show (List.map _ _).Nodup
    decide
  have hreads : ∀ m ∈ goods.members, ∃ v, m.read started = .ok v := by
    intro m hm
    obtain ⟨i, hi, rfl⟩ := List.mem_mapIdx.mp hm
    match i, hi with
    | 0, _ | 1, _ | 2, _ => exact ⟨_, rfl⟩
  obtain ⟨ms, hvalidate, hcopies, hmap⟩ :=
    toItself_copies goods hvariants ⟨.strict, .normalized, .error⟩ hnames "Row" "Row"
  exact ⟨hvariants, hnames, hreads, ms, hvalidate, hcopies, hmap started ⟨[]⟩ hreads⟩

end Provider

end Crosswalk
