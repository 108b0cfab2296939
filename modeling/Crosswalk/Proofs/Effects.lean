import Crosswalk.Proofs.PairingSoundness
import Crosswalk.Proofs.Storage

/-!
# What a transformation leaves

The target members of validated mappings are listed at different positions
(`Configuration.targets_sublist`), so between distinct members no mapping writes over what
another one wrote. A transformation that succeeds leaves the produced values in the mapped
members and everything else as it was, and a second run changes nothing
(`Configuration.effect_of_transform`).
-/

namespace Crosswalk

variable {σ : Type}

/-- What a transformation from `s` made of the target `t`. -/
structure Provider.Effect (p : Provider) (ms : List (Mapping σ p.Owner)) (s : σ)
    (t t' : p.Owner) : Prop where
  /-- Each mapped member reads as the value that its mapping gives. -/
  mapped : ∀ m ∈ ms, ∃ v, m.produce s = .ok v ∧ m.target.read t' = .ok v
  unmapped : ∀ b ∈ p.members, b ∉ ms.map Mapping.target → b.read t' = b.read t
  /-- What is stored elsewhere stays, such as the other keys of a record. -/
  outside : p.AgreeOutside (ms.map fun m => m.target.slot) t t'
  again : transform ms s t' = (.ok (), t')

/-- A transformation to members of a provider changes nothing outside the slots it fills. -/
theorem Provider.agreeOutside_of_transform {p : Provider} {ms : List (Mapping σ p.Owner)}
    (htarget : ∀ m ∈ ms, m.target ∈ p.members) {s : σ} {t t' : p.Owner} (hspans : p.Spans t)
    (h : transform ms s t = (.ok (), t')) :
    p.AgreeOutside (ms.map fun m => m.target.slot) t t' := by
  have hstart : p.AgreeOutside (ms.map fun m => m.target.slot) t t ∧ p.Spans t :=
    ⟨.refl _ t, hspans⟩
  refine (transform_induction (P := fun t₁ => p.AgreeOutside _ t t₁ ∧ p.Spans t₁) ?_ h hstart).1
  rintro m hm v - t₁ t₂ hwrite ⟨hagree, hroom⟩
  have hslot : m.target.slot ∈ ms.map fun m => m.target.slot := List.mem_map_of_mem hm
  have hstep := agreeOutside_of_write (htarget m hm) hslot hroom hwrite
  exact ⟨hagree.trans hstep.1, hstep.2⟩

namespace Configuration

/-- The mappings of a validated configuration fill listed target members, in their order. -/
theorem targets_sublist {τ : Type} {c : Configuration σ τ} {ms : List (Mapping σ τ)}
    (h : c.validate = .ok ms) : (ms.map Mapping.target).Sublist c.targetMembers := by
  obtain ⟨r, sources, targets, placed, left, -, rfl, hwalked⟩ := exists_placed_of_validate h
  have hlisted := hwalked.pairs.sublist.map Prod.snd
  rw [positioned_map_snd, List.map_map] at hlisted
  rwa [List.map_map]

variable {p : Provider} {c : Configuration σ p.Owner} {ms : List (Mapping σ p.Owner)}

theorem target_mem (hmembers : c.targetMembers = p.members) (h : c.validate = .ok ms) :
    ∀ m ∈ ms, m.target ∈ p.members := fun _ hm =>
  hmembers ▸ (targets_sublist h).subset (List.mem_map_of_mem hm)

/-- Different mappings to distinct members fill different slots. -/
theorem eq_of_slot_eq (hmembers : c.targetMembers = p.members) (hdistinct : p.Distinct)
    (h : c.validate = .ok ms) {m n : Mapping σ p.Owner} (hm : m ∈ ms) (hn : n ∈ ms)
    (hslot : m.target.slot = n.target.slot) : m = n := by
  have hnodup : (ms.map fun m => m.target.slot).Nodup := by
    have hslots := (hmembers ▸ targets_sublist h).map Member.slot
    rw [List.map_map] at hslots
    exact (Provider.nodup_slots hdistinct).sublist hslots
  exact List.inj_on_of_nodup_map hnodup hm hn hslot

/-- No mapping to distinct members writes over what one of them wrote. -/
theorem keeps_of_validate (hmembers : c.targetMembers = p.members) (hdistinct : p.Distinct)
    (h : c.validate = .ok ms) {s : σ} : ∀ m ∈ ms, ∀ n ∈ ms, ∀ v w, m.produce s = .ok v →
      n.produce s = .ok w → n.target.Keeps w m.target v := by
  intro m hm n hn v w hv hw
  have hmt := target_mem hmembers h m hm
  by_cases hslot : m.target.slot = n.target.slot
  · -- One and the same mapping writes the same value again.
    obtain rfl := eq_of_slot_eq hmembers hdistinct h hm hn hslot
    obtain rfl := Except.ok.inj (hv.symm.trans hw)
    exact (Provider.retains _ hmt).keeps_self v
  · exact Provider.keeps_of_slot_ne (target_mem hmembers h n hn) hmt (Ne.symm hslot) w v

/-- A transformation that succeeds puts the produced values into the mapped members, leaves
everything else as it was, and leaves nothing to do for a second run. -/
theorem effect_of_transform (hmembers : c.targetMembers = p.members) (hdistinct : p.Distinct)
    (hvalidate : c.validate = .ok ms) {s : σ} {t t' : p.Owner} (hspans : p.Spans t)
    (h : transform ms s t = (.ok (), t')) : p.Effect ms s t t' := by
  have htarget := target_mem hmembers hvalidate
  have hretains : ∀ m ∈ ms, m.target.Retains := fun m hm => Provider.retains _ (htarget m hm)
  have hheld := holds_of_transform hretains (keeps_of_validate hmembers hdistinct hvalidate) h
  have houtside := Provider.agreeOutside_of_transform htarget hspans h
  refine ⟨fun m hm => ?_, fun b hb hfree => ?_, houtside, transform_of_holds hheld⟩
  · obtain ⟨v, hv, hholds⟩ := hheld m hm
    exact ⟨v, hv, (hretains m hm).read hholds⟩
  · refine houtside.read_eq hb fun hslot => ?_
    obtain ⟨m, hm, hsame⟩ := List.mem_map.mp hslot
    have heq : m.target = b :=
      List.inj_on_of_nodup_map (Provider.nodup_slots hdistinct) (htarget m hm) hb hsame
    exact hfree (heq ▸ List.mem_map_of_mem hm)

/-- The members of the entries in the ledger. -/
def ledgerEntries : Provider :=
  .record ⟨"Entry", [⟨"ID", .int .i64⟩, ⟨"Memo", .nullable .string⟩, ⟨"Page", .int .u8⟩]⟩

/-- A line of the ledger. -/
def paid : Record := .ofList [("Id", .int .i32 (IntKind.i32.wrap 3)), ("Note", .str "paid")]

/-- An entry with a page, and with a key that is no column. -/
def begun : Record := .ofList [("Page", .int .u8 (IntKind.u8.wrap 9)), ("Total", .bool true)]

theorem effect_of_transform_ledger : ∃ ms t', ledger.targetMembers = ledgerEntries.members ∧
    ledgerEntries.Distinct ∧ ledger.validate = .ok ms ∧ ledgerEntries.Spans begun ∧
    transform ms paid begun = (.ok (), t') ∧ ledgerEntries.Effect ms paid begun t' := by
  have hdistinct : ledgerEntries.Distinct := by
    show (List.map Column.name _).Nodup
    decide
  exact ⟨_, _, rfl, hdistinct, rfl, trivial, rfl,
    effect_of_transform (c := ledger) rfl hdistinct rfl trivial rfl⟩

end Configuration

end Crosswalk
