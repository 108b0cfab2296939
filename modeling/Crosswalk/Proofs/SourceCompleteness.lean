import Crosswalk.Proofs.Binding
import Crosswalk.Proofs.PairingSoundness

/-!
# Which source members are read

A mode that needs all source members compares names: some mapping reads a member of the
normalized name of each eligible source member. That member is the eligible one unless the
mapping reads an ignored member of that name, which an override may
(`Configuration.reads_iff_of_validate`).
-/

namespace Crosswalk

variable {σ τ : Type}

namespace Configuration

/-- A listed source member that is readable and not ignored. -/
def Eligible (c : Configuration σ τ) (r : Replay σ) (a : Member σ) : Prop :=
  ∃ k, c.sourceMembers[k]? = some a ∧ a.canRead = true ∧ r.ignoresSource k = false

variable {c : Configuration σ τ} {r : Replay σ} {placed : List (Placed σ τ)}

theorem eligible_iff {a : Member σ} : c.Eligible r a ↔ ∃ k, (k, a) ∈ c.eligibleSources r := by
  simp only [Eligible, mem_eligibleSources]

theorem mem_readNames {key : String} : key ∈ c.readNames r placed ↔
    ∃ p ∈ placed, (r.override? p.1).isSome = true ∧
      ∃ s ∈ p.2.source.reads, c.keyOf s = key := by
  simp only [readNames, List.mem_flatMap]
  refine exists_congr fun p => and_congr_right fun _ => ?_
  split <;> simp [*]

namespace Walked

variable {sources left : List (IndexEntry σ)} {targets : List (IndexEntry τ)}

/-- The mappings read source members only. -/
theorem mem_of_reads (h : c.Walked r sources targets placed left) {p : Placed σ τ}
    (hp : p ∈ placed) {s : Member σ} (hs : s ∈ p.2.source.reads) : s ∈ c.sourceMembers := by
  cases h.pairs.fills p hp with
  | override _ hb => exact mem_of_resolveBinding hb hs
  | pair _ _ _ _ he _ hsource =>
    rw [hsource, Computation.reads, List.mem_singleton] at hs
    have hlisted := mem_eligibleSources.mp (h.sourceIndex.listed _ he)
    exact hs ▸ List.mem_of_getElem? hlisted.1

/-- What equals an eligible source member and is read is eligible itself, since members of
one name are ignored together. -/
theorem eligible_of_beq (h : c.Walked r sources targets placed left) {p : Placed σ τ}
    (hp : p ∈ placed) {s a : Member σ} (hs : s ∈ p.2.source.reads) (ha : c.Eligible r a)
    (hsame : (s == a) = true) : c.Eligible r s := by
  obtain ⟨i, hi, hread, hadmitted⟩ := ha
  obtain ⟨j, hj⟩ := List.mem_iff_getElem?.mp (h.mem_of_reads hp hs)
  refine ⟨j, hj, (Member.canRead_eq_of_beq hsame).trans hread, ?_⟩
  rw [h.regular.byName j i s a hj hi (Member.name_eq_of_beq hsame), hadmitted]

/-- Eligible source members of one normalized name are equal. -/
theorem beq_of_keyOf_eq (h : c.Walked r sources targets placed left) {s a : Member σ}
    (hs : c.Eligible r s) (ha : c.Eligible r a) (hkey : c.keyOf s = c.keyOf a) :
    (s == a) = true := by
  obtain ⟨i, hi⟩ := eligible_iff.mp hs
  obtain ⟨j, hj⟩ := eligible_iff.mp ha
  exact h.sourceIndex.beq_of_normalize_eq hi hj hkey

/-- Each eligible source member is paired by name, or an override reads its name. -/
theorem name_read (h : c.Walked r sources targets placed left)
    (hmode : c.options.mode.requiresAllSources = true) {a : Member σ} (ha : c.Eligible r a) :
    ∃ p ∈ placed, ∃ s ∈ p.2.source.reads, c.keyOf s = c.keyOf a := by
  obtain ⟨k, hk⟩ := eligible_iff.mp ha
  obtain ⟨e, he, -, hsame⟩ := h.sourceIndex.covers _ hk
  have hkey : c.keyOf e.member = c.keyOf a := by
    rw [keyOf, keyOf, Member.name_eq_of_beq hsame]
  rcases h.pairs.left_or_paired h.sourceIndex.distinct e he with hleft | ⟨p, hp, -, hsource⟩
  · obtain ⟨p, hp, -, s, hs, hskey⟩ := mem_readNames.mp (h.leftRead hmode e hleft)
    refine ⟨p, hp, s, hs, ?_⟩
    rw [hskey, h.sourceIndex.key e he]
    exact hkey
  · refine ⟨p, hp, e.member, ?_, hkey⟩
    rw [hsource]
    exact List.mem_singleton.mpr rfl

end Walked

/-- In a mode that needs all source members, the name of each eligible one is read; the
member itself is read just when some member read under its name is eligible. -/
theorem reads_iff_of_validate {ms : List (Mapping σ τ)} (hms : c.validate = .ok ms)
    (hr : c.replay = .ok r) (hmode : c.options.mode.requiresAllSources = true) {a : Member σ}
    (ha : c.Eligible r a) :
    (∃ m ∈ ms, ∃ s ∈ m.source.reads, c.keyOf s = c.keyOf a) ∧
      ((∃ m ∈ ms, ∃ s ∈ m.source.reads, (s == a) = true) ↔
        ∃ m ∈ ms, ∃ s ∈ m.source.reads, c.keyOf s = c.keyOf a ∧ c.Eligible r s) := by
  obtain ⟨r', sources, targets, placed, left, hr', rfl, h⟩ := exists_placed_of_validate hms
  obtain rfl : r = r' := Except.ok.inj (hr.symm.trans hr')
  refine ⟨?_, ?_, ?_⟩
  · obtain ⟨p, hp, hread⟩ := h.name_read hmode ha
    exact ⟨p.2, List.mem_map_of_mem hp, hread⟩
  · rintro ⟨m, hm, s, hs, hsame⟩
    obtain ⟨p, hp, rfl⟩ := List.mem_map.mp hm
    refine ⟨p.2, hm, s, hs, ?_, h.eligible_of_beq hp hs ha hsame⟩
    rw [keyOf, keyOf, Member.name_eq_of_beq hsame]
  · rintro ⟨m, hm, s, hs, hkey, heligible⟩
    exact ⟨m, hm, s, hs, h.beq_of_keyOf_eq heligible ha hkey⟩

/-- The note of a line is read, though no entry member has its name. -/
theorem reads_iff_of_validate_ledger : ∃ ms r a, ledger.validate = .ok ms ∧
    ledger.replay = .ok r ∧ ledger.options.mode.requiresAllSources = true ∧
    ledger.Eligible r a ∧ a.name = "Note" ∧
    (∃ m ∈ ms, ∃ s ∈ m.source.reads, ledger.keyOf s = ledger.keyOf a) ∧
      ((∃ m ∈ ms, ∃ s ∈ m.source.reads, (s == a) = true) ↔
        ∃ m ∈ ms, ∃ s ∈ m.source.reads, ledger.keyOf s = ledger.keyOf a ∧
          ledger.Eligible r s) := by
  have heligible : ∃ r a, ledger.replay = .ok r ∧ ledger.Eligible r a ∧ a.name = "Note" :=
    ⟨_, _, rfl, ⟨1, rfl, rfl, rfl⟩, rfl⟩
  obtain ⟨r, a, hr, ha, hname⟩ := heligible
  exact ⟨_, r, a, rfl, hr, rfl, ha, hname, reads_iff_of_validate rfl hr rfl ha⟩

/-- A pair of names that differ in case, one of them ignored and read by an override. -/
def twins : Configuration Record Record :=
  let twin : RecordSchema := ⟨"Twin", [⟨"Id", .int .i32⟩, ⟨"ID", .int .i32⟩]⟩
  let single : RecordSchema := ⟨"Single", [⟨"Id", .int .i32⟩]⟩
  (((new "Twin" "Single" twin.members single.members).withNameComparer .ignoreCase).ignoreSource
    "Id").mapMember "Id" "Id"

/-- The other of the twins is eligible and unread, though the mode needs all source members. -/
theorem twins_unread : ∃ ms r a, twins.validate = .ok ms ∧ twins.replay = .ok r ∧
    twins.options.mode.requiresAllSources = true ∧ twins.Eligible r a ∧ a.name = "ID" ∧
    ¬ ∃ m ∈ ms, ∃ s ∈ m.source.reads, (s == a) = true := by
  refine ⟨_, _, _, rfl, rfl, rfl, ⟨1, rfl, rfl, rfl⟩, rfl, ?_⟩
  rintro ⟨m, hm, s, hs, hsame⟩
  obtain rfl := List.mem_singleton.mp hm
  obtain rfl := List.mem_singleton.mp hs
  cases hsame

end Configuration

end Crosswalk
