import Crosswalk.Proofs.CacheRuns
import Crosswalk.Proofs.Interchange
import Crosswalk.Proofs.PairingSoundness

/-!
# A cache is seen in owner labels only

A cache answers with a list that was asked for since its last clear and equals the one asked
for now, though it may come from another configuration. Where equal parts of the mappings
asked for work alike, it carries out the transformation of the list asked for now, up to the
owner label of a failure (`Cache.agree_of_validate`).
-/

namespace Crosswalk

/-- The mappings of a validated configuration are able, and fill target members of it. -/
theorem Configuration.able_of_validate {σ τ : Type} {c : Configuration σ τ}
    {ms : List (Mapping σ τ)} (h : c.validate = .ok ms) :
    ∀ m ∈ ms, m.Able ∧ m.target ∈ c.targetMembers := by
  obtain ⟨r, sources, targets, placed, left, -, rfl, hwalked⟩ := exists_placed_of_validate h
  intro m hm
  obtain ⟨p, hp, rfl⟩ := List.mem_map.mp hm
  exact ⟨hwalked.able hp, List.mem_of_getElem? (hwalked.target_eq hp)⟩

namespace Cache

variable {C : Catalog} {s t : C.Key} {ms : List (Mapping (C.Owner s) (C.Owner t))}

/-- A request that does not fail is answered with the first of the equal lists asked for since
the last clear. -/
theorem exists_first (identity : Nat) (calls : List (Call C)) {a : Ask C s t}
    (h : a.list = .ok ms) : ∃ p, (((empty C identity).after calls).answer a).1 = .ok p ∧
      (p.mappings == ms) = true ∧ (Call.requests (calls ++ [.ask s t a])).find?
        (· == ⟨s, t, ms⟩) = some ⟨s, t, p.mappings⟩ := by
  obtain ⟨p, cache', hanswer, hholds, hmem, hsame⟩ := (holds_after identity calls).answer h
  rw [Call.requests_ask calls h]
  exact ⟨p, by rw [hanswer], hsame, hholds.find?_requests hmem hsame⟩

/-- What is answered for the list of a validated configuration works like the list itself. -/
theorem agree_of_validate (identity : Nat) (calls : List (Call C)) {a : Ask C s t}
    {k : Configuration (C.Owner s) (C.Owner t)} (ha : a.list = .ok ms) (hk : k.validate = .ok ms)
    (hconsistent : Consistent (Call.mappings (calls ++ [.ask s t a]) s t)) :
    ∃ p, (((empty C identity).after calls).answer a).1 = .ok p ∧
      ∀ u x y, Agree (p.run u x y).1 (transform ms x y) := by
  obtain ⟨p, hp, hsame, hfirst⟩ := exists_first identity calls ha
  have hrequested := List.mem_of_find?_eq_some hfirst
  have hasked : ⟨s, t, ms⟩ ∈ Call.requests (calls ++ [.ask s t a]) := by
    rw [Call.requests_ask calls ha]
    exact List.mem_append_right _ (List.mem_singleton.mpr rfl)
  refine ⟨p, hp, fun _ x y => ?_⟩
  exact hconsistent.agree hsame (fun _ hm => Call.mem_mappings hrequested hm)
    (fun _ hn => Call.mem_mappings hasked hn)
    (fun n hn => (Configuration.able_of_validate hk n hn).1) x y

/-- Records alone, with no registered members. -/
def records : Catalog where
  Key := Unit
  keyEq := inferInstance
  Owner _ := Record
  typeName _ := "Record"
  members _ := []

/-- Counts written in lines into numbers. -/
def counted (owner : String) : Configuration Record Record :=
  let lines : RecordSchema := ⟨"Line", [⟨"Count", .string⟩]⟩
  let counts : RecordSchema := ⟨owner, [⟨"Count", .int .i32⟩]⟩
  .new "Line" owner lines.members counts.members

/-- The counts of one schema are asked for. -/
def alphaBuilt : List (Call records) := [.ask () () (.build (counted "Alpha"))]

/-- The request for the counts of another schema. -/
def betaAsked : Ask records () () := .build (counted "Beta")

theorem consistent_counted :
    Consistent (Call.mappings (alphaBuilt ++ [.ask () () betaAsked]) () ()) := by
  have hmembers (m : Mapping Record Record)
      (hm : m ∈ Call.mappings (C := records) (alphaBuilt ++ [.ask () () betaAsked]) () ()) :
      (∃ owner col, m.source = .member (RecordSchema.memberOf owner col)) ∧
        ∃ owner col, m.target = RecordSchema.memberOf owner col := by
    rcases List.mem_cons.mp hm with rfl | hm
    · exact ⟨⟨_, _, rfl⟩, _, _, rfl⟩
    · obtain rfl := List.mem_singleton.mp hm
      exact ⟨⟨_, _, rfl⟩, _, _, rfl⟩
  exact RecordSchema.consistent (fun m hm => (hmembers m hm).1) fun m hm => (hmembers m hm).2

/-- The list of the one schema is answered for the other, and works alike. -/
theorem agree_of_validate_counted : ∃ ms p, (counted "Beta").validate = .ok ms ∧
    (((empty records 0).after alphaBuilt).answer betaAsked).1 = .ok p ∧
    p.mappings.map (fun m => m.target.owner) = ["Alpha"] ∧
    ∀ u x y, Agree (p.run u x y).1 (transform ms x y) := by
  obtain ⟨ms, hms⟩ : ∃ ms, (counted "Beta").validate = .ok ms := ⟨_, rfl⟩
  obtain ⟨p, hp, hagree⟩ := agree_of_validate 0 alphaBuilt (a := betaAsked) hms hms
    consistent_counted
  cases hp
  exact ⟨ms, _, hms, rfl, rfl, hagree⟩

end Cache

end Crosswalk
