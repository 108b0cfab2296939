import Crosswalk.Column

/-!
# Records

A record is a finite map from keys to values, kept in the order of its keys. A schema
declares some keys as columns and makes a member of each.
-/

namespace Crosswalk

/-- A finite map from keys to values, as a list in strictly increasing order of the keys. -/
structure Record where
  entries : List (String × Value)
  sorted : entries.Pairwise fun a b => a.1 < b.1

namespace Record

/-- The record without keys. -/
def empty : Record := ⟨[], .nil⟩

instance : Inhabited Record := ⟨empty⟩

/-- The value under a key. -/
def get? (r : Record) (key : String) : Option Value :=
  (r.entries.find? fun e => e.1 == key).map Prod.snd

/-- The entries with a value put under a key. -/
def insertEntry (key : String) (v : Value) : List (String × Value) → List (String × Value)
  | [] => [(key, v)]
  | e :: es =>
    if key < e.1 then (key, v) :: e :: es
    else if key = e.1 then (key, v) :: es
    else e :: insertEntry key v es

theorem mem_insertEntry {key : String} {v : Value} {es : List (String × Value)}
    {e : String × Value} (h : e ∈ insertEntry key v es) : e = (key, v) ∨ e ∈ es := by
  induction es with
  | nil => simpa [insertEntry] using h
  | cons d ds ih =>
    unfold insertEntry at h
    split at h
    · simpa using h
    · split at h
      · rcases List.mem_cons.mp h with h | h
        · exact .inl h
        · exact .inr (List.mem_cons_of_mem _ h)
      · rcases List.mem_cons.mp h with h | h
        · exact .inr (h ▸ List.mem_cons_self)
        · exact (ih h).imp_right (List.mem_cons_of_mem _)

/-- The entries stay sorted by their keys. -/
theorem sorted_insertEntry (key : String) (v : Value) {es : List (String × Value)}
    (h : es.Pairwise fun a b => a.1 < b.1) :
    (insertEntry key v es).Pairwise fun a b => a.1 < b.1 := by
  induction es with
  | nil => simp [insertEntry]
  | cons d ds ih =>
    obtain ⟨hd, hds⟩ := List.pairwise_cons.mp h
    unfold insertEntry
    split
    · next hlt =>
      refine List.pairwise_cons.mpr ⟨fun e he => ?_, h⟩
      rcases List.mem_cons.mp he with rfl | he
      · exact hlt
      · exact String.lt_trans hlt (hd e he)
    · split
      · next heq => exact List.pairwise_cons.mpr ⟨fun e he => heq ▸ hd e he, hds⟩
      · next hlt hne =>
        refine List.pairwise_cons.mpr ⟨fun e he => ?_, ih hds⟩
        rcases mem_insertEntry he with rfl | he
        · refine Decidable.byContradiction fun hgt => hne ?_
          exact String.le_antisymm (String.not_lt.mp hgt) (String.not_lt.mp hlt)
        · exact hd e he

/-- The record with a value put under a key. -/
def set (r : Record) (key : String) (v : Value) : Record :=
  ⟨insertEntry key v r.entries, sorted_insertEntry key v r.sorted⟩

/-- The new entry is found by its key, and the others by theirs. -/
theorem find?_insertEntry (key key' : String) (v : Value) (es : List (String × Value)) :
    ((insertEntry key v es).find? fun e => e.1 == key') =
      if key' = key then some (key, v) else es.find? fun e => e.1 == key' := by
  by_cases h : key' = key
  · subst h
    induction es with
    | nil => simp [insertEntry]
    | cons e es ih =>
      unfold insertEntry
      split
      · simp
      · split
        · simp
        · next hne => simpa [Ne.symm hne] using ih
  · induction es with
    | nil => simp [insertEntry, h, Ne.symm h]
    | cons e es ih =>
      unfold insertEntry
      split
      · simp [Ne.symm h]
      · split
        · next heq => simp [Ne.symm h, ← heq]
        · simp only [List.find?_cons, ih, if_neg h]

/-- A key that is set holds the value, and other keys hold what they held. -/
theorem get?_set (r : Record) (key key' : String) (v : Value) :
    (r.set key v).get? key' = if key' = key then some v else r.get? key' := by
  unfold get? set
  rw [find?_insertEntry]
  split <;> rfl

/-- Putting a value that is held changes nothing. -/
theorem insertEntry_of_mem {key : String} {v : Value} {es : List (String × Value)}
    (h : es.Pairwise fun a b => a.1 < b.1) (hmem : (key, v) ∈ es) : insertEntry key v es = es := by
  induction es with
  | nil => cases hmem
  | cons e es ih =>
    obtain ⟨he, hes⟩ := List.pairwise_cons.mp h
    rcases List.mem_cons.mp hmem with rfl | hmem
    · rw [insertEntry, if_neg (String.lt_irrefl key), if_pos rfl]
    · have hlt : e.1 < key := he _ hmem
      have hne : key ≠ e.1 := fun heq => String.lt_irrefl key (heq ▸ hlt)
      simp [insertEntry, String.lt_asymm hlt, hne, ih hes hmem]

theorem set_of_get? {r : Record} {key : String} {v : Value} (h : r.get? key = some v) :
    r.set key v = r := by
  obtain ⟨e, he, rfl⟩ := Option.map_eq_some_iff.mp h
  have hkey : e.1 = key := by simpa using List.find?_some he
  have hmem : (key, e.2) ∈ r.entries := hkey ▸ List.mem_of_find?_eq_some he
  simp only [set, insertEntry_of_mem r.sorted hmem]

/-- The record without a key. -/
def erase (r : Record) (key : String) : Record :=
  ⟨r.entries.filter fun e => e.1 != key, r.sorted.filter _⟩

/-- The number of keys. -/
def size (r : Record) : Nat := r.entries.length

/-- The record has no key. -/
def isEmpty (r : Record) : Bool := r.entries.isEmpty

/-- The record with an element of a carrier put under a key. -/
def setElem (r : Record) (key : String) (c : Carrier) (x : c.Elem) : Record :=
  r.set key (c.toValue x)

/-- The record in which the last of the entries under a key counts. -/
def ofList (es : List (String × Value)) : Record :=
  es.foldl (fun r e => r.set e.1 e.2) empty

end Record

/-- Declared columns of records. -/
structure RecordSchema where
  /-- The owner in diagnostics. -/
  name : String
  columns : List Column

namespace RecordSchema

/-- The member of a column. -/
def memberOf (owner : String) (c : Column) : Member Record :=
  .accessor owner c.name (.key c.name) c.type
    (some fun r => checkedRead c.type (r.get? c.name))
    (some (checkedWrite c.type fun v r => r.set c.name v))

/-- A member for each column, in order. -/
def members (s : RecordSchema) : List (Member Record) := s.columns.map (memberOf s.name)

end RecordSchema

end Crosswalk
