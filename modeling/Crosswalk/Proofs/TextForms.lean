import Crosswalk.Json.Policies
import Crosswalk.Proofs.JsonTrees

/-!
# Text forms of values, records, rows and options

A value that is no floating-point number is read from the text that is written of it, and so is a
record or a row of such values (`textForms_roundTrip`). The text is read as the tree that was
written (`Json.parse?_render`); it is left to read what the tree says. An integer is in the range
of its kind, so 64 bits hold it (`Json.integer?_ofInt`), and a tag is read from its name
(`ValueTag.ofName?_name`). The entries of a record stand in the order of their keys, and each is
put behind those before it (`Record.ofList_entries`).

Floating-point numbers stay out: an infinity or no number is written as null. Options are read from
their text without exception (`MappingOptions.roundTrips`).
-/

namespace Crosswalk

open Decimal

/-- What satisfies `p` is read from its text; where a text is read as such, or not read at all,
writing what was read and reading it again changes nothing. -/
structure RoundTrips {α : Type} (render : α → String) (parse? : String → Option α) (p : α → Prop) :
    Prop where
  reads_back : ∀ x, p x → parse? (render x) = some x
  reread : ∀ s, (∀ x ∈ parse? s, p x) → ((parse? s).map render).bind parse? = parse? s

/-- A text form by way of trees, which the text says. -/
theorem RoundTrips.of_json {α : Type} {toJson : α → Json} {ofJson? : Json → Option α}
    {p : α → Prop} (hlegible : ∀ x, p x → (toJson x).Legible)
    (htree : ∀ x, p x → ofJson? (toJson x) = some x) :
    RoundTrips (fun x => (toJson x).render) (fun s => (Json.parse? s).bind ofJson?) p := by
  have hback (x : α) (hx : p x) : (Json.parse? (toJson x).render).bind ofJson? = some x := by
    rw [Json.parse?_render (hlegible x hx), Option.bind_some, htree x hx]
  refine ⟨hback, fun s hs => ?_⟩
  cases hread : (Json.parse? s).bind ofJson? with
  | none => rfl
  | some x => exact hback x (hs x hread)

/-! ## Integers -/

namespace IntKind

variable {k : IntKind} {n : Int}

/-- A negative integer of a kind is one of 64 bits with a sign. -/
theorem InRange.i64 (h : k.InRange n) (hn : n < 0) : IntKind.i64.InRange n := by
  have hleast : IntKind.i64.least ≤ k.least := by cases k <;> decide
  have hgreatest : 0 ≤ IntKind.i64.greatest := by decide
  exact ⟨Int.le_trans hleast h.1, by omega⟩

/-- Any other integer of a kind is one of 64 bits without a sign. -/
theorem InRange.u64 (h : k.InRange n) (hn : 0 ≤ n) : IntKind.u64.InRange n := by
  have hgreatest : k.greatest ≤ IntKind.u64.greatest := by cases k <;> decide
  exact ⟨hn, Int.le_trans h.2 hgreatest⟩

end IntKind

namespace Json

/-- An integer of any kind is read back from its numeral. -/
theorem integer?_ofInt {k : IntKind} {n : Int} (h : k.InRange n) :
    integer? (.ofInt n) = some n := by
  have hdigits : Text.natOfDigits 0 (Nat.toDigits 10 n.natAbs) = n.natAbs :=
    Nat.ofDigitChars_ten_toDigits
  have hplain : (([] : List Char).isEmpty && (none : Option Int).isNone) = true := rfl
  simp only [integer?, Numeral.ofInt, hdigits]
  rw [if_pos hplain]
  by_cases hneg : n < 0
  · have hvalue : -(n.natAbs : Int) = n := by omega
    have hrange : 0 < (n.natAbs : Int) ∧ IntKind.i64.InRange n := ⟨by omega, h.i64 hneg⟩
    rw [if_pos (decide_eq_true hneg), hvalue, if_pos hrange]
  · have hvalue : (n.natAbs : Int) = n := by omega
    have hrange : IntKind.u64.InRange n := h.u64 (Int.not_lt.mp hneg)
    rw [if_neg (mt of_decide_eq_true hneg), hvalue, if_pos hrange]

theorem toElem?_int {k : IntKind} (n : k.Elem) : toElem? k (.int n.1) = some n := by
  rw [int, toElem?, integer?_ofInt n.2, Option.bind_some, IntKind.ofInt?_val]

end Json

/-! ## Values -/

/-- A tag is read back from its name. -/
theorem ValueTag.ofName?_name (t : ValueTag) : ofName? t.name = some t := by
  cases t with
  | int k => cases k <;> rfl
  | float k => cases k <;> rfl
  | _ => rfl

namespace Value

/-- The value is a floating-point number. -/
def isFloat : Value → Bool
  | float _ _ => true
  | _ => false

variable {v : Value}

/-- A value is read back from its content by its tag. -/
theorem read?_content (hv : v.isFloat = false) : v.tag.read? v.content = some v := by
  cases v with
  | null | bool | str => rfl
  | char c => simp [tag, content, Json.text, ValueTag.read?]
  | int k n => simp [tag, content, ValueTag.read?, Json.toElem?_int]
  | float => cases hv
  | enum d => simp [tag, content, ValueTag.read?, Json.toElem?_int]

theorem ofJson?_toJson (hv : v.isFloat = false) : ofJson? v.toJson = some v := by
  have hread (content : Option Json) :
      ofTagged? (some v.tag.name) content = v.tag.read? content := by
    rw [ofTagged?, Option.bind_some, ValueTag.ofName?_name, Option.bind_some]
  rw [← read?_content hv, ← hread, toJson]
  cases v.content <;> rfl

theorem legible_toJson (hv : v.isFloat = false) : v.toJson.Legible := by
  refine .object fun f hf => ?_
  rcases List.mem_cons.mp hf with rfl | hf
  · exact .string _
  · cases v with
    | null => cases hf
    | float => cases hv
    | bool b =>
      obtain rfl := List.mem_singleton.mp hf
      exact .bool b
    | char | str =>
      obtain rfl := List.mem_singleton.mp hf
      exact .string _
    | int | enum =>
      obtain rfl := List.mem_singleton.mp hf
      exact .number (Numeral.legible_ofInt _)

end Value

/-! ## Records and rows -/

/-- A list is read back item by item. -/
theorem mapM_map_eq_some {α β : Type} {f : α → β} {g : β → Option α} {xs : List α}
    (h : ∀ x ∈ xs, g (f x) = some x) : (xs.map f).mapM g = some xs := by
  induction xs with
  | nil => rfl
  | cons x xs ih =>
    obtain ⟨hx, hxs⟩ := List.forall_mem_cons.mp h
    rw [List.map_cons, List.mapM_cons, hx, ih hxs]
    rfl

namespace Record

/-- No value of the record is a floating-point number. -/
def Floatless (r : Record) : Prop := ∀ e ∈ r.entries, e.2.isFloat = false

/-- A key behind all others is put at the end. -/
theorem insertEntry_of_forall_lt {key : String} {v : Value} {es : List (String × Value)}
    (h : ∀ e ∈ es, e.1 < key) : insertEntry key v es = es ++ [(key, v)] := by
  induction es with
  | nil => rfl
  | cons e es ih =>
    obtain ⟨he, hes⟩ := List.forall_mem_cons.mp h
    have hne : key ≠ e.1 := fun heq => String.lt_irrefl key (heq ▸ he)
    rw [insertEntry, if_neg (String.lt_asymm he), if_neg hne, ih hes, List.cons_append]

/-- Entries behind those of a record, in the order of their keys, are put behind them. -/
theorem entries_foldl_set {r : Record} {es : List (String × Value)}
    (h : (r.entries ++ es).Pairwise fun a b => a.1 < b.1) :
    (es.foldl (fun r e => r.set e.1 e.2) r).entries = r.entries ++ es := by
  induction es generalizing r with
  | nil => exact (List.append_nil _).symm
  | cons e es ih =>
    have hlast : ∀ d ∈ r.entries, d.1 < e.1 := fun d hd =>
      (List.pairwise_append.mp h).2.2 d hd e List.mem_cons_self
    have hset : (r.set e.1 e.2).entries = r.entries ++ [e] := insertEntry_of_forall_lt hlast
    have happend : r.entries ++ e :: es = (r.set e.1 e.2).entries ++ es := by
      rw [hset, List.append_assoc, List.singleton_append]
    rw [happend] at h ⊢
    exact ih h

theorem eq_of_entries {r s : Record} (h : r.entries = s.entries) : r = s := by
  cases r
  cases s
  cases h
  rfl

/-- A record is rebuilt from its entries, which are in order. -/
theorem ofList_entries (r : Record) : ofList r.entries = r :=
  eq_of_entries (@entries_foldl_set empty r.entries r.sorted)

theorem ofJson?_toJson {r : Record} (hr : r.Floatless) : ofJson? r.toJson = some r := by
  have hentries : (r.entries.map fun e => (some e.1, e.2.toJson)).mapM entryOfField? =
      some r.entries := by
    refine mapM_map_eq_some fun e he => ?_
    rw [entryOfField?, Option.bind_some, Value.ofJson?_toJson (hr e he), Option.map_some]
  show (List.mapM entryOfField? _).map ofList = _
  rw [hentries, Option.map_some, ofList_entries]

theorem legible_toJson {r : Record} (hr : r.Floatless) : r.toJson.Legible := by
  refine .object fun f hf => ?_
  obtain rfl := List.mem_singleton.mp hf
  refine .object fun f hf => ?_
  obtain ⟨e, he, rfl⟩ := List.mem_map.mp hf
  exact Value.legible_toJson (hr e he)

end Record

namespace Row

/-- No cell of the row is a floating-point number. -/
def Floatless (r : Row) : Prop := ∀ v ∈ r.cells, v.isFloat = false

theorem ofJson?_toJson {r : Row} (hr : r.Floatless) : ofJson? r.toJson = some r := by
  have hcells : (r.cells.map Value.toJson).mapM Value.ofJson? = some r.cells :=
    mapM_map_eq_some fun v hv => Value.ofJson?_toJson (hr v hv)
  show (List.mapM Value.ofJson? _).map _ = _
  rw [hcells, Option.map_some]

theorem legible_toJson {r : Row} (hr : r.Floatless) : r.toJson.Legible := by
  refine .object fun f hf => ?_
  obtain rfl := List.mem_singleton.mp hf
  refine .array fun j hj => ?_
  obtain ⟨v, hv, rfl⟩ := List.mem_map.mp hj
  exact Value.legible_toJson (hr v hv)

end Row

/-- Values, records and rows are read from their texts, floating-point numbers apart. -/
theorem textForms_roundTrip :
    RoundTrips Value.render Value.parse? (fun v => v.isFloat = false) ∧
      RoundTrips Record.render Record.parse? Record.Floatless ∧
      RoundTrips Row.render Row.parse? Row.Floatless :=
  ⟨.of_json (fun _ => Value.legible_toJson) fun _ => Value.ofJson?_toJson,
    .of_json (fun _ => Record.legible_toJson) fun _ => Record.ofJson?_toJson,
    .of_json (fun _ => Row.legible_toJson) fun _ => Row.ofJson?_toJson⟩

/-- A text with a line break, under a key with a quote. -/
example : (Record.empty.set "a\"b" (.str "c\n")).render =
    "\x7b\"values\":\x7b\"a\\\"b\":\x7b\"kind\":\"Str\",\"value\":\"c\\n\"\x7d\x7d\x7d" := by
  decide

/-! ## Options -/

namespace MappingOptions

theorem ofJson?_toJson (o : MappingOptions) : ofJson? o.toJson = some o := by
  obtain ⟨mode, comparer, behavior⟩ := o
  have hmode : MappingMode.ofJson? (.text mode.name) = some mode := by cases mode <;> rfl
  have hcomparer : NameComparer.ofJson? (.text comparer.name) = some comparer := by
    cases comparer <;> rfl
  have hbehavior : NullableBehavior.ofJson? (.text behavior.name) = some behavior := by
    cases behavior <;> rfl
  show (MappingMode.ofJson? _).bind (fun m => (NameComparer.ofJson? _).bind fun c =>
    (NullableBehavior.ofJson? _).bind fun b => some (⟨m, c, b⟩ : MappingOptions)) = _
  rw [hmode, Option.bind_some, hcomparer, Option.bind_some, hbehavior, Option.bind_some]

/-- Options are read from their text, whatever they are. -/
theorem roundTrips : RoundTrips render parse? fun _ => True := by
  refine .of_json (fun o _ => .object fun f hf => ?_) fun o _ => ofJson?_toJson o
  simp only [List.mem_cons, List.not_mem_nil, or_false] at hf
  rcases hf with rfl | rfl | rfl <;> exact .string _

end MappingOptions

end Crosswalk
