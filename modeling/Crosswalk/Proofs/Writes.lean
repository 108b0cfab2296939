import Crosswalk.Proofs.Carriers
import Crosswalk.Proofs.NamedMembers

/-!
# Writing one value after another

Values are written through members of a provider in turn (`Write.after`), also after a write that
fails. A write succeeds with the values of the member's type alone, and one that fails changes
nothing (`Provider.write_cases`). What succeeds is read back through the member and through no
other one. So along the writes a member reads as the last value that was accepted for it, or as it
did at first (`Provider.read_after`), and nothing changes outside the members
(`Provider.agreeOutside_after`).
-/

namespace Crosswalk

variable {σ : Type}

/-- A value to be written through a member. -/
structure Write (σ : Type) where
  member : Member σ
  value : Value

namespace Write

/-- What is left when the writes are carried out in turn, failing ones included. -/
def after : List (Write σ) → σ → σ
  | [], s => s
  | w :: ws, s => after ws (w.member.write w.value s).2

/-- The writes that succeed when they are carried out in turn. -/
def accepted : List (Write σ) → σ → List (Write σ)
  | [], _ => []
  | w :: ws, s =>
    match w.member.write w.value s with
    | (.ok (), s') => w :: accepted ws s'
    | (.error _, s') => accepted ws s'

/-- The value of the last of the writes through the member. -/
def lastTo? (m : Member σ) (ws : List (Write σ)) : Option Value :=
  (ws.filter fun w => w.member == m).getLast?.map value

variable {m : Member σ} {w : Write σ} {ws : List (Write σ)} {s : σ}

/-- A write to the member is the last to it, unless a later one is. -/
theorem lastTo?_cons_of_beq (h : (w.member == m) = true) :
    lastTo? m (w :: ws) = some ((lastTo? m ws).getD w.value) := by
  rw [lastTo?, List.filter_cons, if_pos h, List.getLast?_cons, lastTo?]
  cases (ws.filter fun w => w.member == m).getLast? <;> rfl

theorem lastTo?_cons_of_not_beq (h : ¬(w.member == m) = true) :
    lastTo? m (w :: ws) = lastTo? m ws := by
  rw [lastTo?, List.filter_cons, if_neg h, lastTo?]

/-- What no write breaks, the writes in turn do not break. -/
theorem after_induction {P : σ → Prop}
    (hstep : ∀ w ∈ ws, ∀ s, P s → P (w.member.write w.value s).2) (hs : P s) :
    P (after ws s) := by
  induction ws generalizing s with
  | nil => exact hs
  | cons w ws ih =>
    obtain ⟨hw, hws⟩ := List.forall_mem_cons.mp hstep
    exact ih hws (hw s hs)

end Write

/-! ## One write -/

theorem checkedWrite_of_not_conforms {t : ValueType} {v : Value} (hv : v.conforms t = false)
    (store : Value → σ → σ) (s : σ) : checkedWrite t store v s = (.error (.mismatch t v), s) := by
  rw [checkedWrite, hv, if_neg Bool.false_ne_true, Update.fail]

theorem RecordSchema.write_of_not_conforms (owner : String) {col : Column} {v : Value}
    (hv : v.conforms col.type = false) (r : Record) :
    (memberOf owner col).write v r = (.error (.mismatch col.type v), r) :=
  checkedWrite_of_not_conforms hv (fun v (r : Record) => r.set col.name v) r

theorem RowSchema.write_of_not_conforms (owner : String) {col : Column} (i : Nat) {v : Value}
    (hv : v.conforms col.type = false) (r : Row) :
    (memberOf owner col i).write v r = (.error (.mismatch col.type v), r) :=
  checkedWrite_of_not_conforms hv (fun v (r : Row) => r.set i v) r

theorem StructType.write_of_not_conforms {S : StructType} {name : String}
    {i : Fin S.fields.length} {v : Value} (hv : v.conforms (S.memberOf name i).type = false)
    (s : S.Instance) : ∃ e, (S.memberOf name i).write v s = (.error e, s) := by
  show ∃ e, Member.typedSetter _ (setField i) v s = (.error e, s)
  unfold Member.typedSetter
  cases helem : (S.fields.get i).carrier.ofValue v with
  | error e => exact ⟨e, rfl⟩
  | ok x =>
    have hconforms := Carrier.exists_ofValue_iff.mp ⟨x, helem⟩
    exact absurd (hv.symm.trans hconforms) Bool.false_ne_true

namespace Provider

variable {p : Provider} {m n : Member p.Owner} {ws : List (Write p.Owner)} {s s' : p.Owner}
  {v : Value}

/-- No member takes a value that is not of its type, and none is left half written. -/
theorem rejecting : ∀ m ∈ p.members, ∀ v, v.conforms m.type = false → ∀ s,
    ∃ e, m.write v s = (.error e, s) :=
  forall_mem_members (P := fun {σ} (m : Member σ) => ∀ v, v.conforms m.type = false → ∀ s,
      ∃ e, m.write v s = (.error e, s))
    (fun owner _ _ hv s => ⟨_, RecordSchema.write_of_not_conforms owner hv s⟩)
    (fun owner _ i _ hv s => ⟨_, RowSchema.write_of_not_conforms owner i hv s⟩)
    fun _ _ _ _ hv s => StructType.write_of_not_conforms hv s

/-- A write succeeds with a value of the member's type, and otherwise leaves the owner as it is. -/
theorem write_cases (hm : m ∈ p.members) (v : Value) (s : p.Owner) :
    (v.conforms m.type = true ∧ ∃ s', m.write v s = (.ok (), s')) ∨
      (v.conforms m.type = false ∧ ∃ e, m.write v s = (.error e, s)) := by
  cases hv : v.conforms m.type with
  | true => exact .inl ⟨rfl, accepting m hm v hv s⟩
  | false => exact .inr ⟨rfl, rejecting m hm v hv s⟩

theorem exists_write_iff (hm : m ∈ p.members) :
    (∃ s', m.write v s = (.ok (), s')) ↔ v.conforms m.type = true := by
  rcases write_cases hm v s with ⟨hv, hwrite⟩ | ⟨hv, e, hwrite⟩
  · exact iff_of_true hwrite hv
  · rw [hwrite, hv]
    exact iff_of_false (fun ⟨_, h⟩ => nomatch h) Bool.false_ne_true

/-- A write that fails leaves the owner as it was. -/
theorem eq_of_write_error (hm : m ∈ p.members) {e : AccessError}
    (h : m.write v s = (.error e, s')) : s' = s := by
  rcases write_cases hm v s with ⟨-, s₁, hwrite⟩ | ⟨-, e', hwrite⟩
  · cases hwrite.symm.trans h
  · exact congrArg Prod.snd (h.symm.trans hwrite)

/-- Members of a distinct provider with one slot are one member. -/
theorem slot_inj (hdistinct : p.Distinct) (hm : m ∈ p.members) (hn : n ∈ p.members)
    (h : m.slot = n.slot) : m = n :=
  List.inj_on_of_nodup_map (nodup_slots hdistinct) hm hn h

theorem eq_of_beq (hdistinct : p.Distinct) (hm : m ∈ p.members) (hn : n ∈ p.members)
    (h : (m == n) = true) : m = n := by
  obtain ⟨-, -, -, hslot, -, -⟩ := Member.beq_iff.mp h
  exact slot_inj hdistinct hm hn hslot

theorem read_of_write (hm : m ∈ p.members) (h : m.write v s = (.ok (), s')) : m.read s' = .ok v :=
  (retains m hm).read ((retains m hm).holds h)

/-- A write through one member leaves what another one reads. -/
theorem read_of_write_other (hdistinct : p.Distinct) (hm : m ∈ p.members) (hn : n ∈ p.members)
    (hne : ¬(n == m) = true) (hspans : p.Spans s) (h : n.write v s = (.ok (), s')) :
    m.read s' = m.read s := by
  have hslot : m.slot ∉ [n.slot] := by
    intro hmem
    have hsame : n = m := slot_inj hdistinct hn hm (List.mem_singleton.mp hmem).symm
    exact hne (hsame ▸ BEq.rfl)
  exact (agreeOutside_of_write hn List.mem_cons_self hspans h).1.read_eq hm hslot

/-! ## Writes in turn -/

open Write

/-- The accepted writes are those of conforming values, whatever the owner holds. -/
theorem accepted_eq_filter (hws : ∀ w ∈ ws, w.member ∈ p.members) (s : p.Owner) :
    accepted ws s = ws.filter fun w => w.value.conforms w.member.type := by
  induction ws generalizing s with
  | nil => rfl
  | cons w ws ih =>
    obtain ⟨hw, hws⟩ := List.forall_mem_cons.mp hws
    rcases write_cases hw w.value s with ⟨hv, s', hwrite⟩ | ⟨hv, e, hwrite⟩
    · rw [accepted, hwrite, List.filter_cons, if_pos hv]
      exact congrArg _ (ih hws s')
    · rw [accepted, hwrite, List.filter_cons, if_neg (ne_true_of_eq_false hv)]
      exact ih hws s

/-- Nothing changes outside the members, and an owner with room for all of them keeps it. -/
theorem agreeOutside_after (hws : ∀ w ∈ ws, w.member ∈ p.members) (hspans : p.Spans s) :
    p.AgreeOutside (p.members.map Member.slot) s (after ws s) ∧ p.Spans (after ws s) := by
  refine after_induction (P := fun s₁ => p.AgreeOutside _ s s₁ ∧ p.Spans s₁) ?_
    ⟨.refl _ s, hspans⟩
  rintro w hw s₁ ⟨hagree, hroom⟩
  rcases write_cases (hws w hw) w.value s₁ with ⟨-, s₂, hwrite⟩ | ⟨-, e, hwrite⟩
  · have hslot : w.member.slot ∈ p.members.map Member.slot := List.mem_map_of_mem (hws w hw)
    have hstep := agreeOutside_of_write (hws w hw) hslot hroom hwrite
    rw [hwrite]
    exact ⟨hagree.trans hstep.1, hstep.2⟩
  · rw [hwrite]
    exact ⟨hagree, hroom⟩

/-- A member reads as the last value accepted for it, or as it did at first. -/
theorem read_after (hdistinct : p.Distinct) (hws : ∀ w ∈ ws, w.member ∈ p.members)
    (hspans : p.Spans s) (hm : m ∈ p.members) :
    m.read (after ws s) = (lastTo? m (accepted ws s)).elim (m.read s) .ok := by
  induction ws generalizing s with
  | nil => rfl
  | cons w ws ih =>
    obtain ⟨hw, hws⟩ := List.forall_mem_cons.mp hws
    rcases write_cases hw w.value s with ⟨-, s', hwrite⟩ | ⟨-, e, hwrite⟩
    · have hslot : w.member.slot ∈ [w.member.slot] := List.mem_cons_self
      have hspans' : p.Spans s' := (agreeOutside_of_write hw hslot hspans hwrite).2
      rw [after, accepted, hwrite, ih hws hspans']
      by_cases hwm : (w.member == m) = true
      · -- Without a later value, the member reads as the one written here.
        obtain rfl := eq_of_beq hdistinct hw hm hwm
        rw [lastTo?_cons_of_beq hwm, read_of_write hw hwrite]
        cases lastTo? w.member (accepted ws s') <;> rfl
      · rw [lastTo?_cons_of_not_beq hwm, read_of_write_other hdistinct hm hw hwm hspans hwrite]
    · rw [after, accepted, hwrite, ih hws hspans]

end Provider

end Crosswalk
