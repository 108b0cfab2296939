import Crosswalk.Decimal.Layout
import Crosswalk.Decimal.Reader

/-!
# Number kinds

The eight integer kinds, each with its range, and the two floating-point kinds, each with
its binary format. An element of an integer kind carries the proof that it is in range; an
element of a floating-point kind is its word.
-/

namespace Crosswalk

/-! ## Integers -/

/-- A fixed-width integer kind. -/
inductive IntKind where
  | i8 | i16 | i32 | i64 | u8 | u16 | u32 | u64
  deriving DecidableEq, Repr

namespace IntKind

/-- The kind has negative elements. -/
def isSigned : IntKind → Bool
  | i8 | i16 | i32 | i64 => true
  | u8 | u16 | u32 | u64 => false

/-- The number of bits. -/
def width : IntKind → Nat
  | i8 | u8 => 8
  | i16 | u16 => 16
  | i32 | u32 => 32
  | i64 | u64 => 64

/-- The number of elements. -/
def count (k : IntKind) : Nat := Decimal.twoPow k.width

/-- The least element. -/
def least (k : IntKind) : Int := if k.isSigned then -(k.count / 2 : Nat) else 0

/-- The greatest element. -/
def greatest (k : IntKind) : Int := k.least + k.count - 1

/-- Every integer kind. -/
def all : List IntKind := [i8, i16, i32, i64, u8, u16, u32, u64]

/-- The integer is in the range of the kind. -/
def InRange (k : IntKind) (n : Int) : Prop := k.least ≤ n ∧ n ≤ k.greatest

instance (k : IntKind) (n : Int) : Decidable (k.InRange n) :=
  inferInstanceAs (Decidable (_ ∧ _))

/-- The integers in range. -/
abbrev Elem (k : IntKind) : Type := { n : Int // k.InRange n }

/-- The element with this number, where it is in range. -/
def ofInt? (k : IntKind) (n : Int) : Option k.Elem :=
  if h : k.InRange n then some ⟨n, h⟩ else none

theorem inRange_zero (k : IntKind) : k.InRange 0 := by cases k <;> decide

/-- The element zero. -/
def zero (k : IntKind) : k.Elem := ⟨0, k.inRange_zero⟩

theorem count_pos (k : IntKind) : 0 < k.count := by cases k <;> decide

/-- The element congruent to the integer modulo the number of elements. -/
def wrap (k : IntKind) (n : Int) : k.Elem :=
  have hpos : (0 : Int) < k.count := Int.ofNat_lt.mpr k.count_pos
  have hnonneg := Int.emod_nonneg (n - k.least) (Int.ne_of_gt hpos)
  have hlt := Int.emod_lt_of_pos (n - k.least) hpos
  ⟨k.least + (n - k.least) % k.count, by omega, by unfold greatest; omega⟩

@[simp] theorem wrap_val {k : IntKind} (n : k.Elem) : k.wrap n.1 = n := by
  have hn := n.2
  unfold InRange greatest at hn
  apply Subtype.ext
  simp only [wrap]
  rw [Int.emod_eq_of_lt (by omega) (by omega)]
  omega

/-- The kind as a type in diagnostics. -/
def name : IntKind → String
  | i8 => "i8" | i16 => "i16" | i32 => "i32" | i64 => "i64"
  | u8 => "u8" | u16 => "u16" | u32 => "u32" | u64 => "u64"

@[simp] theorem ofInt?_val {k : IntKind} (n : k.Elem) : k.ofInt? n.1 = some n := by
  simp [ofInt?, n.2]

theorem ofInt?_eq_some_iff {k : IntKind} {n : Int} {e : k.Elem} :
    k.ofInt? n = some e ↔ e.1 = n := by
  constructor
  · intro h
    by_cases hn : k.InRange n
    · simp only [ofInt?, hn, dite_true, Option.some.injEq] at h
      rw [← h]
    · simp [ofInt?, hn] at h
  · rintro rfl
    simp

end IntKind

/-! ## Floating-point numbers -/

/-- A floating-point kind. -/
inductive FloatKind where
  | f32 | f64
  deriving DecidableEq, Repr

namespace FloatKind

open Decimal

/-- The binary format of the kind. -/
def format : FloatKind → BinaryFormat
  | f32 => .single
  | f64 => .double

/-- A word of the kind's format. -/
abbrev Word (k : FloatKind) : Type := BitVec k.format.width

/-- The kind as a type in diagnostics. -/
def name : FloatKind → String
  | f32 => "f32" | f64 => "f64"

/-- What the word stands for. -/
def decode (k : FloatKind) (w : k.Word) : Binary := k.format.decode w.toNat

/-- The word of a decoded number, rounded. -/
def encode (k : FloatKind) (x : Binary) : k.Word := BitVec.ofNat _ (k.format.encode x)

/-- The word nearest to an integer. -/
def ofInt (k : FloatKind) (n : Int) : k.Word := BitVec.ofNat _ (k.format.ofInt n)

/-- The word that a text stands for. -/
def read? (k : FloatKind) (cs : List Char) : Option k.Word :=
  (readWord? k.format cs).map (BitVec.ofNat _)

/-- The text of a number in a layout. -/
def text (k : FloatKind) (l : Layout) (w : k.Word) : String := l.text k.format (k.decode w)

/-- The numbers are equal: zero equals negative zero, and no number equals nothing. -/
def sameNumber (k : FloatKind) (v w : k.Word) : Bool :=
  !(k.decode v).isNaN && !(k.decode w).isNaN &&
    (v == w || (k.decode v).isZero && (k.decode w).isZero)

end FloatKind

end Crosswalk
