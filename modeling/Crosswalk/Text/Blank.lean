import Crosswalk.Text.CharTable

/-!
# Blank characters

The characters with the Unicode property `White_Space`, and texts without them at either
end. What `trim` leaves of a text is the one part of it that has blanks around it and none at its
ends (`trim_eq_iff`).
-/

namespace Crosswalk.Text

/-- The code points of `White_Space`. -/
def blankTable : CharTable :=
  [(0x9, 0xd), (0x20, 0x20), (0x85, 0x85), (0xa0, 0xa0),
   (0x1680, 0x1680), (0x2000, 0x200a), (0x2028, 0x2029), (0x202f, 0x202f),
   (0x205f, 0x205f), (0x3000, 0x3000)]

/-- The character is white space. -/
def isBlank (c : Char) : Bool := blankTable.contains c

/-- The text without its leading and trailing blanks. -/
def trim (cs : List Char) : List Char :=
  ((cs.dropWhile isBlank).reverse.dropWhile isBlank).reverse

@[simp] theorem trim_nil : trim [] = [] := rfl

/-- `body` is the text without the blanks around it. -/
structure Trimmed (cs body : List Char) : Prop where
  around : ∃ front back, cs = front ++ body ++ back ∧
    (∀ c ∈ front, isBlank c = true) ∧ ∀ c ∈ back, isBlank c = true
  first : ∀ c ∈ body.head?, isBlank c = false
  last : ∀ c ∈ body.getLast?, isBlank c = false

variable {cs body front rest : List Char}

/-- Blanks before what is no blank are dropped, and no more. -/
theorem dropWhile_isBlank (hfront : ∀ c ∈ front, isBlank c = true)
    (hrest : ∀ c ∈ rest.head?, isBlank c = false) :
    (front ++ rest).dropWhile isBlank = rest := by
  rw [List.dropWhile_append_of_pos hfront]
  cases rest with
  | nil => rfl
  | cons c rest => exact List.dropWhile_cons_of_neg (by simp [hrest c rfl])

theorem Trimmed.trim_eq (h : Trimmed cs body) : trim cs = body := by
  obtain ⟨⟨front, back, rfl, hfront, hback⟩, hfirst, hlast⟩ := h
  cases body with
  | nil =>
    have hblank : ∀ c ∈ front ++ back, isBlank c = true := by
      intro c hc
      exact (List.mem_append.mp hc).elim (hfront c) (hback c)
    have hdrop : (front ++ back ++ []).dropWhile isBlank = [] := dropWhile_isBlank hblank nofun
    rw [List.append_nil] at hdrop ⊢
    rw [trim, hdrop]
    rfl
  | cons c ds =>
    have hback' : ∀ c ∈ back.reverse, isBlank c = true := by simpa using hback
    have hdrop : (front ++ (c :: ds ++ back)).dropWhile isBlank = c :: ds ++ back :=
      dropWhile_isBlank hfront hfirst
    rw [trim, List.append_assoc, hdrop, List.reverse_append,
      dropWhile_isBlank hback' (by rwa [List.head?_reverse]), List.reverse_reverse]

theorem isBlank_of_head?_dropWhile {c : Char} (h : c ∈ (cs.dropWhile isBlank).head?) :
    isBlank c = false := by
  have hnot := List.head?_dropWhile_not isBlank cs
  rw [Option.mem_def.mp h] at hnot
  simpa using hnot

theorem trimmed_trim (cs : List Char) : Trimmed cs (trim cs) := by
  let rest := cs.dropWhile isBlank
  have hrest : rest = trim cs ++ (rest.reverse.takeWhile isBlank).reverse := by
    rw [trim, ← List.reverse_append, List.takeWhile_append_dropWhile, List.reverse_reverse]
  have hblank (ds : List Char) : ∀ c ∈ ds.takeWhile isBlank, isBlank c = true :=
    List.all_eq_true.mp List.all_takeWhile
  refine ⟨⟨cs.takeWhile isBlank, (rest.reverse.takeWhile isBlank).reverse, ?_, hblank cs, ?_⟩,
    fun c hc => ?_, fun c hc => ?_⟩
  · rw [List.append_assoc, ← hrest, List.takeWhile_append_dropWhile]
  · intro c hc
    exact hblank _ c (List.mem_reverse.mp hc)
  · have hhead : rest.head? = some c := by
      rw [hrest, List.head?_append, Option.mem_def.mp hc, Option.some_or]
    exact isBlank_of_head?_dropWhile hhead
  · rw [trim, List.getLast?_reverse] at hc
    exact isBlank_of_head?_dropWhile hc

/-- Trimming gives the one text that is left without blanks at either end. -/
theorem trim_eq_iff : trim cs = body ↔ Trimmed cs body := by
  constructor
  · rintro rfl
    exact trimmed_trim cs
  · exact Trimmed.trim_eq

end Crosswalk.Text
