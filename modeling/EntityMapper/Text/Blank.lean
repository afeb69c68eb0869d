import EntityMapper.Text.Ranges

/-!
# White space

The characters with the `White_Space` property, and texts freed of them at both ends.
-/

namespace EntityMapper

/-! ## The property -/

/-- The code points with the `White_Space` property, as closed ranges in ascending order. -/
def blankRanges : List (Nat × Nat) :=
  [(0x9, 0xD), (0x20, 0x20), (0x85, 0x85), (0xA0, 0xA0), (0x1680, 0x1680), (0x2000, 0x200A),
   (0x2028, 0x2029), (0x202F, 0x202F), (0x205F, 0x205F), (0x3000, 0x3000)]

/-- Whether a character is white space. -/
def isBlank (c : Char) : Bool := inRanges c.toNat blankRanges

/-- The property holds of twenty-five code points. -/
example : (blankRanges.map fun r => r.2 + 1 - r.1).sum = 25 := by decide

/-! ## Trimming -/

/-- Drops white space at the front. -/
def trimLeft (cs : List Char) : List Char := cs.dropWhile isBlank

/-- Drops white space at the end. -/
def trimRight (cs : List Char) : List Char := (trimLeft cs.reverse).reverse

/-- Drops white space at both ends. -/
def trim (cs : List Char) : List Char := trimRight (trimLeft cs)

/-- What is left never starts with white space. -/
theorem isBlank_head_trimLeft {cs r : List Char} {c : Char} (h : trimLeft cs = c :: r) :
    isBlank c = false := by
  induction cs with
  | nil => simp [trimLeft] at h
  | cons d ds ih =>
    rw [trimLeft, List.dropWhile_cons] at h
    split at h
    · exact ih h
    · next hd =>
      rw [List.cons.injEq] at h
      rw [← h.1]
      simpa using hd

/-- A text that starts with no white space keeps its front. -/
theorem trimLeft_eq_self {cs : List Char} (h : ∀ c ∈ cs.head?, isBlank c = false) :
    trimLeft cs = cs := by
  cases cs with
  | nil => rfl
  | cons c r => simp [trimLeft, h c (by simp)]

/-- A text with no white space at either end is left alone. -/
theorem trim_eq_self {cs : List Char} (hfirst : ∀ c ∈ cs.head?, isBlank c = false)
    (hlast : ∀ c ∈ cs.getLast?, isBlank c = false) : trim cs = cs := by
  rw [trim, trimLeft_eq_self hfirst, trimRight, trimLeft_eq_self, List.reverse_reverse]
  intro c hc
  rw [List.head?_reverse] at hc
  exact hlast c hc

/-- Trimming a text drops the white space at its ends. -/
def trimText (s : String) : String := String.ofList (trim s.toList)

end EntityMapper
