/-!
# Text patterns

Patterns in which `%` stands for any run of characters and `_` for any one character. Every other
character stands for itself, up to a folding of both sides; there is no escape.
-/

namespace EntityMapper

/-- A text and every rest of it, down to the empty one. -/
def suffixes : List Char → List (List Char)
  | [] => [[]]
  | c :: r => (c :: r) :: suffixes r

/-- Whether a pattern matches a whole text. -/
def likeMatches (fold : Char → Char) : List Char → List Char → Bool
  | [], s => s.isEmpty
  | c :: p, s =>
    if c = '%' then (suffixes s).any (likeMatches fold p)
    else match s with
      | [] => false
      | d :: r => (c == '_' || fold c == fold d) && likeMatches fold p r

/-- A letter of the alphabet in lower case. -/
def foldLetter (c : Char) : Char := if c.isUpper then c.toLower else c

/-- The rests of a text are its ends. -/
theorem mem_suffixes {s t : List Char} : t ∈ suffixes s ↔ t <:+ s := by
  induction s with
  | nil => simp [suffixes]
  | cons c r ih => simp [suffixes, List.suffix_cons_iff, ih]

/-- The pattern of one `%` matches everything. -/
theorem likeMatches_any (fold : Char → Char) (s : List Char) : likeMatches fold ['%'] s = true := by
  have h : [] ∈ suffixes s := mem_suffixes.2 (List.nil_suffix)
  simp only [likeMatches, ite_true, List.any_eq_true]
  exact ⟨[], h, rfl⟩

end EntityMapper
