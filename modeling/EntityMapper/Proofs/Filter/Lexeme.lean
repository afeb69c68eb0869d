import Mathlib.Data.List.SplitBy
import EntityMapper.Engine.Token
import EntityMapper.Predicate.Expr

/-!
# Lexemes of a condition

The text of a condition as a reader of SQL cuts it: words and the markers in front of them stick
together, and so do the signs of a comparison; every other character stands for itself, and a space
only keeps things apart. Keywords are words in any case.

* `lexemes_append` — a text is cut wherever neighbours do not stick together
* `lexemes_name`, `lexemes_parameter` — names and parameters are one lexeme each
-/

namespace EntityMapper

/-! ## Lexemes -/

/-- The words that are no names. -/
inductive Keyword
  | or
  | and
  | not
  | is
  | null
  | like
  | isIn
deriving DecidableEq, Repr

namespace Keyword

/-- All keywords. -/
def all : List Keyword := [.or, .and, .not, .is, .null, .like, .isIn]

/-- A keyword in lower case. -/
def text : Keyword → String
  | .or => "or"
  | .and => "and"
  | .not => "not"
  | .is => "is"
  | .null => "null"
  | .like => "like"
  | .isIn => "in"

/-- The keyword that a word is. -/
def ofWord? (cs : List Char) : Option Keyword :=
  all.find? fun k => k.text.toList == cs.map Char.toLower

end Keyword

/-- What a text is cut into. -/
inductive SqlLexeme
  | keyword (k : Keyword)
  | word (name : String)
  | number (n : Nat)
  | parameter (name : String)
  | compare (op : CompareOp)
  | arithmetic (op : ArithmeticOp)
  | opening
  | closing
  | comma
  | dot
  | unknown
deriving DecidableEq, Repr

/-- Whether a character marks a parameter. -/
def isMarker (c : Char) : Bool := c == '@' || c == ':'

/-- Whether a character is part of the sign of a comparison. -/
def isCompareChar (c : Char) : Bool := c == '<' || c == '=' || c == '>'

/-- Whether a character belongs to one lexeme with the one before it. -/
def sticks (before c : Char) : Bool :=
  ((Engine.isNameChar before || isMarker before) && Engine.isNameChar c) ||
    (isCompareChar before && isCompareChar c)

/-- The lexemes that are signs. -/
def signs : List (List Char × SqlLexeme) :=
  CompareOp.all.map (fun op => (op.sql.toList, .compare op)) ++
    ArithmeticOp.all.map (fun op => (op.sql.toList, .arithmetic op)) ++
    [(['('], .opening), ([')'], .closing), ([','], .comma), (['.'], .dot)]

/-- The lexeme that characters are which stick together; a space is none. -/
def SqlLexeme.ofPiece (cs : List Char) : List SqlLexeme :=
  match cs with
  | [] => []
  | c :: r =>
    if isMarker c then [.parameter (String.ofList r)]
    else if c.isDigit then
      [if cs.all Char.isDigit then .number (digitsValue 0 cs) else .unknown]
    else if Engine.isNameChar c then
      match Keyword.ofWord? cs with
      | some k => [.keyword k]
      | none => [.word (String.ofList cs)]
    else if cs = [' '] then []
    else [(signs.lookup cs).getD .unknown]

/-- The lexemes of a text. -/
def lexemes (cs : List Char) : List SqlLexeme := (cs.splitBy sticks).flatMap SqlLexeme.ofPiece

/-! ## Cutting -/

/-- **A text is cut wherever neighbours do not stick together.** -/
theorem lexemes_append {cs ds : List Char}
    (h : ∀ x ∈ cs.getLast?, ∀ y ∈ ds.head?, sticks x y = false) :
    lexemes (cs ++ ds) = lexemes cs ++ lexemes ds := by
  rw [lexemes, List.splitBy_append h, List.flatMap_append]
  rfl

/-- Characters that stick together are one lexeme. -/
theorem lexemes_of_isChain {cs : List Char} (hne : cs ≠ [])
    (h : cs.IsChain fun x y => sticks x y = true) : lexemes cs = SqlLexeme.ofPiece cs := by
  rw [lexemes, List.splitBy_of_isChain hne h, List.flatMap_singleton]

/-- Whether a character stands for itself. -/
def standsAlone (c : Char) : Bool := !Engine.isNameChar c && !isMarker c && !isCompareChar c

theorem sticks_left_of_standsAlone {c : Char} (h : standsAlone c = true) (x : Char) :
    sticks c x = false := by
  simp only [standsAlone, Bool.and_eq_true, Bool.not_eq_true'] at h
  simp [sticks, h.1.1, h.1.2, h.2]

theorem sticks_right_of_standsAlone {c : Char} (h : standsAlone c = true) (x : Char) :
    sticks x c = false := by
  simp only [standsAlone, Bool.and_eq_true, Bool.not_eq_true'] at h
  simp [sticks, h.1.1, h.2]

/-- A character that stands for itself keeps what is around it apart. -/
theorem lexemes_alone {c : Char} (h : standsAlone c = true) (cs ds : List Char) :
    lexemes (cs ++ c :: ds) = lexemes cs ++ SqlLexeme.ofPiece [c] ++ lexemes ds := by
  have hright : lexemes ([c] ++ ds) = lexemes [c] ++ lexemes ds :=
    lexemes_append fun x hx y _ => by
      obtain rfl : c = x := by simpa using hx
      exact sticks_left_of_standsAlone h y
  have hleft : lexemes (cs ++ c :: ds) = lexemes cs ++ lexemes (c :: ds) :=
    lexemes_append fun x _ y hy => by
      obtain rfl : c = y := by simpa using hy
      exact sticks_right_of_standsAlone h x
  rw [List.singleton_append] at hright
  rw [hleft, hright, lexemes_of_isChain (by simp) (List.isChain_singleton _), List.append_assoc]

theorem lexemes_space (cs ds : List Char) :
    lexemes (cs ++ ' ' :: ds) = lexemes cs ++ lexemes ds := by
  rw [lexemes_alone (by decide), show SqlLexeme.ofPiece [' '] = [] by decide, List.append_nil]

theorem lexemes_opening (cs ds : List Char) :
    lexemes (cs ++ '(' :: ds) = lexemes cs ++ .opening :: lexemes ds := by
  rw [lexemes_alone (by decide), show SqlLexeme.ofPiece ['('] = [.opening] by decide,
    List.append_assoc, List.singleton_append]

theorem lexemes_closing (cs ds : List Char) :
    lexemes (cs ++ ')' :: ds) = lexemes cs ++ .closing :: lexemes ds := by
  rw [lexemes_alone (by decide), show SqlLexeme.ofPiece [')'] = [.closing] by decide,
    List.append_assoc, List.singleton_append]

theorem lexemes_comma (cs ds : List Char) :
    lexemes (cs ++ ',' :: ds) = lexemes cs ++ .comma :: lexemes ds := by
  rw [lexemes_alone (by decide), show SqlLexeme.ofPiece [','] = [.comma] by decide,
    List.append_assoc, List.singleton_append]

theorem lexemes_dot (cs ds : List Char) :
    lexemes (cs ++ '.' :: ds) = lexemes cs ++ .dot :: lexemes ds := by
  rw [lexemes_alone (by decide), show SqlLexeme.ofPiece ['.'] = [.dot] by decide,
    List.append_assoc, List.singleton_append]

/-! ## Names and parameters -/

/-- A name: its characters stand in names, it does not start with a digit, and it is no keyword. -/
def IsName (s : String) : Prop :=
  (s.toList.head?.any fun c => !c.isDigit) = true ∧ s.toList.all Engine.isNameChar = true ∧
    Keyword.ofWord? s.toList = none

instance (s : String) : Decidable (IsName s) := inferInstanceAs (Decidable (_ ∧ _ ∧ _))

theorem IsName.exists_cons {s : String} (h : IsName s) :
    ∃ c r, s.toList = c :: r ∧ c.isDigit = false := by
  have hfirst := h.1
  cases hs : s.toList with
  | nil => rw [hs] at hfirst; exact nomatch hfirst
  | cons c r =>
    rw [hs] at hfirst
    exact ⟨c, r, rfl, by simpa using hfirst⟩

/-- A text that can be part of a name. -/
def IsNamePart (s : String) : Prop := s.toList.all Engine.isNameChar = true

instance (s : String) : Decidable (IsNamePart s) := inferInstanceAs (Decidable (_ = true))

theorem isChain_of_all {cs : List Char} (h : cs.all Engine.isNameChar = true) :
    cs.IsChain fun x y => sticks x y = true := by
  refine List.Pairwise.isChain ?_
  refine List.Pairwise.imp_of_mem (R := fun _ _ => True) ?_ ?_
  · intro x y hx hy _
    have hall := List.all_eq_true.mp h
    simp [sticks, hall x hx, hall y hy]
  · exact List.pairwise_of_forall fun _ _ => trivial

theorem not_isMarker_of_isNameChar {c : Char} (h : Engine.isNameChar c = true) :
    isMarker c = false := by
  cases hm : isMarker c with
  | false => rfl
  | true =>
    rcases Bool.or_eq_true_iff.mp hm with hc | hc
    · rw [beq_iff_eq.mp hc] at h
      exact absurd h (by decide)
    · rw [beq_iff_eq.mp hc] at h
      exact absurd h (by decide)

/-- **A name is one word.** -/
theorem lexemes_name {s : String} (h : IsName s) : lexemes s.toList = [.word s] := by
  obtain ⟨c, r, hs, hdigit⟩ := h.exists_cons
  obtain ⟨-, hall, hkeyword⟩ := h
  have hc : Engine.isNameChar c = true :=
    List.all_eq_true.mp hall c (by rw [hs]; exact List.mem_cons_self)
  rw [lexemes_of_isChain (by rw [hs]; simp) (isChain_of_all hall)]
  have hpiece : SqlLexeme.ofPiece (c :: r) = [.word (String.ofList (c :: r))] := by
    rw [SqlLexeme.ofPiece, if_neg (by rw [not_isMarker_of_isNameChar hc]; decide),
      if_neg (by rw [hdigit]; decide), if_pos hc, ← hs, hkeyword]
  rw [hs, hpiece, ← hs, String.ofList_toList]

/-- **A parameter is one lexeme.** -/
theorem lexemes_parameter {marker : Char} (hmarker : isMarker marker = true) {s : String}
    (h : IsNamePart s) : lexemes (marker :: s.toList) = [.parameter s] := by
  have hchain : (marker :: s.toList).IsChain fun x y => sticks x y = true := by
    refine List.isChain_cons.mpr ⟨fun y hy => ?_, isChain_of_all h⟩
    have hy := List.all_eq_true.mp h y (List.mem_of_mem_head? hy)
    simp [sticks, hmarker, hy]
  rw [lexemes_of_isChain (by simp) hchain, SqlLexeme.ofPiece, if_pos hmarker, String.ofList_toList]

end EntityMapper
