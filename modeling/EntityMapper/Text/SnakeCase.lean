import EntityMapper.Text.Cluster
import EntityMapper.Text.LetterCase

/-!
# Snake case

A name in small letters with a bar between its words. A word starts at a capital after a small
letter, at the last capital of several where a small letter follows it, and where letters and
digits meet; a letter or digit is taken together with its marks. Bars that a name has already stay.
-/

namespace EntityMapper

/-! ## Letters with their marks -/

/-- Whether a cluster is a small letter: lower case leaves it alone and upper case does not. -/
def isSmall (g : List Char) : Bool := g.any hasCapitalForm && !g.any hasSmallForm

/-- Whether a cluster is a capital: upper case leaves it alone and lower case does not. -/
def isCapital (g : List Char) : Bool := g.any hasSmallForm && !g.any hasCapitalForm

/-- Whether a cluster is a digit with no marks. -/
def isDigits (g : List Char) : Bool := g.all Char.isDigit

/-! ## Words -/

/-- Whether a word starts at `g`, which stands between `before` and `after`. -/
def startsWord (before g : List Char) (after : Option (List Char)) : Bool :=
  (isSmall before && isCapital g) ||
    (isCapital before && isCapital g && after.any isSmall) ||
    ((isSmall before || isCapital before) && isDigits g) ||
    (isDigits before && (isSmall g || isCapital g))

/-- Clusters with a bar before each word but the first, where `before` is the cluster that stands
before them. -/
def partWords (before : Option (List Char)) : List (List Char) → List Char
  | [] => []
  | g :: gs =>
    (if before.any fun b => startsWord b g gs.head? then '_' :: g else g) ++ partWords (some g) gs

/-- A name in snake case. -/
def snakeCase (name : String) : String :=
  String.ofList (lowerCase false (partWords none (clusters name.toList)))

/-- Parting the words of a name only adds bars. -/
theorem filter_partWords (before : Option (List Char)) (gs : List (List Char)) :
    (partWords before gs).filter (· != '_') = gs.flatten.filter (· != '_') := by
  induction gs generalizing before with
  | nil => rfl
  | cons g gs ih =>
    rw [partWords, List.filter_append, ih, List.flatten_cons, List.filter_append]
    split <;> simp

end EntityMapper
