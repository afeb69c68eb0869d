import EntityMapper.Predicate.Compile

/-!
# Qualifiers exchanged

A condition on a table under one alias serves the same table under another: every `old.` that
starts an identifier becomes `new.`.
-/

namespace EntityMapper

/-- Whether a character can stand inside a qualified name. -/
def isNameChar (c : Char) : Bool := c.isAlphanum || c == '_' || c == '.'

/-- Exchanges the qualifiers in a text; `before` is the character in front of it. -/
def exchangeQualifier (old new : List Char) (before : Option Char) : List Char → List Char
  | [] => []
  | c :: r =>
    if (old ++ ['.']).isPrefixOf (c :: r) then
      (if before.any isNameChar then old else new) ++
        '.' :: exchangeQualifier old new (some '.') (r.drop old.length)
    else c :: exchangeQualifier old new (some c) r
termination_by cs => cs.length
decreasing_by all_goals simp only [List.length_cons, List.length_drop]; omega

/-- Exchanges the qualifiers in the text of a condition. -/
def replaceQualifier (text old new : String) : String :=
  String.ofList (exchangeQualifier old.toList new.toList none text.toList)

/-- The predicate for another alias of the table. -/
def CompiledPredicate.replaceAlias (p : CompiledPredicate) (old new : String) : CompiledPredicate :=
  { p with text := replaceQualifier p.text old new }

end EntityMapper
