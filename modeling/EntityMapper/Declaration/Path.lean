import EntityMapper.Declaration.Lexeme

/-!
# Paths

A path names a type or a function: segments with `::` between them, each of which may have arguments
in angle brackets. The type `T` in a wrapper such as `Vec<T>` is the first argument of the last
segment.
-/

namespace EntityMapper

/-- A part of a path. -/
structure PathSegment where
  name : String
  arguments : Option (List Lexeme) := none
deriving DecidableEq, Repr, Inhabited

/-- What is wrong with a path. -/
inductive PathFault
  | ended
  | notName
  | keyword (word : String)
  | missingArgument
  | unclosed
  | followed
  | unreadable
deriving DecidableEq, Repr, Inhabited

/-- What a type can start with. -/
def typeStarts : String :=
  "expected one of: `for`, parentheses, `fn`, `unsafe`, `extern`, identifier, `::`, `<`, `dyn`, " ++
    "square brackets, `*`, `&`, `!`, `impl`, `_`, lifetime"

/-- The wording of what is wrong with a path. -/
def PathFault.message : PathFault → String
  | .ended => "unexpected end of input, expected identifier"
  | .notName => "expected identifier"
  | .keyword word => s!"expected identifier, found keyword `{word}`"
  | .missingArgument => "unexpected end of input, " ++ typeStarts
  | .unclosed => "unexpected end of input, expected `,`"
  | .followed => "unexpected token"
  | .unreadable => "cannot parse string into token stream"

/-- The words that name nothing. -/
def keywords : List String :=
  ["_", "abstract", "as", "async", "await", "become", "box", "break", "const", "continue", "do", "dyn",
   "else", "enum", "extern", "false", "final", "fn", "for", "if", "impl", "in", "let", "loop", "macro",
   "match", "mod", "move", "mut", "override", "priv", "pub", "ref", "return", "static", "struct", "trait",
   "true", "type", "typeof", "unsafe", "unsized", "use", "virtual", "where", "while", "yield"]

/-- The words that name something in a path only, and take no arguments there. -/
def pathWords : List String := ["crate", "self", "super", "try"]

/-- Whether a word cannot be chosen as a name. -/
def isReserved (word : String) : Bool :=
  keywords.contains word || pathWords.contains word || word == "Self"

/-! ## Reading -/

/-- What follows `::`, if lexemes start with it and no group comes next. -/
def afterColons? : List Lexeme → Option (List Lexeme)
  | .colons :: .mark '(' :: _ => none
  | .colons :: r => some r
  | _ => none

/-- What follows `::` is shorter. -/
theorem length_of_afterColons? {ls rest : List Lexeme} (h : afterColons? ls = some rest) :
    rest.length < ls.length := by
  unfold afterColons? at h
  split at h
  · simp at h
  · simp only [Option.some.injEq] at h
    simp only [h, List.length_cons]
    omega
  · simp at h

/-- What follows the bracket that opens arguments, behind a further `::` or not. A bracket with an
equals sign compares. -/
def insideArguments? (ls : List Lexeme) : Option (List Lexeme) :=
  match (afterColons? ls).getD ls with
  | .mark '<' :: .mark '=' :: _ => none
  | .mark '<' :: r => some r
  | _ => none

/-- What follows the bracket is shorter. -/
theorem length_of_insideArguments? {ls rest : List Lexeme} (h : insideArguments? ls = some rest) :
    rest.length < ls.length := by
  have hle : ((afterColons? ls).getD ls).length ≤ ls.length := by
    cases hc : afterColons? ls with
    | none => exact Nat.le_refl _
    | some r => exact Nat.le_of_lt (length_of_afterColons? hc)
  unfold insideArguments? at h
  split at h
  · simp at h
  · next r _ hr =>
    simp only [Option.some.injEq] at h
    rw [hr, List.length_cons, h] at hle
    omega
  · simp at h

/-- Arguments up to the bracket that closes them, and what comes after it. -/
def arguments (inside : List Lexeme) : Except PathFault (List Lexeme × List Lexeme) :=
  match Lexeme.partAt (· == '>') {} inside with
  | (ls, _ :: rest) => .ok (ls, rest)
  | (ls, []) =>
    .error (if ls.getLast?.all (· == .mark ',') then .missingArgument else .unclosed)

/-- What follows arguments is shorter. -/
theorem length_of_arguments {inside ls rest : List Lexeme} (h : arguments inside = .ok (ls, rest)) :
    rest.length < inside.length := by
  have hle := Lexeme.length_partAt_le (· == '>') {} inside
  unfold arguments at h
  split at h
  · next hp =>
    simp only [Except.ok.injEq, Prod.mk.injEq] at h
    rw [hp, List.length_cons] at hle
    rw [← h.2]
    exact hle
  · simp at h

/-- The segment at the front of lexemes, and the rest. -/
def pathSegment : List Lexeme → Except PathFault (PathSegment × List Lexeme)
  | [] => .error .ended
  | .name n :: r =>
    if keywords.contains n then .error (.keyword n)
    else
      match if pathWords.contains n then none else insideArguments? r with
      | none => .ok (⟨n, none⟩, r)
      | some inside => (arguments inside).map fun (ls, rest) => (⟨n, some ls⟩, rest)
  | _ :: _ => .error .notName

/-- What follows a segment is shorter. -/
theorem length_of_pathSegment {ls rest : List Lexeme} {s : PathSegment}
    (h : pathSegment ls = .ok (s, rest)) : rest.length < ls.length := by
  unfold pathSegment at h
  split at h
  · simp at h
  · next n r =>
    rw [List.length_cons]
    split at h
    · simp at h
    · split at h
      · simp only [Except.ok.injEq, Prod.mk.injEq] at h
        rw [← h.2]
        exact Nat.lt_succ_self _
      · next inside hi =>
        have hr : inside.length < r.length := by
          split at hi
          · simp at hi
          · exact length_of_insideArguments? hi
        cases ha : arguments inside with
        | error e => rw [ha] at h; simp [Except.map] at h
        | ok p =>
          rw [ha] at h
          simp only [Except.map, Except.ok.injEq, Prod.mk.injEq] at h
          have := length_of_arguments ha
          rw [← h.2]
          omega
  · simp at h

/-- The segments of a path at the front of lexemes, and the rest. -/
def pathSegments (ls : List Lexeme) : Except PathFault (List PathSegment × List Lexeme) :=
  match _hs : pathSegment ls with
  | .error e => .error e
  | .ok (s, rest) =>
    match _ht : afterColons? rest with
    | none => .ok ([s], rest)
    | some t => do
      let (segments, rest) ← pathSegments t
      return (s :: segments, rest)
termination_by ls.length
decreasing_by exact Nat.lt_trans (length_of_afterColons? _ht) (length_of_pathSegment _hs)

/-- The segments of a path that makes up all lexemes; it may start at the root. -/
def wholePath (ls : List Lexeme) : Except PathFault (List PathSegment) := do
  let (segments, rest) ← pathSegments ((afterColons? ls).getD ls)
  if rest.isEmpty then return segments else throw .followed

/-- A text that is a path, as lexemes. -/
def pathOfText (s : String) : Except PathFault (List Lexeme) := do
  match Lexeme.ofText? s with
  | none => throw .unreadable
  | some ls =>
    let _ ← wholePath ls
    return ls

/-! ## Types -/

/-- Whether lexemes start as a type does. -/
def startsType : List Lexeme → Bool
  | .name n :: _ =>
    !keywords.contains n || ["for", "fn", "unsafe", "extern", "dyn", "impl", "_"].contains n
  | .colons :: _ => true
  | .mark c :: _ => ['(', '<', '[', '*', '&', '!', '\''].contains c
  | _ => false

/-- The segments of a type that is a path. It may go through a type in angle brackets. -/
def typeSegments? (type : List Lexeme) : Option (List PathSegment) :=
  match type with
  | .mark '<' :: r => do
    let (_, rest) ← (arguments r).toOption
    let (segments, rest) ← (pathSegments (← afterColons? rest)).toOption
    if rest.isEmpty then some segments else none
  | _ => (wholePath type).toOption

/-- Whether an argument is a type, and no lifetime, constant or binding such as `Item = T`. -/
def isTypeArgument : List Lexeme → Bool
  | [] => false
  | .literal _ :: _ => false
  | .mark '-' :: _ => false
  | .mark '\x7b' :: _ => false
  | [.mark '\'', _] => false
  | [.name "true"] => false
  | [.name "false"] => false
  | ls => (Lexeme.partAt (fun c => c == '=' || c == ':') {} ls).2.isEmpty

/-- The type that stands in a wrapper, if the type is one. -/
def wrapped? (wrapper : String) (type : List Lexeme) : Option (List Lexeme) := do
  let last ← (← typeSegments? type).getLast?
  let first := (Lexeme.partAt (· == ',') {} (← last.arguments)).1
  if last.name = wrapper ∧ isTypeArgument first then some first else none

end EntityMapper
