import EntityMapper.Engine.Token
import EntityMapper.Proofs.Session.Store
import EntityMapper.Proofs.Statement.Placeholders
import EntityMapper.Proofs.Text.Joined

/-!
# Traces fill in placeholders

A text is cut at its placeholders in one way only: what stands before the first marker, and then the
name behind each marker, as long as it goes, with what follows it up to the next marker. A trace is
the text with the names filled in and all else kept. What is filled in is not cut again.

* `TextCut` — a text by its placeholders; `TextCut.Cuts` — the cut of a text
* `exists_cuts_iff` — each text has one cut
* `TextCut.Cuts.substitute_eq` — substitution fills the cut
* `unquote_doubledQuotes` — a text can be read back from its literal
* `Command.trace_fills` — both for the trace of a command
-/

namespace EntityMapper

variable {marker : Char} {literal? : List Char → Option (List Char)} {text rest : List Char}

/-! ## Cuts -/

/-- A text that is cut at its placeholders: what is before the first of them, and the name of each
with what is after it. -/
structure TextCut where
  lead : List Char
  tokens : List (List Char × List Char)

/-- The text of a cut, with a text for each name. -/
def TextCut.fill (cut : TextCut) (shown : List Char → List Char) : List Char :=
  cut.lead ++ cut.tokens.flatMap fun token => shown token.1 ++ token.2

/-- The cut of a text. The pieces have no marker in them, and a name takes all the characters that
can stand in a name. -/
inductive TextCut.Cuts (marker : Char) : List Char → TextCut → Prop
  | plain {piece : List Char} (hpiece : marker ∉ piece) : Cuts marker piece ⟨piece, []⟩
  | token {piece name rest : List Char} {cut : TextCut} (hpiece : marker ∉ piece)
      (hname : ∀ c ∈ name, isParameterChar c = true) (hapart : StartsApart rest)
      (hrest : Cuts marker rest cut) :
      Cuts marker (piece ++ marker :: (name ++ rest)) ⟨piece, (name, cut.lead) :: cut.tokens⟩

/-- A name is taken as long as it goes. -/
theorem takeWhile_name {name : List Char} (hname : ∀ c ∈ name, isParameterChar c = true)
    (h : StartsApart rest) : (name ++ rest).takeWhile isParameterChar = name := by
  rw [takeWhile_append_of_apart h, List.takeWhile_eq_self_iff.mpr hname]

theorem dropWhile_name {name : List Char} (hname : ∀ c ∈ name, isParameterChar c = true)
    (h : StartsApart rest) : (name ++ rest).dropWhile isParameterChar = rest := by
  have hwhole := List.takeWhile_append_dropWhile (p := isParameterChar) (l := name ++ rest)
  rw [takeWhile_name hname h] at hwhole
  exact List.append_cancel_left hwhole

/-- What is left behind a name does not go on with it. -/
theorem startsApart_dropWhile (cs : List Char) : StartsApart (cs.dropWhile isParameterChar) := by
  intro c hc
  have hhead := List.head?_dropWhile_not isParameterChar cs
  rw [hc] at hhead
  simpa using hhead

namespace TextCut.Cuts

variable {cut other : TextCut}

/-- With a character in front that is no marker, the first piece has it in front. -/
theorem cons {c : Char} (hc : c ≠ marker) (h : Cuts marker text cut) :
    Cuts marker (c :: text) ⟨c :: cut.lead, cut.tokens⟩ := by
  cases h with
  | plain hpiece => exact .plain (List.not_mem_cons_of_ne_of_not_mem hc.symm hpiece)
  | token hpiece hname hapart hrest =>
    rw [← List.cons_append]
    exact .token (List.not_mem_cons_of_ne_of_not_mem hc.symm hpiece) hname hapart hrest

theorem exists_cuts (marker : Char) (text : List Char) : ∃ cut, Cuts marker text cut := by
  -- the recursion is that of the substitution: by one character, or by a marker with its name
  induction text using substitute.induct marker with
  | case1 => exact ⟨⟨[], []⟩, .plain List.not_mem_nil⟩
  | case2 r ih =>
    obtain ⟨cut, hcut⟩ := ih
    have hname : ∀ c ∈ r.takeWhile isParameterChar, isParameterChar c = true :=
      fun _ hc => List.mem_takeWhile_imp hc
    have htoken := Cuts.token List.not_mem_nil hname (startsApart_dropWhile r) hcut
    rw [List.nil_append, List.takeWhile_append_dropWhile] at htoken
    exact ⟨_, htoken⟩
  | case3 c r hc ih =>
    obtain ⟨cut, hcut⟩ := ih
    exact ⟨_, hcut.cons hc⟩

/-- A text has one cut: neither a piece nor a name can be longer or shorter. -/
theorem unique (h : Cuts marker text cut) (hother : Cuts marker text other) : cut = other := by
  induction h generalizing other with
  | @plain piece hpiece =>
    cases hother with
    | plain => rfl
    | token => exact absurd (List.mem_append_right _ List.mem_cons_self) hpiece
  | @token piece name rest cut hpiece hname hapart _ ih =>
    generalize htext : piece ++ marker :: (name ++ rest) = text at hother
    cases hother with
    | plain hplain =>
      rw [← htext] at hplain
      exact absurd (List.mem_append_right _ List.mem_cons_self) hplain
    | @token piece' name' rest' cut' hpiece' hname' hapart' hrest' =>
      obtain ⟨rfl, hbehind⟩ := append_cons_inj hpiece hpiece' htext
      have hnames : name = name' := by
        rw [← takeWhile_name hname hapart, hbehind, takeWhile_name hname' hapart']
      have hrests : rest = rest' := by
        rw [← dropWhile_name hname hapart, hbehind, dropWhile_name hname' hapart']
      subst hnames hrests
      obtain rfl := ih hrest'
      rfl

/-- A cut with its placeholders in place is the text. -/
theorem fill_marker (h : Cuts marker text cut) : cut.fill (marker :: ·) = text := by
  induction h with
  | plain => exact List.append_nil _
  | token _ _ _ _ ih => simp [← ih, fill]

end TextCut.Cuts

/-- **Each text has one cut.** -/
theorem exists_cuts_iff (marker : Char) (text : List Char) :
    ∃ cut : TextCut, ∀ other, TextCut.Cuts marker text other ↔ other = cut := by
  obtain ⟨cut, hcut⟩ := TextCut.Cuts.exists_cuts marker text
  exact ⟨cut, fun other => ⟨fun h => h.unique hcut, fun h => h ▸ hcut⟩⟩

/-! ## Substitution -/

theorem substitute_append {piece : List Char} (h : marker ∉ piece) (rest : List Char) :
    substitute marker literal? (piece ++ rest) = piece ++ substitute marker literal? rest := by
  induction piece with
  | nil => rfl
  | cons c r ih =>
    obtain ⟨hc, hr⟩ := List.ne_and_not_mem_of_not_mem_cons h
    rw [List.cons_append, substitute, if_neg hc.symm, ih hr, List.cons_append]

theorem substitute_token {name : List Char} (hname : ∀ c ∈ name, isParameterChar c = true)
    (h : StartsApart rest) : substitute marker literal? (marker :: (name ++ rest)) =
      (literal? name).getD (marker :: name) ++ substitute marker literal? rest := by
  rw [substitute, if_pos rfl]
  dsimp only
  rw [takeWhile_name hname h, dropWhile_name hname h]

/-- **Substitution fills the cut**: a piece stays as it is, and a name that has no literal stays
behind its marker. -/
theorem TextCut.Cuts.substitute_eq {cut : TextCut} (h : Cuts marker text cut) :
    substitute marker literal? text =
      cut.fill fun name => (literal? name).getD (marker :: name) := by
  induction h with
  | @plain piece hpiece =>
    have hplain : substitute marker literal? (piece ++ []) = piece ++ substitute marker literal? [] :=
      substitute_append hpiece []
    rwa [List.append_nil, substitute] at hplain
  | token hpiece hname hapart _ ih =>
    rw [substitute_append hpiece, substitute_token hname hapart, ih]
    simp [fill]

/-! ## Literals of texts -/

/-- The quotes of a text, doubled. -/
def doubledQuotes (cs : List Char) : List Char :=
  cs.flatMap fun c => if c = '\'' then ['\'', '\''] else [c]

theorem sqlLiteral_text (d : Dialect) (s : String) :
    sqlLiteral d (.text s) = '\'' :: (doubledQuotes s.toList ++ ['\'']) := rfl

theorem unquote_cons_ne {quote c : Char} (h : c ≠ quote) (r : List Char) :
    Engine.unquote quote (c :: r) = c :: Engine.unquote quote r := by
  rw [Engine.unquote.eq_def]
  exact if_neg h

theorem quotedLength_cons_ne {quote c : Char} (h : c ≠ quote) (r : List Char) :
    Engine.quotedLength quote (c :: r) = (Engine.quotedLength quote r).map (· + 1) := by
  rw [Engine.quotedLength.eq_def]
  exact if_neg h

theorem unquote_doubledQuotes (cs : List Char) :
    Engine.unquote '\'' (doubledQuotes cs ++ ['\'']) = cs := by
  induction cs with
  | nil => rfl
  | cons c r ih =>
    rw [doubledQuotes] at ih ⊢
    rw [List.flatMap_cons]
    by_cases hc : c = '\''
    · simp [hc, Engine.unquote, ih]
    · simp [unquote_cons_ne hc, hc, ih]

/-- The first quote that is not doubled is the one at the end. -/
theorem quotedLength_doubledQuotes (cs : List Char) :
    Engine.quotedLength '\'' (doubledQuotes cs ++ ['\'']) =
      some ((doubledQuotes cs).length + 1) := by
  induction cs with
  | nil => rfl
  | cons c r ih =>
    rw [doubledQuotes] at ih ⊢
    rw [List.flatMap_cons]
    by_cases hc : c = '\''
    · simp [hc, Engine.quotedLength, ih]
    · simp [quotedLength_cons_ne hc, hc, ih]

/-! ## Commands -/

namespace Command

/-- What a command binds to a name: its first parameter of the name, or else the column of its
row. -/
def binding? (c : Command) (name : String) : Option Value :=
  (c.parameters.lookup name).or (c.row.bind fun row => row.get? name)

/-- What a trace shows for a placeholder: the literal of what is bound, or else the placeholder. -/
def shown (c : Command) (d : Dialect) (name : List Char) : List Char :=
  match c.binding? (String.ofList name) with
  | some v => sqlLiteral d v
  | none => d.marker :: name

theorem lookup_bindings (c : Command) (name : String) :
    c.bindings.lookup name = c.binding? name := by
  rw [bindings, lookup_firstOfEach, List.lookup_append, binding?]
  cases c.row <;> rfl

/-- **A trace fills in what is bound and keeps the rest.** The text has one cut, and its trace is
that cut with the literal of what is bound to each name; whatever a literal holds stays as it is. A
text can be read back from its literal. -/
theorem trace_fills (c : Command) (d : Dialect) :
    (∃ cut : TextCut,
      (∀ other, TextCut.Cuts d.marker c.text.toList other ↔ other = cut) ∧
      cut.fill (d.marker :: ·) = c.text.toList ∧
      (c.trace d).toList = cut.fill (c.shown d)) ∧
    ∀ s : String, ∃ inside : List Char,
      sqlLiteral d (.text s) = '\'' :: (inside ++ ['\'']) ∧
      Engine.quotedLength '\'' (inside ++ ['\'']) = some (inside.length + 1) ∧
      Engine.unquote '\'' (inside ++ ['\'']) = s.toList := by
  refine ⟨?_, fun s => ⟨doubledQuotes s.toList, sqlLiteral_text d s,
    quotedLength_doubledQuotes s.toList, unquote_doubledQuotes s.toList⟩⟩
  obtain ⟨cut, hcut⟩ := exists_cuts_iff d.marker c.text.toList
  have hcuts := (hcut cut).mpr rfl
  refine ⟨cut, hcut, hcuts.fill_marker, ?_⟩
  rw [trace, String.toList_ofList, hcuts.substitute_eq]
  congr 1
  funext name
  rw [lookup_bindings, shown]
  cases c.binding? (String.ofList name) <;> rfl

example : (Command.mk "Users" "a = @p1 or b = @p10 or c = @x"
    [("p1", .text "it's @p10"), ("p10", .int 7)] none).trace (.of .sqlite) =
      "a = 'it''s @p10' or b = 7 or c = @x" := by
  decide +kernel

end Command

end EntityMapper
