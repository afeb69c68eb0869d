import EntityMapper.Declaration.Implementation
import EntityMapper.Proofs.Fallible
import EntityMapper.Text.Hex
import Mathlib.Data.List.Basic

/-!
# Reading source text

Source text is read from its front, lexeme by lexeme. The literal of a text is read as that text, a
group up to the mark that closes it, and an argument up to the angle bracket behind it.

* `Lexeme.string?_ofString` — a text is read back from its literal
* `LexemeReader.Reads` — what a reader takes, whatever follows
* `Reads.repeated` — readers one after the other
-/

namespace EntityMapper

/-! ## Literals -/

/-- What a backslash and a letter stand for. -/
def escapedChar? : Char → Option Char
  | 'n' => some '\n'
  | 'r' => some '\r'
  | 't' => some '\t'
  | '0' => some '\x00'
  | '\\' => some '\\'
  | '\'' => some '\''
  | '"' => some '"'
  | _ => none

/-- The character of a code point. -/
def charOfPoint? (n : Nat) : Option Char := if n.isValidChar then some (Char.ofNat n) else none

/-- The text of a literal behind its first quote. A code point between braces is read digit by
digit; `point` is what is read of it. -/
def literalText? : Option Nat → List Char → Option (List Char)
  | none, ['"'] => some []
  | none, '\\' :: 'u' :: '\x7b' :: r => literalText? (some 0) r
  | none, '\\' :: 'x' :: a :: b :: r =>
    (hexValues? [a, b] >>= charOfPoint?).bind fun c => (literalText? none r).map (c :: ·)
  | none, '\\' :: c :: r => (escapedChar? c).bind fun c => (literalText? none r).map (c :: ·)
  | none, c :: r => if c = '"' ∨ c = '\\' then none else (literalText? none r).map (c :: ·)
  | some n, '\x7d' :: r => (charOfPoint? n).bind fun c => (literalText? none r).map (c :: ·)
  | some n, c :: r => (hexValue? c).bind fun d => literalText? (some (16 * n + d)) r
  | _, [] => none

/-- The text that a literal stands for. -/
def Lexeme.string? : Lexeme → Option String
  | .literal s =>
    match s.toList with
    | '"' :: r => (literalText? none r).map String.ofList
    | _ => none
  | _ => none

theorem charOfPoint?_toNat (c : Char) : charOfPoint? c.toNat = some c := by
  rw [charOfPoint?, if_pos (show c.toNat.isValidChar from c.valid), Char.ofNat_toNat]

/-- Digits are read as the number that they were written for. -/
theorem literalText?_toDigits (n : Nat) (r : List Char) :
    literalText? (some 0) (Nat.toDigits 16 n ++ r) = literalText? (some n) r := by
  have hdigit : ∀ m < 16, ∀ (k : Nat) (r : List Char),
      literalText? (some k) (Nat.digitChar m :: r) = literalText? (some (16 * k + m)) r := by
    intro m hm k r
    have hbrace : Nat.digitChar m ≠ '\x7d' := by
      have : ∀ m < 16, Nat.digitChar m ≠ '\x7d' := by decide
      exact this m hm
    rw [literalText?, hexValue?_digitChar m hm]
    · rfl
    · exact hbrace
  induction n using Nat.strongRecOn generalizing r with
  | _ n ih =>
    rw [Nat.toDigits_eq_if (by decide)]
    split
    · next hlt =>
      rw [List.singleton_append, hdigit n hlt]
      simp
    · next hle =>
      rw [List.append_assoc, ih (n / 16) (by omega), List.singleton_append,
        hdigit _ (Nat.mod_lt _ (by decide)), Nat.div_add_mod]

theorem literalText?_cons {c : Char} (hquote : c ≠ '"') (hslash : c ≠ '\\') (r : List Char) :
    literalText? none (c :: r) = (literalText? none r).map (c :: ·) := by
  rw [literalText?, if_neg (not_or.mpr ⟨hquote, hslash⟩)]
  · exact fun h => absurd h hquote
  · exact fun _ h => absurd h hslash
  · exact fun _ _ _ h => absurd h hslash
  · exact fun _ _ h => absurd h hslash

/-- A character is read back from between quotes. -/
theorem literalText?_escapeChar (c : Char) (r : List Char) :
    literalText? none (escapeChar c ++ r) = (literalText? none r).map (c :: ·) := by
  unfold escapeChar
  -- the short escapes
  iterate 6
    split
    · next h => subst h; rfl
  split
  · next hquote hslash _ _ _ _ _ => exact literalText?_cons hquote hslash r
  · show literalText? (some 0) (Nat.toDigits 16 c.toNat ++ ['\x7d'] ++ r) = _
    rw [List.append_assoc, literalText?_toDigits]
    show (charOfPoint? c.toNat).bind _ = _
    rw [charOfPoint?_toNat]
    rfl

/-- A text is read back from between quotes. -/
theorem literalText?_literalChars (cs : List Char) :
    literalText? none (Lexeme.literalChars cs ++ ['"']) = some cs := by
  induction cs with
  | nil => rfl
  | cons c cs ih =>
    rw [Lexeme.literalChars, List.append_assoc]
    split
    · next h =>
      obtain ⟨rfl, -⟩ := h
      show ((hexValues? ['0', '0'] >>= charOfPoint?).bind fun c =>
        (literalText? none (Lexeme.literalChars cs ++ ['"'])).map (c :: ·)) = _
      rw [ih]
      rfl
    · rw [literalText?_escapeChar, ih]
      rfl

/-- **A text is read back from its literal.** -/
theorem Lexeme.string?_ofString (s : String) : (Lexeme.ofString s).string? = some s := by
  unfold Lexeme.ofString Lexeme.string?
  dsimp only
  rw [String.toList_ofList]
  show (literalText? none (Lexeme.literalChars s.toList ++ ['"'])).map String.ofList = _
  rw [literalText?_literalChars]
  exact congrArg some String.ofList_toList

/-! ## Brackets -/

namespace Lexeme

variable {stop : Char → Bool} {n : Nesting} {ls ls' front rest : List Lexeme} {l : Lexeme}

/-- Behind lexemes at none of which they are parted, lexemes are parted as they are alone. -/
theorem partAt_append (h : (partAt stop n ls).2 = []) (ls' : List Lexeme) :
    partAt stop n (ls ++ ls') = (ls ++ (partAt stop (ls.foldl Nesting.after n) ls').1,
      (partAt stop (ls.foldl Nesting.after n) ls').2) := by
  induction ls generalizing n with
  | nil => rfl
  | cons l ls ih =>
    rw [partAt] at h
    rw [List.cons_append, partAt]
    split at h
    · cases h
    · next hstop =>
      rw [if_neg hstop, ih h]
      rfl

/-- Lexemes are parted in front of a mark that stands in no brackets. -/
theorem outside_of_partAt (h : partAt stop n ls = (front, l :: rest)) :
    (partAt stop n front).2 = [] ∧ (front.foldl Nesting.after n).isOutside = true ∧
      l.isStop stop = true := by
  induction ls generalizing n front with
  | nil => cases h
  | cons x ls ih =>
    rw [partAt] at h
    split at h
    · next hstop =>
      obtain ⟨rfl, hrest⟩ := Prod.mk.inj h
      obtain ⟨rfl, -⟩ := List.cons.inj hrest
      obtain ⟨houtside, hstop⟩ := Bool.and_eq_true_iff.mp hstop
      exact ⟨rfl, houtside, hstop⟩
    · next hstop =>
      obtain ⟨rfl, hrest⟩ := Prod.mk.inj h
      obtain ⟨hfront, houtside, hl⟩ := ih (Prod.ext rfl hrest)
      refine ⟨?_, houtside, hl⟩
      rw [partAt, if_neg hstop]
      exact hfront

/-- What is not parted is not parted anywhere in front either. -/
theorem partAt_front (h : (partAt stop n (ls ++ ls')).2 = []) : (partAt stop n ls).2 = [] := by
  induction ls generalizing n with
  | nil => rfl
  | cons l ls ih =>
    rw [List.cons_append, partAt] at h
    rw [partAt]
    split at h
    · cases h
    · next hstop =>
      rw [if_neg hstop]
      exact ih h

/-- Lexemes that can stand between angle brackets: none of them closes a bracket that is open
before, and what they open is closed. -/
structure IsArgument (ls : List Lexeme) : Prop where
  closes : (partAt (· == '>') {} ls).2 = []
  closed : (ls.foldl Nesting.after {}).isOutside = true

instance : Decidable (IsArgument ls) :=
  decidable_of_iff ((partAt (· == '>') {} ls).2 = [] ∧ (ls.foldl Nesting.after {}).isOutside = true)
    ⟨fun h => ⟨h.1, h.2⟩, fun h => ⟨h.1, h.2⟩⟩

theorem Nesting.eq_of_isOutside (h : n.isOutside = true) : n = {} := by
  obtain ⟨groups, angles⟩ := n
  obtain ⟨hgroups, hangles⟩ := Bool.and_eq_true_iff.mp h
  exact congrArg₂ Nesting.mk (eq_of_beq hgroups) (eq_of_beq hangles)

/-- What is read between angle brackets can stand there. -/
theorem isArgument_of_arguments {inside : List Lexeme} (h : arguments inside = .ok (ls, rest)) :
    IsArgument ls := by
  unfold arguments at h
  split at h
  · next hpart =>
    obtain ⟨rfl, -⟩ := Prod.mk.inj (Except.ok.inj h)
    obtain ⟨hcloses, hclosed, -⟩ := outside_of_partAt hpart
    exact ⟨hcloses, hclosed⟩
  · cases h

/-- The first of several arguments is an argument. -/
theorem IsArgument.first (h : IsArgument ls) : IsArgument (partAt (· == ',') {} ls).1 := by
  have happend := append_partAt (· == ',') {} ls
  cases hrest : (partAt (· == ',') {} ls).2 with
  | nil =>
    rw [hrest, List.append_nil] at happend
    rwa [happend]
  | cons l r =>
    obtain ⟨-, hclosed, -⟩ := outside_of_partAt (Prod.ext (by rfl) hrest)
    exact ⟨partAt_front (happend ▸ h.closes), hclosed⟩

/-- The arguments of a segment are an argument list. -/
theorem isArgument_of_pathSegment {s : PathSegment} (h : pathSegment ls = .ok (s, rest))
    {args : List Lexeme} (hargs : s.arguments = some args) : IsArgument args := by
  unfold pathSegment at h
  split at h
  · cases h
  · split at h
    · cases h
    · split at h
      · obtain ⟨rfl, -⟩ := Prod.mk.inj (Except.ok.inj h)
        cases hargs
      · obtain ⟨r, hr, h⟩ := map_eq_ok.mp h
        obtain ⟨rfl, -⟩ := Prod.mk.inj h
        obtain rfl := Option.some.inj hargs
        exact isArgument_of_arguments hr
  · cases h

theorem isArgument_of_pathSegments {segments : List PathSegment}
    (h : pathSegments ls = .ok (segments, rest)) {s : PathSegment} (hs : s ∈ segments)
    {args : List Lexeme} (hargs : s.arguments = some args) : IsArgument args := by
  induction hlength : ls.length using Nat.strongRecOn generalizing ls segments rest with
  | _ k ih =>
    subst hlength
    rw [pathSegments] at h
    split at h
    · cases h
    · next s' r hfirst =>
      split at h
      · obtain ⟨rfl, -⟩ := Prod.mk.inj (Except.ok.inj h)
        obtain rfl := List.mem_singleton.mp hs
        exact isArgument_of_pathSegment hfirst hargs
      · next t ht =>
        obtain ⟨r', hr', h⟩ := exists_of_bind_eq_ok h
        obtain ⟨rfl, -⟩ := Prod.mk.inj (Except.ok.inj h)
        rcases List.mem_cons.mp hs with rfl | hs
        · exact isArgument_of_pathSegment hfirst hargs
        · have hlt := Nat.lt_trans (length_of_afterColons? ht) (length_of_pathSegment hfirst)
          exact ih t.length hlt hr' hs rfl

/-- The arguments in a type are argument lists. -/
theorem isArgument_of_typeSegments? {type : List Lexeme} {segments : List PathSegment}
    (h : typeSegments? type = some segments) {s : PathSegment} (hs : s ∈ segments)
    {args : List Lexeme} (hargs : s.arguments = some args) : IsArgument args := by
  unfold typeSegments? at h
  split at h
  · obtain ⟨_, _, h⟩ := Option.bind_eq_some_iff.mp h
    obtain ⟨_, _, h⟩ := Option.bind_eq_some_iff.mp h
    obtain ⟨p, hp, h⟩ := Option.bind_eq_some_iff.mp h
    dsimp only at h
    split at h
    · obtain rfl := Option.some.inj h
      exact isArgument_of_pathSegments (ok_of_toOption hp) hs hargs
    · cases h
  · obtain ⟨p, hp, h⟩ := exists_of_bind_eq_ok (ok_of_toOption h)
    dsimp only at h
    split at h
    · obtain rfl := Except.ok.inj h
      exact isArgument_of_pathSegments hp hs hargs
    · cases h

/-- What stands in a wrapper is an argument. -/
theorem isArgument_of_wrapped? {wrapper : String} {type target : List Lexeme}
    (h : wrapped? wrapper type = some target) : IsArgument target := by
  obtain ⟨segments, hsegments, h⟩ := Option.bind_eq_some_iff.mp h
  obtain ⟨last, hlast, h⟩ := Option.bind_eq_some_iff.mp h
  obtain ⟨args, hargs, h⟩ := Option.bind_eq_some_iff.mp h
  dsimp only at h
  split at h
  · obtain rfl := Option.some.inj h
    exact (isArgument_of_typeSegments? hsegments (List.mem_of_getLast? hlast) hargs).first
  · cases h

/-! ### Groups -/

/-- Lexemes up to the mark that closes the last of what is open, and what follows it. -/
def group? (opened : List Char) : List Lexeme → Option (List Lexeme × List Lexeme)
  | [] => none
  | l :: r => (due? opened l).bind fun opened =>
    if opened.isEmpty then some ([], r) else (group? opened r).map fun g => (l :: g.1, g.2)

/-- What is due further out does not matter to what is closed further in. -/
theorem due?_append {opened opened' : List Char} (h : due? opened l = some opened')
    (more : List Char) : due? (opened ++ more) l = some (opened' ++ more) := by
  unfold due? at h ⊢
  split at h
  · next c =>
    split at h
    · obtain rfl := Option.some.inj h
      rfl
    · split at h
      · next hcloses =>
        split at h
        · next hhead =>
          obtain rfl := Option.some.inj h
          obtain ⟨d, rfl⟩ := List.head?_eq_some_iff.mp hhead
          rw [if_pos hcloses]
          exact if_pos rfl
        · cases h
      · next hcloses =>
        obtain rfl := Option.some.inj h
        exact if_neg hcloses
  · obtain rfl := Option.some.inj h
    rfl

theorem isBalanced_cons {opened : List Char} (h : isBalanced opened (l :: ls) = true) :
    ∃ opened', due? opened l = some opened' ∧ isBalanced opened' ls = true :=
  (Option.any_eq_true _ _).mp h

theorem isBalanced_append {opened opened' : List Char} (h : isBalanced opened ls = true)
    (h' : isBalanced opened' ls' = true) : isBalanced (opened ++ opened') (ls ++ ls') = true := by
  induction ls generalizing opened with
  | nil =>
    obtain rfl := List.isEmpty_iff.mp h
    exact h'
  | cons l ls ih =>
    obtain ⟨inner, hdue, hrest⟩ := isBalanced_cons h
    exact (Option.any_eq_true _ _).mpr ⟨_, due?_append hdue opened', ih hrest⟩

/-- What is balanced makes up a group. -/
theorem group?_of_isBalanced {opened : List Char} {c : Char} (h : isBalanced opened ls = true)
    (hc : due? [c] (.mark c) = some []) (rest : List Lexeme) :
    group? (opened ++ [c]) (ls ++ .mark c :: rest) = some (ls, rest) := by
  induction ls generalizing opened with
  | nil =>
    obtain rfl := List.isEmpty_iff.mp h
    show (due? [c] (.mark c)).bind _ = _
    rw [hc]
    rfl
  | cons l ls ih =>
    obtain ⟨opened', hdue, hrest⟩ := isBalanced_cons h
    have hne : (opened' ++ [c]).isEmpty = false := by simp
    rw [List.cons_append, group?, due?_append hdue, Option.bind_some, hne, ih hrest]
    rfl

/-- What follows a group is not read. -/
theorem group?_append {ls inner rest : List Lexeme} {opened : List Char}
    (h : group? opened ls = some (inner, rest)) (more : List Lexeme) :
    group? opened (ls ++ more) = some (inner, rest ++ more) := by
  induction ls generalizing opened inner with
  | nil => cases h
  | cons l ls ih =>
    obtain ⟨opened', hdue, h⟩ := Option.bind_eq_some_iff.mp h
    rw [List.cons_append, group?, hdue, Option.bind_some]
    split at h
    · next hempty =>
      obtain ⟨rfl, rfl⟩ := Prod.mk.inj (Option.some.inj h)
      rw [if_pos hempty]
    · next hopen =>
      obtain ⟨g, hg, h⟩ := Option.map_eq_some_iff.mp h
      obtain ⟨rfl, rfl⟩ := Prod.mk.inj h
      rw [if_neg hopen, ih hg]
      rfl

end Lexeme

/-! ## Readers -/

/-- What reads the front of lexemes and leaves the rest. -/
abbrev LexemeReader := StateT (List Lexeme) Option

namespace LexemeReader

/-- Reads what is expected. -/
def expect (ls : List Lexeme) : LexemeReader Unit := fun input =>
  (ls.isPrefixOf? input).map fun rest => ((), rest)

/-- Reads a name. -/
def name : LexemeReader String
  | .name s :: r => some (s, r)
  | _ => none

/-- Reads the literal of a text. -/
def string : LexemeReader String
  | l :: r => l.string?.map fun s => (s, r)
  | [] => none

/-- Reads a number, which may have a sign. -/
def number : LexemeReader String
  | .mark '-' :: .literal s :: r => some ("-" ++ s, r)
  | .literal s :: r => some (s, r)
  | _ => none

/-- Reads an argument and the angle bracket behind it. -/
def argument : LexemeReader (List Lexeme) := fun input => (arguments input).toOption

/-- Reads a visibility, which may be left out and may be restricted. -/
def visibility : LexemeReader (List Lexeme)
  | .name "pub" :: .mark '(' :: r =>
    (Lexeme.group? [')'] r).map fun g => (.name "pub" :: .mark '(' :: g.1 ++ [.mark ')'], g.2)
  | .name "pub" :: r => some ([.name "pub"], r)
  | r => some ([], r)

/-- Reads a visibility and the keyword of what is visible. -/
def visible (keyword : String) : LexemeReader (List Lexeme) := do
  let v ← visibility
  expect [.name keyword]
  return v

/-- Reads with one reader again and again, up to what is expected in the end. -/
def repeated {α : Type} (p : LexemeReader α) (last : List Lexeme) (input : List Lexeme) :
    Option (List α × List Lexeme) :=
  match last.isPrefixOf? input with
  | some rest => some ([], rest)
  | none =>
    (p input).bind fun (a, rest) =>
      if rest.length < input.length then (repeated p last rest).map fun (as, rest) => (a :: as, rest)
      else none
termination_by input.length

/-! ### What is read -/

/-- A reader takes lexemes for a value, whatever follows them. -/
def Reads {α : Type} (p : LexemeReader α) (ls : List Lexeme) (a : α) : Prop :=
  ∀ rest, p (ls ++ rest) = some (a, rest)

section Reads

variable {α β : Type} {p : LexemeReader α} {ls ls' : List Lexeme} {a : α} {b : β}

theorem Reads.pure (a : α) : Reads (Pure.pure a) [] a := fun _ => rfl

/-- What is read one after the other. -/
theorem Reads.bind {f : α → LexemeReader β} (h : Reads p ls a) (h' : Reads (f a) ls' b) :
    Reads (p >>= f) (ls ++ ls') b := by
  intro rest
  show (p (ls ++ ls' ++ rest) >>= fun r => f r.1 r.2) = _
  rw [List.append_assoc, h]
  exact h' rest

theorem Reads.of_eq (h : Reads p ls a) (hls : ls' = ls) : Reads p ls' a := hls ▸ h

theorem reads_expect (ls : List Lexeme) : Reads (expect ls) ls () := by
  intro rest
  rw [expect, List.isPrefixOf?_eq_some_iff_append_eq.mpr rfl]
  rfl

theorem reads_name (s : String) : Reads name [.name s] s := fun _ => rfl

theorem reads_string (s : String) : Reads string [.ofString s] s := by
  intro rest
  show ((Lexeme.ofString s).string?.map fun s => (s, rest)) = _
  rw [Lexeme.string?_ofString]
  rfl

theorem reads_number (literal : String) : Reads number (numberLexemes literal) literal := by
  unfold numberLexemes
  split
  · next r h =>
    intro rest
    have hsign : "-" ++ String.ofList r = literal := by
      rw [← String.toList_inj, h]
      simp
    show some ("-" ++ String.ofList r, rest) = _
    rw [hsign]
  · exact fun rest => rfl

/-- An argument is read up to the bracket behind it. -/
theorem reads_argument (h : Lexeme.IsArgument ls) : Reads argument (ls ++ [.mark '>']) ls := by
  intro rest
  -- behind an argument no bracket is open, so the next one is not inside
  have hpart : Lexeme.partAt (· == '>') {} (ls ++ .mark '>' :: rest) = (ls, .mark '>' :: rest) := by
    rw [Lexeme.partAt_append h.closes, Lexeme.Nesting.eq_of_isOutside h.closed]
    exact Prod.ext (List.append_nil ls) rfl
  rw [List.append_assoc]
  show (arguments (ls ++ .mark '>' :: rest)).toOption = _
  rw [arguments, hpart]
  rfl

/-- A visibility ends where a keyword stands. -/
theorem reads_visible {v : List Lexeme} {keyword : String} (h : visibility v = some (v, []))
    (hkeyword : keyword ≠ "pub") : Reads (visible keyword) (v ++ [.name keyword]) v := by
  intro rest
  have happend : visibility (v ++ .name keyword :: rest) = some (v, .name keyword :: rest) := by
    unfold visibility at h
    split at h
    · next r =>
      obtain ⟨g, hg, h⟩ := Option.map_eq_some_iff.mp h
      obtain ⟨hinner, hrest⟩ := Prod.mk.inj h
      show (Lexeme.group? [')'] (r ++ .name keyword :: rest)).map _ = _
      rw [Lexeme.group?_append hg, ← hinner, hrest]
      rfl
    · obtain ⟨-, rfl⟩ := Prod.mk.inj (Option.some.inj h)
      rfl
    · obtain ⟨rfl, -⟩ := Prod.mk.inj (Option.some.inj h)
      show visibility (.name keyword :: rest) = _
      rw [visibility]
      · exact fun _ h => absurd (Lexeme.name.inj (List.cons.inj h).1) hkeyword
      · exact fun _ h => absurd (Lexeme.name.inj (List.cons.inj h).1) hkeyword
  rw [List.append_assoc]
  show (visibility (v ++ .name keyword :: rest) >>= fun r => _) = _
  rw [happend]
  exact Reads.bind (f := fun _ => Pure.pure v) (reads_expect [.name keyword]) (Reads.pure v) rest

theorem reads_liftM {x : Option α} {a : α} (h : x = some a) :
    Reads (liftM x) [] a := by
  subst h
  exact fun rest => rfl

/-! ### Repetition -/

/-- Readers one after the other take lexemes for values, before what else they can take. -/
def ReadsEach (p : LexemeReader α) (last ls : List Lexeme) (as : List α) : Prop :=
  ∀ rest r, repeated p last rest = some r → repeated p last (ls ++ rest) = some (as ++ r.1, r.2)

variable {last : List Lexeme}

theorem ReadsEach.nil : ReadsEach p last [] [] := fun _ _ h => h

theorem ReadsEach.append {as as' : List α} (h : ReadsEach p last ls as)
    (h' : ReadsEach p last ls' as') : ReadsEach p last (ls ++ ls') (as ++ as') := by
  intro rest r hr
  rw [List.append_assoc, List.append_assoc]
  exact h _ _ (h' _ _ hr)

/-- A reader that takes something else than what comes last takes one value. -/
theorem ReadsEach.single (h : Reads p ls a) (hlast : ∀ rest, last.isPrefixOf? (ls ++ rest) = none) :
    ReadsEach p last ls [a] := by
  intro rest r hr
  have hne : ls ≠ [] := by
    rintro rfl
    have hnone := hlast last
    rw [List.nil_append, List.isPrefixOf?_eq_some_iff_append_eq.mpr (List.append_nil last)] at hnone
    cases hnone
  have hlt : rest.length < (ls ++ rest).length := by
    have hpos := List.length_pos_of_ne_nil hne
    rw [List.length_append]
    omega
  rw [repeated, hlast, h]
  dsimp only [Option.bind_some]
  rw [if_pos hlt, hr]
  rfl

theorem ReadsEach.flatMap {σ : Type} {xs : List σ} {emit : σ → List Lexeme} {f : σ → List α}
    (h : ∀ x ∈ xs, ReadsEach p last (emit x) (f x)) :
    ReadsEach p last (xs.flatMap emit) (xs.flatMap f) := by
  induction xs with
  | nil => exact .nil
  | cons x xs ih => exact (h x (.head _)).append (ih fun y hy => h y (.tail _ hy))

/-- Readers one after the other, up to what comes last. -/
theorem ReadsEach.reads {as : List α} (h : ReadsEach p last ls as) :
    Reads (repeated p last) (ls ++ last) as := by
  intro rest
  have hend : repeated p last (last ++ rest) = some ([], rest) := by
    rw [repeated, List.isPrefixOf?_eq_some_iff_append_eq.mpr rfl]
  rw [List.append_assoc, h _ _ hend, List.append_nil]

end Reads

end LexemeReader

end EntityMapper
