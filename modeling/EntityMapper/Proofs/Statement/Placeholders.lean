import Mathlib.Data.List.TakeWhile
import EntityMapper.Proofs.Filter.Resolved
import EntityMapper.Statement.Command

/-!
# Placeholders in texts

A placeholder is a marker with the characters after it that can stand in a name. A text that is put
together of pieces has the placeholders of the pieces, as long as no piece goes on with the name at
the end of the piece before it.

* `placeholderNames` — the placeholders of a text
* `placeholders_append_plain`, `placeholders_between`, `placeholders_intercalate` — texts put
  together
* `placeholders_condition` — the placeholders of a condition are its parameters
-/

namespace EntityMapper

/-! ## Names -/

/-- A name is made of letters, digits and underscores. -/
def IsIdentifier (s : String) : Prop := s.toList.all isParameterChar = true

instance (s : String) : Decidable (IsIdentifier s) := inferInstanceAs (Decidable (_ = true))

theorem IsIdentifier.append {s r : String} (hs : IsIdentifier s) (hr : IsIdentifier r) :
    IsIdentifier (s ++ r) := by
  unfold IsIdentifier at *
  rw [String.toList_append, List.all_append, hs, hr]
  rfl

theorem IsIdentifier.intercalate {separator : String} (hseparator : IsIdentifier separator)
    {names : List String} (h : ∀ s ∈ names, IsIdentifier s) :
    IsIdentifier (separator.intercalate names) := by
  match names with
  | [] => rfl
  | [s] =>
    rw [String.intercalate_singleton]
    exact h s List.mem_cons_self
  | s :: r :: rest =>
    rw [String.intercalate_cons_cons]
    exact ((h s List.mem_cons_self).append hseparator).append
      (intercalate hseparator fun u hu => h u (List.mem_cons_of_mem _ hu))

theorem isIdentifier_parameterName {leading : String} (h : IsIdentifier leading) (i : Nat) :
    IsIdentifier (parameterName leading i) := by
  have hdigits : IsIdentifier (String.ofList (natDigits i)) := by
    rw [IsIdentifier, String.toList_ofList]
    refine List.all_eq_true.mpr fun d hd => ?_
    have hdigit := isDigit_natDigits hd
    simp [isParameterChar, Char.isAlphanum, hdigit]
  exact (IsIdentifier.append (by decide) h).append hdigits

/-! ## Placeholders of characters -/

/-- The names of the placeholders in a text. -/
def placeholderNames (marker : Char) : List Char → List String
  | [] => []
  | c :: r =>
    if c = marker then String.ofList (r.takeWhile isParameterChar) :: placeholderNames marker r
    else placeholderNames marker r

/-- A text that does not go on with a name. -/
def StartsApart (cs : List Char) : Prop := ∀ c ∈ cs.head?, isParameterChar c = false

variable {marker : Char}

theorem takeWhile_append_of_apart {cs rest : List Char} (h : StartsApart rest) :
    (cs ++ rest).takeWhile isParameterChar = cs.takeWhile isParameterChar := by
  induction cs with
  | nil =>
    cases rest with
    | nil => rfl
    | cons c r =>
      have hc : isParameterChar c = false := h c rfl
      simp [hc]
  | cons c r ih => rw [List.cons_append, List.takeWhile_cons, List.takeWhile_cons, ih]

/-- What follows a text and does not go on with its last name. -/
theorem placeholderNames_append (cs : List Char) {rest : List Char} (h : StartsApart rest) :
    placeholderNames marker (cs ++ rest) =
      placeholderNames marker cs ++ placeholderNames marker rest := by
  induction cs with
  | nil => rfl
  | cons c r ih =>
    rw [List.cons_append, placeholderNames, placeholderNames, ih]
    split
    · rw [takeWhile_append_of_apart h, List.cons_append]
    · rfl

/-- What follows a text without a marker. -/
theorem placeholderNames_plain {cs : List Char} (h : marker ∉ cs) (rest : List Char) :
    placeholderNames marker (cs ++ rest) = placeholderNames marker rest := by
  induction cs with
  | nil => rfl
  | cons c r ih =>
    obtain ⟨hc, hr⟩ := List.ne_and_not_mem_of_not_mem_cons h
    rw [List.cons_append, placeholderNames, if_neg hc.symm, ih hr]

/-! ## Texts without placeholders -/

/-- A text has no marker of any database. -/
def IsPlain (s : String) : Prop := s.toList.all (fun c => !isMarker c) = true

instance (s : String) : Decidable (IsPlain s) := inferInstanceAs (Decidable (_ = true))

/-- A text without markers that keeps apart what is before it and after it. -/
def IsSeparator (s : String) : Prop :=
  IsPlain s ∧ s.toList.head?.any (fun c => !isParameterChar c) = true

instance (s : String) : Decidable (IsSeparator s) := inferInstanceAs (Decidable (_ ∧ _))

@[simp] theorem isPlain_append {s r : String} : IsPlain (s ++ r) ↔ IsPlain s ∧ IsPlain r := by
  unfold IsPlain
  rw [String.toList_append, List.all_append, Bool.and_eq_true]

theorem IsPlain.intercalate {separator : String} (hseparator : IsPlain separator)
    {texts : List String} (h : ∀ s ∈ texts, IsPlain s) :
    IsPlain (separator.intercalate texts) := by
  match texts with
  | [] => rfl
  | [s] =>
    rw [String.intercalate_singleton]
    exact h s List.mem_cons_self
  | s :: r :: rest =>
    rw [String.intercalate_cons_cons, isPlain_append, isPlain_append]
    exact ⟨⟨h s List.mem_cons_self, hseparator⟩,
      intercalate hseparator fun u hu => h u (List.mem_cons_of_mem _ hu)⟩

/-- No marker can stand in a name. -/
theorem not_isParameterChar_of_isMarker {c : Char} (h : isMarker c = true) :
    isParameterChar c = false := by
  unfold isMarker at h
  rw [Bool.or_eq_true, beq_iff_eq, beq_iff_eq] at h
  rcases h with rfl | rfl
  · decide
  · decide

theorem IsIdentifier.plain {s : String} (h : IsIdentifier s) : IsPlain s := by
  refine List.all_eq_true.mpr fun c hc => ?_
  have hname := List.all_eq_true.mp h c hc
  cases hmarker : isMarker c with
  | false => rfl
  | true =>
    rw [not_isParameterChar_of_isMarker hmarker] at hname
    exact nomatch hname

theorem IsSeparator.startsApart {s : String} (h : IsSeparator s) (rest : List Char) :
    StartsApart (s.toList ++ rest) := by
  obtain ⟨-, h⟩ := h
  intro c hc
  cases hs : s.toList with
  | nil =>
    rw [hs] at h
    exact nomatch h
  | cons b r =>
    rw [hs] at h hc
    obtain rfl : b = c := Option.some.inj hc
    simpa using h

/-- A qualified name has no markers where neither part has. -/
theorem isPlain_columnText {qualifier : Option String} {name : String}
    (hqualifier : ∀ q, qualifier = some q → IsIdentifier q) (hname : IsIdentifier name) :
    IsPlain (Condition.columnText qualifier name) := by
  cases qualifier with
  | none => exact hname.plain
  | some q =>
    simp +decide only [Condition.columnText, isPlain_append, (hqualifier q rfl).plain, hname.plain]

/-- Where names are identifiers, the columns of conditions have no markers. -/
theorem Scope.AllNames.isPlain_column {s : Scope} (hs : s.AllNames IsIdentifier)
    {path : List String} {qualifier : Option String} {name : String}
    (h : s.column path = .ok (.column qualifier name)) :
    IsPlain (Condition.columnText qualifier name) := by
  obtain ⟨hqualifier, hname⟩ :=
    hs.column (fun _ hnames => IsIdentifier.intercalate (by decide) hnames) h
  exact isPlain_columnText hqualifier hname

/-! ## Placeholders of statements -/

namespace Dialect

/-- The names of the placeholders in a statement. -/
def placeholders (d : Dialect) (s : String) : List String := placeholderNames d.marker s.toList

/-- A dialect marks parameters as one of the databases does. -/
def Marks (d : Dialect) : Prop := isMarker d.marker = true

theorem marks_of (database : Database) : (Dialect.of database).Marks := by
  cases database <;> exact rfl

variable {d : Dialect} {s r separator : String}

theorem Marks.not_mem (hd : d.Marks) (h : IsPlain s) : d.marker ∉ s.toList := by
  intro hmem
  have hmarker := List.all_eq_true.mp h d.marker hmem
  rw [hd] at hmarker
  exact nomatch hmarker

/-- A text without markers has no placeholders. -/
theorem placeholders_plain (hd : d.Marks) (h : IsPlain s) : d.placeholders s = [] := by
  have hplain := placeholderNames_plain (hd.not_mem h) []
  rwa [List.append_nil] at hplain

/-- A text without markers in front adds no placeholders. -/
theorem placeholders_append_plain (hd : d.Marks) (h : IsPlain s) (r : String) :
    d.placeholders (s ++ r) = d.placeholders r := by
  unfold placeholders
  rw [String.toList_append, placeholderNames_plain (hd.not_mem h)]

/-- Two texts with a separator between them. -/
theorem placeholders_between (hd : d.Marks) (h : IsSeparator separator) (s r : String) :
    d.placeholders (s ++ separator ++ r) = d.placeholders s ++ d.placeholders r := by
  rw [String.append_assoc]
  unfold placeholders
  rw [String.toList_append, String.toList_append, placeholderNames_append _ (h.startsApart _),
    placeholderNames_plain (hd.not_mem h.1)]

/-- A separator after a text adds no placeholders. -/
theorem placeholders_append_separator (hd : d.Marks) (h : IsSeparator separator) (s : String) :
    d.placeholders (s ++ separator) = d.placeholders s := by
  have hbetween := placeholders_between hd h s ""
  rwa [String.append_empty, show d.placeholders "" = [] from rfl, List.append_nil] at hbetween

/-- Several texts with a separator between each of them and the next. -/
theorem placeholders_intercalate (hd : d.Marks) (h : IsSeparator separator) (texts : List String) :
    d.placeholders (separator.intercalate texts) = texts.flatMap d.placeholders := by
  match texts with
  | [] => rfl
  | [s] => rw [String.intercalate_singleton, List.flatMap_cons, List.flatMap_nil, List.append_nil]
  | s :: r :: rest =>
    rw [String.intercalate_cons_cons, placeholders_between hd h, placeholders_intercalate hd h]
    rfl

/-- The placeholder of a name has that name. -/
theorem placeholders_placeholder (hd : d.Marks) (h : IsIdentifier s) :
    d.placeholders (d.placeholder s) = [s] := by
  have hname : s.toList.takeWhile isParameterChar = s.toList :=
    List.takeWhile_eq_self_iff.mpr fun c hc => List.all_eq_true.mp h c hc
  have hrest : placeholderNames d.marker s.toList = [] := placeholders_plain hd h.plain
  rw [placeholders, toList_placeholder, placeholderNames, if_pos rfl, hname, hrest,
    String.ofList_toList]

/-- The placeholders of several names, with a separator between them. -/
theorem placeholders_list (hd : d.Marks) (h : IsSeparator separator) {names : List String}
    (hnames : ∀ name ∈ names, IsIdentifier name) :
    d.placeholders (separator.intercalate (names.map d.placeholder)) = names := by
  rw [placeholders_intercalate hd h, List.flatMap_map]
  induction names with
  | nil => rfl
  | cons name rest ih =>
    rw [List.flatMap_cons, placeholders_placeholder hd (hnames name List.mem_cons_self),
      ih fun n hn => hnames n (List.mem_cons_of_mem _ hn)]
    rfl

/-! ## Conditions -/

/-- Two operands around an operator. -/
theorem placeholders_operator (hd : d.Marks) {operator : String}
    (h : IsSeparator (" " ++ operator ++ " ")) (s r : String) :
    d.placeholders (s ++ " " ++ operator ++ " " ++ r) = d.placeholders s ++ d.placeholders r := by
  have htext : s ++ " " ++ operator ++ " " ++ r = s ++ (" " ++ operator ++ " ") ++ r := by
    simp only [String.append_assoc]
  rw [htext, placeholders_between hd h]

/-- A text in brackets, behind a text without markers. -/
theorem placeholders_enclosed (hd : d.Marks) (h : IsPlain r) (s : String) :
    d.placeholders (r ++ s ++ ")") = d.placeholders s := by
  rw [placeholders_append_separator hd (by decide), placeholders_append_plain hd h]

theorem isSeparator_compareOp (op : CompareOp) : IsSeparator (" " ++ op.sql ++ " ") := by
  cases op <;> decide

theorem isSeparator_arithmeticOp (op : ArithmeticOp) : IsSeparator (" " ++ op.sql ++ " ") := by
  cases op <;> decide

/-- **The placeholders of a condition are its parameters**, from left to right. -/
theorem placeholders_condition (hd : d.Marks) {leading : String} (hleading : IsIdentifier leading)
    {c : Condition} (hcolumns : ∀ col ∈ c.columns, IsPlain (Condition.columnText col.1 col.2)) :
    d.placeholders (c.text fun i => d.placeholder (parameterName leading i)) =
      c.parameters.map (parameterName leading) := by
  -- what stands on both sides of an operator or a connective names the columns of the whole
  have hleft : ∀ {l r : List (Option String × String)},
      (∀ col ∈ l ++ r, IsPlain (Condition.columnText col.1 col.2)) →
        ∀ col ∈ l, IsPlain (Condition.columnText col.1 col.2) :=
    fun h col hcol => h col (List.mem_append_left _ hcol)
  have hright : ∀ {l r : List (Option String × String)},
      (∀ col ∈ l ++ r, IsPlain (Condition.columnText col.1 col.2)) →
        ∀ col ∈ r, IsPlain (Condition.columnText col.1 col.2) :=
    fun h col hcol => h col (List.mem_append_right _ hcol)
  have hname := isIdentifier_parameterName hleading
  induction c with
  | null => exact placeholders_plain hd (show IsPlain "null" by decide)
  | never => exact placeholders_plain hd (show IsPlain "1 = 0" by decide)
  | column qualifier name => exact placeholders_plain hd (hcolumns _ (List.mem_singleton_self _))
  | parameter i => exact placeholders_placeholder hd (hname i)
  | compare op l r ihl ihr =>
    rw [Condition.text, Condition.parameters, List.map_append,
      placeholders_operator hd (isSeparator_compareOp op), ihl (hleft hcolumns),
      ihr (hright hcolumns)]
  | isNull e ih =>
    rw [Condition.text, Condition.parameters, placeholders_append_separator hd (by decide),
      ih hcolumns]
  | isNotNull e ih =>
    rw [Condition.text, Condition.parameters, placeholders_append_separator hd (by decide),
      ih hcolumns]
  | and l r ihl ihr =>
    rw [Condition.text, Condition.parameters, List.map_append,
      placeholders_append_separator hd (by decide), placeholders_between hd (by decide),
      placeholders_append_plain hd (by decide), ihl (hleft hcolumns), ihr (hright hcolumns)]
  | or l r ihl ihr =>
    rw [Condition.text, Condition.parameters, List.map_append,
      placeholders_append_separator hd (by decide), placeholders_between hd (by decide),
      placeholders_append_plain hd (by decide), ihl (hleft hcolumns), ihr (hright hcolumns)]
  | not e ih =>
    rw [Condition.text, Condition.parameters, placeholders_enclosed hd (by decide), ih hcolumns]
  | arithmetic op l r ihl ihr =>
    rw [Condition.text, Condition.parameters, List.map_append,
      placeholders_append_separator hd (by decide),
      placeholders_operator hd (isSeparator_arithmeticOp op),
      placeholders_append_plain hd (by decide), ihl (hleft hcolumns), ihr (hright hcolumns)]
  | like e pattern ih =>
    rw [Condition.text, Condition.parameters, List.map_append, placeholders_between hd (by decide),
      ih hcolumns, placeholders_placeholder hd (hname pattern)]
    rfl
  | isIn e items ih =>
    have hitems : items.map (fun i => d.placeholder (parameterName leading i)) =
        (items.map (parameterName leading)).map d.placeholder := by rw [List.map_map]; rfl
    rw [Condition.text, Condition.parameters, List.map_append,
      placeholders_append_separator hd (by decide), placeholders_between hd (by decide),
      ih hcolumns, hitems,
      placeholders_list hd (by decide) (List.forall_mem_map.mpr fun i _ => hname i)]
  | lower e ih =>
    rw [Condition.text, Condition.parameters, placeholders_enclosed hd (by decide), ih hcolumns]
  | upper e ih =>
    rw [Condition.text, Condition.parameters, placeholders_enclosed hd (by decide), ih hcolumns]

end Dialect

end EntityMapper
