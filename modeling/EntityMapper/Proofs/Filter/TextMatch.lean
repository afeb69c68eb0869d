import EntityMapper.Predicate.Column
import EntityMapper.Proofs.Filter.Translation
import EntityMapper.Text.Like

/-!
# What text predicates match

A text predicate binds a pattern: its text, with `%` on the sides where something else may stand.
The text goes into the pattern as it is, so its own `%` and `_` stand for other characters as well.
The predicate finds its text literally just if it has neither of them.

* `likeMatches_append` — patterns behind each other match texts behind each other
* `likeMatches_pattern` — a text predicate finds what its text matches as a pattern
* `condition_textCall` — which texts are found literally
-/

namespace EntityMapper

variable {fold : Char → Char} {p q s : List Char}

/-! ## Patterns -/

/-- A run of any characters goes up to some rest. -/
theorem likeMatches_run :
    likeMatches fold ('%' :: p) s = true ↔ ∃ rest, rest <:+ s ∧ likeMatches fold p rest = true := by
  simp only [likeMatches, if_true, List.any_eq_true, mem_suffixes]

/-- Any other character of a pattern stands for one character. -/
theorem likeMatches_cons {c : Char} (hc : c ≠ '%') :
    likeMatches fold (c :: p) s = true ↔
      ∃ d r, s = d :: r ∧ (c = '_' ∨ fold c = fold d) ∧ likeMatches fold p r = true := by
  cases s with
  | nil => simp [likeMatches, hc]
  | cons d r => simp [likeMatches, hc]

theorem likeMatches_nil : likeMatches fold [] s = true ↔ s = [] := by
  simp [likeMatches]

/-- **Patterns behind each other match texts behind each other.** -/
theorem likeMatches_append :
    likeMatches fold (p ++ q) s = true ↔
      ∃ a b, s = a ++ b ∧ likeMatches fold p a = true ∧ likeMatches fold q b = true := by
  induction p generalizing s with
  | nil => simp [likeMatches_nil]
  | cons c p ih =>
    rw [List.cons_append]
    by_cases hc : c = '%'
    · subst hc
      simp only [likeMatches_run, ih]
      constructor
      · rintro ⟨rest, ⟨run, rfl⟩, a, b, rfl, ha, hb⟩
        exact ⟨run ++ a, b, by simp, ⟨a, List.suffix_append run a, ha⟩, hb⟩
      · rintro ⟨a, b, rfl, ⟨r, ⟨run, rfl⟩, hr⟩, hb⟩
        exact ⟨r ++ b, ⟨run, by simp⟩, r, b, rfl, hr, hb⟩
    · simp only [likeMatches_cons hc, ih]
      constructor
      · rintro ⟨d, r, rfl, hd, a, b, rfl, ha, hb⟩
        exact ⟨d :: a, b, rfl, ⟨d, a, rfl, hd, ha⟩, hb⟩
      · rintro ⟨a, b, rfl, ⟨d, r, rfl, hd, hr⟩, hb⟩
        exact ⟨d, r ++ b, rfl, hd, r, b, rfl, hr, hb⟩

/-- A pattern without `%` and `_`. -/
def IsLiteral (p : List Char) : Prop := ∀ c ∈ p, c ≠ '%' ∧ c ≠ '_'

/-- A pattern without `%` and `_` matches itself alone, up to the folding. -/
theorem likeMatches_literal (h : IsLiteral p) :
    likeMatches fold p s = true ↔ p.map fold = s.map fold := by
  induction p generalizing s with
  | nil => simp [likeMatches_nil]
  | cons c p ih =>
    obtain ⟨hrun, hany⟩ := h c List.mem_cons_self
    have hrest : IsLiteral p := fun d hd => h d (List.mem_cons_of_mem c hd)
    rw [likeMatches_cons hrun]
    cases s with
    | nil => simp
    | cons d r => simp [ih hrest, hany]

/-! ## A text that only a pattern matches -/

/-- A text that a pattern matches, with nothing for `%` and with one character for every `_`. -/
def likeSample (other : Char) (p : List Char) : List Char :=
  (p.filter (· != '%')).map fun c => if c = '_' then other else c

theorem likeMatches_sample (other : Char) (p : List Char) :
    likeMatches fold p (likeSample other p) = true := by
  induction p with
  | nil => rfl
  | cons c p ih =>
    by_cases hc : c = '%'
    · subst hc
      have hskip : likeSample other ('%' :: p) = likeSample other p := by simp [likeSample]
      rw [hskip, likeMatches_run]
      exact ⟨_, List.suffix_refl _, ih⟩
    · have hkeep : likeSample other (c :: p) =
          (if c = '_' then other else c) :: likeSample other p := by simp [likeSample, hc]
      rw [hkeep, likeMatches_cons hc]
      refine ⟨_, _, rfl, ?_, ih⟩
      split
      · exact .inl ‹_›
      · exact .inr rfl

/-- A text that occurs in its own sample has neither of the two characters: with a `%` it is longer,
and in place of a `_` the sample has another character. -/
theorem isLiteral_of_infix_sample {other : Char} (hother : fold other ≠ fold '_')
    (h : p.map fold <:+: (likeSample other p).map fold) : IsLiteral p := by
  have hlength := h.length_le
  have hfilter := List.length_filter_le (· != '%') p
  rw [List.length_map, List.length_map, likeSample, List.length_map] at hlength
  have hrun : ∀ c ∈ p, (c != '%') = true :=
    List.length_filter_eq_length_iff.mp (le_antisymm hfilter hlength)
  have hsample : likeSample other p = p.map fun c => if c = '_' then other else c := by
    rw [likeSample, List.filter_eq_self.mpr hrun]
  rw [hsample, List.map_map] at h
  have hsame := List.map_inj_left.mp (h.eq_of_length (by simp))
  intro c hc
  refine ⟨by simpa using hrun c hc, ?_⟩
  rintro rfl
  exact hother (by simpa using (hsame '_' hc).symm)

/-! ## Text methods -/

/-- Where a text method looks for one text in another. -/
def Method.Finds : Method → List Char → List Char → Prop
  | .contains, part, whole => part <:+: whole
  | .startsWith, part, whole => part <+: whole
  | .endsWith, part, whole => part <:+ whole
  | _, _, _ => False

variable {m : Method} {t pattern : String}

theorem Method.Finds.infix {part whole : List Char} (h : m.Finds part whole) : part <:+: whole := by
  cases m with
  | contains => exact h
  | startsWith => exact List.IsPrefix.isInfix h
  | endsWith => exact List.IsSuffix.isInfix h
  | _ => exact h.elim

/-- A text is found in itself. -/
theorem Method.finds_self (h : m.pattern? t = some pattern) (s : List Char) : m.Finds s s := by
  cases m with
  | contains => exact List.infix_refl s
  | startsWith => exact List.prefix_refl s
  | endsWith => exact List.suffix_refl s
  | _ => exact nomatch h

/-- What is found in a text with all characters folded is a part of it, folded. -/
theorem Method.finds_map {part whole : List Char} :
    m.Finds part (whole.map fold) ↔ ∃ found, m.Finds found whole ∧ part = found.map fold := by
  cases m with
  | contains => exact List.infix_map_iff
  | startsWith => exact List.prefix_map_iff
  | endsWith => exact List.suffix_map_iff
  | _ => simp [Method.Finds]

/-- A run at the end of a pattern lets a text go on. -/
theorem likeMatches_append_run :
    likeMatches fold (p ++ ['%']) s = true ↔
      ∃ found, found <+: s ∧ likeMatches fold p found = true := by
  rw [likeMatches_append]
  constructor
  · rintro ⟨a, b, rfl, ha, -⟩
    exact ⟨a, List.prefix_append a b, ha⟩
  · rintro ⟨a, ⟨b, rfl⟩, ha⟩
    exact ⟨a, b, rfl, ha, likeMatches_any fold b⟩

/-- **A text predicate finds what its text matches as a pattern.** -/
theorem likeMatches_pattern (h : m.pattern? t = some pattern) :
    likeMatches fold pattern.toList s = true ↔
      ∃ found, m.Finds found s ∧ likeMatches fold t.toList found = true := by
  have hrun : "%".toList = ['%'] := rfl
  cases m with
  | contains =>
    obtain rfl := Option.some.inj h
    rw [String.toList_append, String.toList_append, hrun, List.append_assoc, List.singleton_append,
      likeMatches_run]
    simp only [likeMatches_append_run]
    constructor
    · rintro ⟨rest, hrest, found, hfound, hmatch⟩
      exact ⟨found, hfound.isInfix.trans hrest.isInfix, hmatch⟩
    · rintro ⟨found, hfound, hmatch⟩
      obtain ⟨before, after, rfl⟩ := hfound
      exact ⟨found ++ after, ⟨before, by simp⟩, found, List.prefix_append found after, hmatch⟩
  | startsWith =>
    obtain rfl := Option.some.inj h
    rw [String.toList_append, hrun, likeMatches_append_run]
    rfl
  | endsWith =>
    obtain rfl := Option.some.inj h
    rw [String.toList_append, hrun, List.singleton_append, likeMatches_run]
    rfl
  | _ => exact nomatch h

/-- A text predicate finds its text literally just if this has neither `%` nor `_`. -/
theorem likeMatches_pattern_literal (h : m.pattern? t = some pattern)
    (hfold : ∃ c, fold c ≠ fold '_') :
    (∀ s : String, likeMatches fold pattern.toList s.toList = true ↔
        m.Finds (t.toList.map fold) (s.toList.map fold)) ↔ IsLiteral t.toList := by
  constructor
  · intro hliteral
    obtain ⟨other, hother⟩ := hfold
    -- the predicate finds the sample, so the text occurs in it
    have hsample := hliteral (String.ofList (likeSample other t.toList))
    rw [String.toList_ofList, likeMatches_pattern h] at hsample
    have hfinds := hsample.mp ⟨_, Method.finds_self h _, likeMatches_sample other t.toList⟩
    exact isLiteral_of_infix_sample hother hfinds.infix
  · intro hliteral s
    rw [likeMatches_pattern h, Method.finds_map]
    simp only [likeMatches_literal hliteral]

/-! ## Predicates -/

/-- **What a text predicate matches.** Its condition is a `LIKE` on the bound pattern, whatever is
bound before it. A stored text satisfies it where it has a part, at the end where the method looks,
that the predicate's text matches as a pattern; this is the text itself, up to the folding, for all
stored texts just if the predicate's text has neither `%` nor `_`. -/
theorem condition_textCall {scope : Scope} {column : Column} {bound bound' : List Value}
    {c : Condition} (hmethod : m = .contains ∨ m = .startsWith ∨ m = .endsWith)
    (h : scope.condition (column.textCall m t).expr bound = .ok (c, bound')) :
    ∃ target i pattern, c = .like target i ∧ bound'[i]? = some (.text pattern) ∧
      ∀ fold : Char → Char,
        (∀ stored : String, likeMatches fold pattern.toList stored.toList = true ↔
          ∃ found, m.Finds found stored.toList ∧ likeMatches fold t.toList found = true) ∧
        ((∃ c, fold c ≠ fold '_') →
          ((∀ stored : String, likeMatches fold pattern.toList stored.toList = true ↔
            m.Finds (t.toList.map fold) (stored.toList.map fold)) ↔ IsLiteral t.toList)) := by
  obtain ⟨text, pattern, target, bound₁, hargs, hpattern, -, rfl, rfl⟩ :=
    condition_pattern hmethod h
  obtain rfl : t = text := by simpa using hargs
  refine ⟨target, bound₁.length, pattern, rfl, by simp, fun fold => ?_⟩
  refine ⟨fun stored => ?_, fun hfold => ?_⟩
  · exact likeMatches_pattern hpattern
  · exact likeMatches_pattern_literal hpattern hfold

/-- Books with `50%` in their title are looked for with a pattern that other titles match as
well. -/
theorem condition_textCall_library :
    let titled := (Chain.named "books").column (.named "title")
    Library.authorScope.condition (titled.contains "50%").expr [] =
        .ok (.like (.column (some "books") "title") 0, [.text "%50%%"]) ∧
      ¬ ∀ stored : String, likeMatches foldLetter "%50%%".toList stored.toList = true ↔
          Method.contains.Finds ("50%".toList.map foldLetter) (stored.toList.map foldLetter) := by
  intro titled
  have hcondition : Library.authorScope.condition (titled.contains "50%").expr [] =
      .ok (.like (.column (some "books") "title") 0, [.text "%50%%"]) := by rfl
  obtain ⟨target, i, pattern, hlike, hbound, hmatches⟩ := condition_textCall (.inl rfl) hcondition
  obtain ⟨-, rfl⟩ := Condition.like.inj hlike
  obtain rfl := Value.text.inj (Option.some.inj hbound)
  refine ⟨hcondition, fun hliteral => ?_⟩
  have hfold : ∃ c, foldLetter c ≠ foldLetter '_' := ⟨'a', by decide⟩
  have hplain := ((hmatches foldLetter).2 hfold).mp hliteral
  exact (hplain '%' (by decide)).1 rfl

end EntityMapper
