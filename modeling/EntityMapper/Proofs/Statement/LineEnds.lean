import EntityMapper.Statement

/-!
# Line ends of saved scripts

A saved script is compared by its text, but not by the ends of its lines and by the white space at
its end.

* `Respelled` — newlines are replaced by a carriage return and a newline
* `unifyLineEnds_append` — white space that is put at the end stays at the end
* `definitionsMatch_respelled` — neither changes what a script matches
-/

namespace EntityMapper

/-! ## One line end for two -/

/-- A carriage return in front of a newline is one line end with it. -/
theorem unifyLineEnds_pair (r : List Char) :
    unifyLineEnds ('\r' :: '\n' :: r) = '\n' :: unifyLineEnds r := rfl

theorem unifyLineEnds_cons {c : Char} {r : List Char} (h : c = '\r' → r.head? ≠ some '\n') :
    unifyLineEnds (c :: r) = c :: unifyLineEnds r := by
  rw [unifyLineEnds]
  rintro r' rfl rfl
  exact h rfl rfl

theorem unifyLineEnds_self {cs : List Char} (h : '\r' ∉ cs) : unifyLineEnds cs = cs := by
  induction cs with
  | nil => rfl
  | cons c r ih =>
    have hc : c ≠ '\r' := fun heq => h (heq ▸ List.mem_cons_self)
    rw [unifyLineEnds_cons fun heq => absurd heq hc, ih fun hr => h (List.mem_cons_of_mem _ hr)]

theorem trimRight_concat {c : Char} (h : isBlank c = false) (cs : List Char) :
    trimRight (cs ++ [c]) = cs ++ [c] := by
  rw [trimRight, trimLeft_eq_self, List.reverse_reverse]
  simpa using h

theorem trimRight_append {blanks : List Char} (h : ∀ c ∈ blanks, isBlank c = true)
    (cs : List Char) : trimRight (cs ++ blanks) = trimRight cs := by
  rw [trimRight, trimRight, List.reverse_append, trimLeft, trimLeft,
    List.dropWhile_append_of_pos fun c hc => h c (List.mem_reverse.mp hc)]

/-- Replacing newlines: a newline may be replaced by a carriage return and a newline. Where a
carriage return stands in front of it, the two are one line end and stay so. -/
inductive Respelled : List Char → List Char → Prop
  | nil : Respelled [] []
  | pair {r r' : List Char} (h : Respelled r r') :
      Respelled ('\r' :: '\n' :: r) ('\r' :: '\n' :: r')
  | replaced {r r' : List Char} (h : Respelled r r') :
      Respelled ('\n' :: r) ('\r' :: '\n' :: r')
  | kept {c : Char} {r r' : List Char} (hc : c = '\r' → r.head? ≠ some '\n')
      (h : Respelled r r') : Respelled (c :: r) (c :: r')

/-- All newlines may be replaced. -/
theorem respelled_all {cs : List Char} (h : '\r' ∉ cs) :
    Respelled cs (cs.flatMap fun c => if c = '\n' then ['\r', '\n'] else [c]) := by
  induction cs with
  | nil => exact .nil
  | cons c r ih =>
    have hrest := ih fun hr => h (List.mem_cons_of_mem _ hr)
    rw [List.flatMap_cons]
    by_cases hc : c = '\n'
    · subst hc
      exact .replaced hrest
    · rw [if_neg hc]
      exact .kept (fun heq => absurd (heq ▸ List.mem_cons_self) h) hrest

theorem Respelled.head {cs cs' : List Char} (h : Respelled cs cs') (hhead : cs'.head? = some '\n') :
    cs.head? = some '\n' := by
  cases h with
  | nil => exact hhead
  | pair h => cases hhead
  | replaced h => rfl
  | kept hc h => exact hhead

theorem Respelled.unifyLineEnds_eq {cs cs' : List Char} (h : Respelled cs cs') :
    unifyLineEnds cs' = unifyLineEnds cs := by
  induction h with
  | nil => rfl
  | pair h ih => rw [unifyLineEnds_pair, unifyLineEnds_pair, ih]
  | @replaced r r' h ih =>
    have hnewline : '\n' = '\r' → r.head? ≠ some '\n' := fun heq => absurd heq (by decide)
    rw [unifyLineEnds_pair, unifyLineEnds_cons hnewline, ih]
  | kept hc h ih =>
    rw [unifyLineEnds_cons hc, unifyLineEnds_cons fun heq hhead => hc heq (h.head hhead), ih]

theorem mem_of_mem_unifyLineEnds {c : Char} {cs : List Char} (h : c ∈ unifyLineEnds cs) :
    c ∈ cs := by
  induction cs using unifyLineEnds.induct with
  | case1 r ih =>
    rw [unifyLineEnds_pair, List.mem_cons] at h
    rcases h with rfl | h
    · simp
    · exact List.mem_cons_of_mem _ (List.mem_cons_of_mem _ (ih h))
  | case2 d r hd ih =>
    rw [unifyLineEnds.eq_2 d r hd, List.mem_cons] at h
    rcases h with rfl | h
    · exact List.mem_cons_self
    · exact List.mem_cons_of_mem _ (ih h)
  | case3 => exact h

/-- White space at the end of a text stays at its end. A carriage return at the end may become one
with a newline behind it, but it is white space itself. -/
theorem unifyLineEnds_append (cs : List Char) {blanks : List Char}
    (h : ∀ c ∈ blanks, isBlank c = true) :
    ∃ front back back', unifyLineEnds (cs ++ blanks) = front ++ back ∧
      unifyLineEnds cs = front ++ back' ∧ (∀ c ∈ back, isBlank c = true) ∧
      ∀ c ∈ back', isBlank c = true := by
  induction cs using unifyLineEnds.induct with
  | case1 r ih =>
    obtain ⟨front, back, back', hfront, hfront', hblank⟩ := ih
    refine ⟨'\n' :: front, back, back', ?_, ?_, hblank⟩
    · rw [List.cons_append, List.cons_append, unifyLineEnds_pair, hfront]
      rfl
    · rw [unifyLineEnds_pair, hfront']
      rfl
  | case2 c r hc ih =>
    by_cases hjoins : c = '\r' ∧ (r ++ blanks).head? = some '\n'
    · obtain ⟨rfl, hhead⟩ := hjoins
      have hr : r = [] := by
        cases r with
        | nil => rfl
        | cons d r =>
          obtain rfl := Option.some.inj hhead
          exact absurd rfl (hc r rfl)
      subst hr
      have hreturn : ∀ c ∈ '\r' :: blanks, isBlank c = true :=
        List.forall_mem_cons.mpr ⟨by decide, h⟩
      refine ⟨[], _, _, rfl, rfl, fun c hc => hreturn c (mem_of_mem_unifyLineEnds hc), ?_⟩
      intro c hc
      rw [List.mem_singleton.mp hc]
      decide
    · obtain ⟨front, back, back', hfront, hfront', hblank⟩ := ih
      refine ⟨c :: front, back, back', ?_, ?_, hblank⟩
      · rw [List.cons_append, unifyLineEnds_cons fun hc hhead => hjoins ⟨hc, hhead⟩, hfront]
        rfl
      · rw [unifyLineEnds.eq_2 c r hc, hfront']
        rfl
  | case3 =>
    exact ⟨[], _, [], rfl, rfl, fun c hc => h c (mem_of_mem_unifyLineEnds hc), nofun⟩

/-- **Line ends and white space at the end of a saved script say nothing.** -/
theorem definitionsMatch_respelled {saved saved' blanks : String} (generated : String)
    (h : Respelled saved.toList saved'.toList) (hblanks : ∀ c ∈ blanks.toList, isBlank c = true) :
    definitionsMatch (saved' ++ blanks) generated = definitionsMatch saved generated := by
  obtain ⟨front, back, back', hfront, hfront', hback, hback'⟩ :=
    unifyLineEnds_append saved'.toList hblanks
  unfold definitionsMatch
  rw [String.toList_append, hfront, trimRight_append hback, ← h.unifyLineEnds_eq, hfront',
    trimRight_append hback']

end EntityMapper
