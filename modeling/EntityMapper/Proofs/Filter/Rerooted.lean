import EntityMapper.Predicate.Column
import EntityMapper.Proofs.Filter.Alongside
import EntityMapper.Proofs.Filter.Parameters
import EntityMapper.Proofs.Join.Aliases

/-!
# Predicates from the front of a chain

An expression on the entity at the end of a chain of associations is taken to the front of the chain
by going through the chain first. It compiles there just if it compiles at the end, where the root
goes by the names of the chain, and both times it binds the same values. The texts differ in the
qualifiers of columns behind further associations: at the front these have the names of the chain
before them.

* `Template` — a text with gaps for the columns of paths
* `column_follow` — a path behind a chain has its column where the chain leads
* `compile_under` — what an expression compiles to at both ends of a chain
-/

namespace EntityMapper

/-! ## Texts with gaps -/

/-- A text with gaps: pieces that are written as they are, and paths that are written as their
columns. -/
abbrev Template := List (String ⊕ List String)

namespace Template

variable {name : List String → String} {a b : Template}

/-- The text with each gap filled with the name of its column. -/
def fill (name : List String → String) : Template → String
  | [] => ""
  | .inl piece :: rest => piece ++ fill name rest
  | .inr path :: rest => name path ++ fill name rest

/-- The paths of the gaps. -/
def gaps : Template → List (List String)
  | [] => []
  | .inl _ :: rest => gaps rest
  | .inr path :: rest => path :: gaps rest

@[simp] theorem fill_append : fill name (a ++ b) = fill name a ++ fill name b := by
  induction a with
  | nil => simp [fill]
  | cons x rest ih => cases x <;> simp [fill, ih, String.append_assoc]

@[simp] theorem gaps_append : gaps (a ++ b) = gaps a ++ gaps b := by
  induction a with
  | nil => rfl
  | cons x rest ih => cases x <;> simp [gaps, ih]

end Template

/-- Two texts of one template, whose gaps are those of some paths. -/
def Fills (name name' : List String → String) (paths : List (List String)) (s s' : String) :
    Prop :=
  ∃ template : Template, template.gaps = paths ∧ s = template.fill name ∧ s' = template.fill name'

namespace Fills

variable {name name' : List String → String} {ps qs : List (List String)} {s s' r r' : String}

theorem piece (s : String) : Fills name name' [] s s :=
  ⟨[.inl s], rfl, by simp [Template.fill], by simp [Template.fill]⟩

theorem gap (path : List String) : Fills name name' [path] (name path) (name' path) :=
  ⟨[.inr path], rfl, by simp [Template.fill], by simp [Template.fill]⟩

theorem append (h : Fills name name' ps s s') (h' : Fills name name' qs r r') :
    Fills name name' (ps ++ qs) (s ++ r) (s' ++ r') := by
  obtain ⟨a, rfl, rfl, rfl⟩ := h
  obtain ⟨b, rfl, rfl, rfl⟩ := h'
  exact ⟨a ++ b, by simp⟩

/-- A text behind the same piece. -/
theorem behind (piece : String) (h : Fills name name' ps s s') :
    Fills name name' ps (piece ++ s) (piece ++ s') := (Fills.piece piece).append h

/-- A text in front of the same piece. -/
theorem before (h : Fills name name' ps s s') (piece : String) :
    Fills name name' ps (s ++ piece) (s' ++ piece) := by
  have happend := h.append (Fills.piece piece)
  rwa [List.append_nil] at happend

end Fills

/-- Paired conditions are texts of one template. -/
theorem Condition.Paired.fills {pair : List String → Condition → Condition → Prop}
    {paths : List (List String)} {c c' : Condition} {placeholder : Nat → String}
    {name name' : List String → String} (h : Condition.Paired pair paths c c')
    (hpair : ∀ path c c', pair path c c' →
      c.text placeholder = name path ∧ c'.text placeholder = name' path) :
    Fills name name' paths (c.text placeholder) (c'.text placeholder) := by
  induction h with
  | null | never | parameter => exact .piece _
  | column h =>
    obtain ⟨hc, hc'⟩ := hpair _ _ _ h
    rw [hc, hc']
    exact .gap _
  | compare op _ _ ihl ihr => exact (((ihl.before " ").before op.sql).before " ").append ihr
  | isNull _ ih => exact ih.before " is null"
  | isNotNull _ ih => exact ih.before " is not null"
  | and _ _ ihl ihr => exact (((ihl.behind "(").before " AND ").append ihr).before ")"
  | or _ _ ihl ihr => exact (((ihl.behind "(").before " OR ").append ihr).before ")"
  | not _ ih => exact (ih.behind "NOT (").before ")"
  | arithmetic op _ _ ihl ihr =>
    exact (((((ihl.behind "(").before " ").before op.sql).before " ").append ihr).before ")"
  | like pattern _ ih => exact (ih.before " LIKE ").before (placeholder pattern)
  | isIn items _ ih =>
    exact ((ih.before " IN (").before (", ".intercalate (items.map placeholder))).before ")"
  | lower _ ih => exact (ih.behind "lower(").before ")"
  | upper _ ih => exact (ih.behind "upper(").before ")"

/-! ## Columns behind a chain -/

/-- How the column of a path is written, by the aliases of the root and of the chains behind it. -/
def columnName (rootAlias : String) (chainAlias : List String → String) (path : List String) :
    String :=
  match path.getLast?, path.dropLast with
  | none, _ => ""
  | some name, [] => rootAlias ++ "." ++ name
  | some name, chain => chainAlias chain ++ "." ++ name

variable {c : Catalog} {t u : Table} {chain path : List String} {name root : String}

theorem columnName_chain (chainAlias : List String → String) (h : chain ≠ []) :
    columnName root chainAlias (chain ++ [name]) = chainAlias chain ++ "." ++ name := by
  obtain ⟨first, rest, rfl⟩ := List.exists_cons_of_ne_nil h
  rw [columnName, List.getLast?_concat, List.dropLast_concat]

/-- Following a chain and going on is following the longer chain. -/
theorem follow_append (h : c.follow t chain = .ok u) (more : List String) :
    c.follow t (chain ++ more) = c.follow u more := by
  induction chain generalizing t with
  | nil =>
    obtain rfl : t = u := Except.ok.inj h
    rfl
  | cons name rest ih =>
    obtain ⟨a, ha, h⟩ := follow_cons h
    rw [List.cons_append, Catalog.follow, ha]
    exact ih h

/-- No association is a column. -/
theorem not_requireColumn {a : Association} (h : t.requireAssociation name = .ok a) :
    t.requireColumn name ≠ .ok () := by
  intro hcolumn
  unfold Table.requireAssociation at h
  unfold Table.requireColumn at hcolumn
  cases hf : t.field? name with
  | none =>
    rw [hf] at h
    exact nomatch h
  | some f =>
    rw [hf] at h hcolumn
    cases hkind : f.kind with
    | scalar => simp [Field.association?, hkind] at h
    | association => simp [Field.isScalar, hkind] at hcolumn

/-- Where the root has an alias, a path has its column where its chain leads. -/
theorem column_concat_iff {s : Scope} (halias : s.rootAlias.isSome = true) {x : Condition} :
    s.column (chain ++ [name]) = .ok x ↔ ∃ u, s.catalog.follow s.table chain = .ok u ∧
      u.requireColumn name = .ok () ∧ x = .column (qualifierOf s.rootAlias chain) name := by
  constructor
  · intro h
    rcases column_cases h with
      ⟨n, hpath, hcolumn, rfl⟩ | ⟨q, n, u, hq, hpath, -, hfollow, hcolumn, rfl⟩
    · obtain ⟨rfl, hname⟩ := List.append_inj' (hpath.trans (List.nil_append _).symm) rfl
      obtain rfl := List.singleton_inj.mp hname
      exact ⟨s.table, rfl, hcolumn, rfl⟩
    · obtain ⟨rfl, hname⟩ := List.append_inj' hpath rfl
      obtain rfl := List.singleton_inj.mp hname
      obtain ⟨first, rest, rfl⟩ := List.exists_cons_of_ne_nil hq
      exact ⟨u, hfollow, hcolumn, rfl⟩
  · rintro ⟨u, hfollow, hcolumn, rfl⟩
    cases chain with
    | nil =>
      obtain rfl : s.table = u := Except.ok.inj hfollow
      exact s.column_of_root hcolumn
    | cons first rest => exact s.column_of_follow halias (List.cons_ne_nil _ _) hfollow hcolumn

/-- **A path behind a chain has its column where the chain leads.** -/
theorem resolves_under (hchain : chain ≠ []) (hfollow : c.follow t chain = .ok u)
    (root below : String) :
    Scope.Resolves ⟨c, u, some below⟩ ⟨c, t, some root⟩ chain := by
  intro path
  rcases List.eq_nil_or_concat' path with rfl | ⟨q, name, rfl⟩
  · -- the chain itself ends in an association
    refine ⟨fun ⟨_, h⟩ => (nomatch h), fun ⟨_, h⟩ => ?_⟩
    obtain ⟨front, last, rfl⟩ := (List.eq_nil_or_concat' chain).resolve_left hchain
    rw [List.append_nil] at h
    obtain ⟨v, hfront, hcolumn, -⟩ := (column_concat_iff rfl).mp h
    rw [follow_append hfront] at hfollow
    obtain ⟨a, ha, -⟩ := follow_cons hfollow
    exact absurd hcolumn (not_requireColumn ha)
  · rw [← List.append_assoc]
    constructor
    · rintro ⟨_, h⟩
      obtain ⟨v, hv, hcolumn, -⟩ := (column_concat_iff rfl).mp h
      exact ⟨_, (column_concat_iff rfl).mpr ⟨v, (follow_append hfollow q).trans hv, hcolumn, rfl⟩⟩
    · rintro ⟨_, h⟩
      obtain ⟨v, hv, hcolumn, -⟩ := (column_concat_iff rfl).mp h
      exact ⟨_, (column_concat_iff rfl).mpr ⟨v, (follow_append hfollow q).symm.trans hv, hcolumn,
        rfl⟩⟩

/-- Behind a chain the column of a path is written behind the names that lead there. -/
theorem text_counterparts (hchain : chain ≠ []) {placeholder : Nat → String} {x x' : Condition}
    (h : Scope.Counterparts ⟨c, u, some ("_".intercalate chain)⟩ ⟨c, t, some root⟩ chain path
      x x') :
    x.text placeholder = columnName ("_".intercalate chain) "_".intercalate path ∧
      x'.text placeholder = columnName ("_".intercalate chain)
        (fun q => "_".intercalate chain ++ "_" ++ "_".intercalate q) path := by
  obtain ⟨hx, hx'⟩ := h
  rcases List.eq_nil_or_concat' path with rfl | ⟨q, name, rfl⟩
  · exact nomatch hx
  · rw [← List.append_assoc] at hx'
    obtain ⟨-, -, -, rfl⟩ := (column_concat_iff rfl).mp hx
    obtain ⟨-, -, -, rfl⟩ := (column_concat_iff rfl).mp hx'
    obtain ⟨first, rest, rfl⟩ := List.exists_cons_of_ne_nil hchain
    by_cases hq : q = []
    · subst hq
      rw [List.append_nil]
      exact ⟨rfl, rfl⟩
    · rw [columnName_chain _ hq, columnName_chain _ hq,
        ← String.intercalate_append_of_ne_nil hchain hq]
      obtain ⟨second, more, rfl⟩ := List.exists_cons_of_ne_nil hq
      exact ⟨rfl, rfl⟩

/-! ## Expressions behind a chain -/

/-- **An expression compiles behind a chain just if it compiles where the chain leads**, under the
names of the chain, and with the same parameters. Both texts have one template, whose gaps are the
paths of the expression: where the expression has a chain of its own, its alias at the front goes on
from the names that lead there. Going through two chains one after the other is going through the
joined one. -/
theorem compile_under (hchain : chain ≠ []) (hfollow : c.follow t chain = .ok u) (root : String)
    (d : Dialect) (leading : String) (e : Expr) :
    let below : Scope := ⟨c, u, some ("_".intercalate chain)⟩
    let above : Scope := ⟨c, t, some root⟩
    ((∃ p', above.compile d leading (e.under chain) = .ok p') ↔
        ∃ p, below.compile d leading e = .ok p) ∧
      (∀ p p', below.compile d leading e = .ok p →
        above.compile d leading (e.under chain) = .ok p' → p'.parameters = p.parameters ∧
          ∃ template : Template, template.gaps = e.shown ∧
            p.text = template.fill (columnName ("_".intercalate chain) "_".intercalate) ∧
            p'.text = template.fill (columnName ("_".intercalate chain)
              fun q => "_".intercalate chain ++ "_" ++ "_".intercalate q)) ∧
      ∀ (a b : Chain) (col : Column), (a.join b).column col = a.column (b.column col) := by
  intro below above
  refine ⟨?_, ?_, fun a b col => (Chain.column_column a b col).symm⟩
  · rcases compile_paired (resolves_under hchain hfollow root _) d leading e with
      ⟨err, err', h, h'⟩ | ⟨p, p', h, h', -⟩
    · refine ⟨fun ⟨_, hok⟩ => ?_, fun ⟨_, hok⟩ => ?_⟩
      · exact nomatch h'.symm.trans hok
      · exact nomatch h.symm.trans hok
    · exact ⟨fun _ => ⟨p, h⟩, fun _ => ⟨p', h'⟩⟩
  · intro q q' hq hq'
    rcases compile_paired (resolves_under hchain hfollow root _) d leading e with
      ⟨err, err', h, -⟩ | ⟨p, p', h, h', hparameters, x, x', hpaired, htext, htext'⟩
    · exact nomatch h.symm.trans hq
    · obtain rfl := Except.ok.inj (h.symm.trans hq)
      obtain rfl := Except.ok.inj (h'.symm.trans hq')
      refine ⟨hparameters.symm, ?_⟩
      rw [htext, htext']
      exact hpaired.fills fun _ _ _ hpair => text_counterparts hchain hpair

namespace Library

/-- Publishers with their authors. -/
def publisher : Table where
  entity := "Publisher"
  tableName := "publishers"
  fields := [.ofType "id" { scalar := .int .int32 } { primaryKey := true },
    .ofAssociation "authors" ⟨.many, "id", "publisher_id", "Author"⟩]

/-- Publishers, authors and books. -/
def trade : Catalog := ⟨[publisher, author, book]⟩

end Library

/-- The authors that are wanted, and the publishers of such authors. -/
theorem compile_under_library :
    let below : Scope := ⟨Library.trade, Library.author, some ("_".intercalate ["authors"])⟩
    let above : Scope := ⟨Library.trade, Library.publisher, some "p"⟩
    ∃ p p', below.compile (.of .sqlite) "x" Library.wanted = .ok p ∧
      above.compile (.of .sqlite) "x" (Library.wanted.under ["authors"]) = .ok p' ∧
      p.text = "(authors.id IN (@px0, @px1) OR (1 = 0 AND books.title < @px3))" ∧
      p'.text = "(authors.id IN (@px0, @px1) OR (1 = 0 AND authors_books.title < @px3))" ∧
      p'.parameters = p.parameters ∧ Library.wanted.shown = [["id"], ["books", "title"]] := by
  intro below above
  have hbelow : (below.compile (.of .sqlite) "x" Library.wanted).toOption.map
      CompiledPredicate.text =
        some "(authors.id IN (@px0, @px1) OR (1 = 0 AND books.title < @px3))" := by
    decide +kernel
  have habove : (above.compile (.of .sqlite) "x"
      (Library.wanted.under ["authors"])).toOption.map CompiledPredicate.text =
        some "(authors.id IN (@px0, @px1) OR (1 = 0 AND authors_books.title < @px3))" := by
    decide +kernel
  obtain ⟨p, hp, htext⟩ := Option.map_eq_some_iff.mp hbelow
  obtain ⟨p', hp', htext'⟩ := Option.map_eq_some_iff.mp habove
  have hfollow : Library.trade.follow Library.publisher ["authors"] = .ok Library.author := rfl
  obtain ⟨-, hsame, -⟩ := compile_under (List.cons_ne_nil _ _) hfollow "p" (.of .sqlite) "x"
    Library.wanted
  have hp := ok_of_toOption hp
  have hp' := ok_of_toOption hp'
  exact ⟨p, p', hp, hp', htext, htext', (hsame p p' hp hp').1, by decide⟩

end EntityMapper
