import EntityMapper.Proofs.Declaration.Derived
import EntityMapper.Proofs.Filter.Rerooted

/-!
# Derived handles resolve

The implementation that is derived from a declaration is read as a table and the functions that give
handles on its fields. Whatever is built of these handles, along associations that lead to derived
entity types again, compiles, but for a comparison that puts null in an order.

* `Derived` — a declaration and what is read of its implementation
* `Derived.Handle` — the operands that can be built of derived handles
* `handles_resolve` — the handles name the fields, and predicates of them compile
-/

namespace EntityMapper

/-! ## Handles -/

/-- A derived entity type: a declaration, the mapping that is derived, and what the implementation
of the mapping is read as. -/
structure Derived where
  declaration : Declaration
  mapped : Mapped
  expansion : Expansion
  derives : declaration.mapped = .ok mapped
  written : declaration.IsWritten
  reads : Expansion.ofLexemes? mapped.implementation = some expansion

namespace Derived

/-- The table that the implementation builds. -/
def table (types : SourceTypes) (e : Derived) : Table := e.expansion.table types e.declaration

/-- A chain of derived associations leads from one derived entity type to another: the catalog has
the table of the one for the type that a handle of the other leads to. -/
inductive Leads (c : Catalog) (types : SourceTypes) : Derived → Chain → Derived → Prop
  | field {e e' : Derived} {h : HandleFunction} (hh : h ∈ e.expansion.handles)
      (hkind : h.kind = .association) (htable : c.table (types.entity h.type) = e'.table types) :
      Leads c types e (.named h.name) e'
  | join {e e' e'' : Derived} {a b : Chain} (h : Leads c types e a e')
      (h' : Leads c types e' b e'') : Leads c types e (a.join b) e''

/-- The operands of an entity type that can be built of derived handles. -/
inductive Handle (c : Catalog) (types : SourceTypes) : Derived → Operand → Prop
  | column {e : Derived} {h : HandleFunction} (hh : h ∈ e.expansion.handles)
      (hkind : h.kind = .column) : Handle c types e (.named h.name)
  | lower {e : Derived} {x : Operand} (h : Handle c types e x) : Handle c types e (.lower x)
  | upper {e : Derived} {x : Operand} (h : Handle c types e x) : Handle c types e (.upper x)
  | arithmetic {e : Derived} {x : Operand} (op : ArithmeticOp) (v : Datum)
      (h : Handle c types e x) : Handle c types e (.arithmetic x op v)
  | through {e e' : Derived} {a : Chain} {x : Operand} (h : Leads c types e a e')
      (hx : Handle c types e' x) : Handle c types e (.through a x)

end Derived

namespace Clause

/-- All operands of a predicate are of a kind. -/
def All (P : Operand → Prop) : Clause → Prop
  | .compare x _ _ => P x
  | .compareWith x _ y => P x ∧ P y
  | .isNull x => P x
  | .isNotNull x => P x
  | .isIn x _ => P x
  | .text x _ _ => P x
  | .and l r => l.All P ∧ r.All P
  | .or l r => l.All P ∧ r.All P
  | .not p => p.All P

/-- Somewhere in a predicate null is put in an order. -/
def OrdersNull : Clause → Prop
  | .compare _ op v => v.toValue = .null ∧ op ≠ .eq ∧ op ≠ .ne
  | .and l r => l.OrdersNull ∨ r.OrdersNull
  | .or l r => l.OrdersNull ∨ r.OrdersNull
  | .not p => p.OrdersNull
  | _ => False

theorem All.mono {P Q : Operand → Prop} (h : ∀ x, P x → Q x) {p : Clause} (hp : p.All P) :
    p.All Q := by
  induction p with
  | compare | isNull | isNotNull | isIn | text => exact h _ hp
  | compareWith => exact hp.imp (h _) (h _)
  | and l r ihl ihr | or l r ihl ihr => exact hp.imp ihl ihr
  | not p ih => exact ih hp

end Clause

/-! ## Paths of handles -/

namespace Derived

variable {c : Catalog} {types : SourceTypes} {e e' : Derived} {a : Chain} {x : Operand}

theorem exposes (types : SourceTypes) (e : Derived) : e.declaration.Exposes types e.expansion := by
  have hread := ofLexemes?_of_mapped e.derives e.written
  rw [e.reads] at hread
  exact Option.some.inj hread ▸ Declaration.exposes_of_mapped types e.derives e.written

theorem distinct (types : SourceTypes) (e : Derived) :
    ((e.table types).fields.map Field.name).Nodup := (e.exposes types).distinct

/-- A handle on a column has the name of a column. -/
theorem exists_column {h : HandleFunction} (hh : h ∈ e.expansion.handles) (hkind : h.kind = .column)
    (types : SourceTypes) : ∃ f ∈ (e.table types).scalarFields, f.name = h.name := by
  have hmem : (h.name, some (types.value h.type)) ∈ e.expansion.columns types :=
    List.mem_map_of_mem (List.mem_filter.mpr ⟨hh, beq_iff_eq.mpr hkind⟩)
  rw [(e.exposes types).columns] at hmem
  obtain ⟨f, hf, heq⟩ := List.mem_map.mp hmem
  exact ⟨f, hf, congrArg Prod.fst heq⟩

/-- A handle on an association leads where the association does. -/
theorem exists_association {h : HandleFunction} (hh : h ∈ e.expansion.handles)
    (hkind : h.kind = .association) (types : SourceTypes) :
    ∃ b ∈ (e.table types).associations, b.1 = h.name ∧ b.2.target = types.entity h.type := by
  have hmem : (h.name, types.entity h.type) ∈ e.expansion.associations types :=
    List.mem_map_of_mem (List.mem_filter.mpr ⟨hh, beq_iff_eq.mpr hkind⟩)
  rw [(e.exposes types).associations] at hmem
  obtain ⟨b, hb, heq⟩ := List.mem_map.mp hmem
  exact ⟨b, hb, congrArg Prod.fst heq, congrArg Prod.snd heq⟩

/-- A chain can be followed where it leads. -/
theorem Leads.follow (h : Leads c types e a e') :
    c.follow (e.table types) a.path = .ok (e'.table types) := by
  induction h with
  | @field e e' h hh hkind htable =>
    obtain ⟨b, hb, hname, htarget⟩ := exists_association hh hkind types
    show c.follow _ [h.name] = _
    rw [← hname, Catalog.follow, requireAssociation_of_mem (e.distinct types) hb]
    exact congrArg Except.ok (htarget ▸ htable)
  | join h h' ih ih' => exact (follow_append ih _).trans ih'

end Derived

/-! ## Computations that succeed -/

/-- A computation that does not fail, whatever is bound before it. -/
def Succeeds {α : Type} (x : Binding α) : Prop := ∀ bound, ∃ a bound', x bound = .ok (a, bound')

section Succeeds

variable {α β : Type} {s : Scope}

theorem succeeds_pure (a : α) : Succeeds (Pure.pure a) := fun bound => ⟨a, bound, rfl⟩

theorem Succeeds.bind {x : Binding α} {f : α → Binding β} (hx : Succeeds x)
    (hf : ∀ a, Succeeds (f a)) : Succeeds (x >>= f) := by
  intro bound
  obtain ⟨a, bound₁, ha⟩ := hx bound
  obtain ⟨b, bound₂, hb⟩ := hf a bound₁
  refine ⟨b, bound₂, ?_⟩
  show (x bound >>= fun r => f r.1 r.2) = _
  rw [ha]
  exact hb

/-- What is built of a result succeeds as it does. -/
theorem Succeeds.map {x : Binding α} (hx : Succeeds x) (f : α → β) :
    Succeeds (x >>= fun a => Pure.pure (f a)) := hx.bind fun _ => succeeds_pure _

theorem succeeds_bindValue (v : Value) : Succeeds (EntityMapper.bind v) := fun _ => ⟨_, _, rfl⟩

theorem succeeds_bindAll : ∀ vs : List Value, Succeeds (bindAll (vs.map .constant))
  | [] => succeeds_pure _
  | v :: vs => (succeeds_bindValue v).bind fun _ => (succeeds_bindAll vs).map _

theorem succeeds_constant (v : Value) : Succeeds (s.condition (.constant v)) := by
  cases v with
  | null => exact succeeds_pure _
  | bool | int | float | text | blob | datetime => exact (succeeds_bindValue _).map _

/-- The tests for null are written. -/
theorem succeeds_nullTest {op : CompareOp} (h : op = .eq ∨ op = .ne) (e : Condition) :
    Succeeds (liftM (nullTest op e) : Binding Condition) := by
  rcases h with rfl | rfl
  · exact succeeds_pure _
  · exact succeeds_pure _

end Succeeds

/-! ## Predicates of handles -/

section Handles

variable {c : Catalog} {types : SourceTypes} {e : Derived} {x : Operand} {s : Scope}

/-- An operand of handles succeeds behind a chain that leads to its entity type. -/
theorem Derived.Handle.succeeds (h : e.Handle c types x) (hs : s.catalog = c)
    (halias : s.rootAlias.isSome = true) {chain : List String}
    (hfollow : c.follow s.table chain = .ok (e.table types)) :
    Succeeds (s.condition (x.column.expr.under chain)) := by
  induction h generalizing chain with
  | @column e h hh hkind =>
    obtain ⟨f, hf, hname⟩ := exists_column hh hkind types
    have hcolumn := (column_concat_iff halias).mpr
      ⟨_, hs ▸ hfollow, requireColumn_of_mem (e.distinct types) hf, rfl⟩
    rw [← hname]
    intro bound
    have hcondition : s.condition (.member (chain ++ [f.name])) bound =
        (s.column (chain ++ [f.name]) >>= fun c => .ok (c, bound)) := rfl
    rw [hcolumn] at hcondition
    exact ⟨_, bound, hcondition⟩
  | lower h ih => exact (ih hfollow).map Condition.lower
  | upper h ih => exact (ih hfollow).map Condition.upper
  | arithmetic op v h ih =>
    exact (ih hfollow).bind fun _ => (succeeds_constant v.toValue).map _
  | @through e e' a x h _ ih =>
    have hunder : (Operand.through a x).column.expr.under chain =
        x.column.expr.under (chain ++ a.path) := Expr.under_under _ _ _
    rw [hunder]
    exact ih ((follow_append hfollow _).trans h.follow)

/-- No operand is beside null, unless it is compared with null. -/
theorem besideNull_operand (x : Operand) (r : Expr) : Expr.besideNull x.column.expr r =
    if r.isNullLiteral then some x.column.expr else none := by
  have hoperand := isNullLiteral_operand x []
  rw [under_nil] at hoperand
  rw [Expr.besideNull, hoperand]
  rfl

/-- A comparison of two operands that succeed, the first of which is built of a handle. -/
theorem succeeds_compare {op : CompareOp} {r : Expr} (hx : Succeeds (s.condition x.column.expr))
    (hr : Succeeds (s.condition r)) (hnull : r.isNullLiteral = true → op = .eq ∨ op = .ne) :
    Succeeds (s.condition (.compare op x.column.expr r)) := by
  rw [condition_compare_eq, besideNull_operand]
  cases hliteral : r.isNullLiteral with
  | true => exact hx.bind fun e => succeeds_nullTest (hnull hliteral) e
  | false => exact hx.bind fun _ => hr.map _

theorem succeeds_textCall {method : TextMethod} {text : String}
    (hx : Succeeds (s.condition x.column.expr)) :
    Succeeds (s.condition (Clause.text x method text).predicate.expr) := by
  cases method with
  | contains | startsWith | endsWith => exact hx.bind fun _ => (succeeds_bindValue _).map _

/-- **A predicate of operands that succeed succeeds**, unless it puts null in an order. -/
theorem Clause.succeeds {p : Clause} (hp : p.All fun x => Succeeds (s.condition x.column.expr))
    (hnull : ¬ p.OrdersNull) : Succeeds (s.condition p.predicate.expr) := by
  induction p with
  | compare x op v =>
    refine succeeds_compare hp (succeeds_constant _) fun hliteral => ?_
    have hv : v.toValue = .null := Expr.constant.inj (eq_null_of_isNullLiteral hliteral)
    by_contra hop
    rw [not_or] at hop
    exact hnull ⟨hv, hop⟩
  | compareWith x op y =>
    refine succeeds_compare hp.1 hp.2 fun hliteral => ?_
    have hoperand := isNullLiteral_operand y []
    rw [under_nil, hliteral] at hoperand
    exact nomatch hoperand
  | isNull x => exact succeeds_compare hp (succeeds_constant _) fun _ => .inl rfl
  | isNotNull x => exact succeeds_compare hp (succeeds_constant _) fun _ => .inr rfl
  | isIn x vs =>
    cases vs with
    | nil => exact hp.map _
    | cons v vs =>
      have hall := succeeds_bindAll ((v :: vs).map Datum.toValue)
      rw [List.map_map] at hall
      exact hp.bind fun _ => hall.map _
  | text x method text => exact succeeds_textCall hp
  | and l r ihl ihr | or l r ihl ihr =>
    have hl := ihl hp.1 fun h => hnull (.inl h)
    have hr := ihr hp.2 fun h => hnull (.inr h)
    exact hl.bind fun _ => hr.map _
  | not p ih => exact (ih hp hnull).map _

/-- A predicate that puts null in an order is translated into nothing. -/
theorem Clause.OrdersNull.not_translates {p : Clause} (h : p.OrdersNull) {bound bound' : List Value}
    {x : Condition} : ¬ s.Translates p.predicate.expr bound x bound' := by
  induction p generalizing bound bound' x with
  | compare y op v =>
    intro htranslates
    obtain ⟨hv, heq, hne⟩ := h
    have hbeside : Expr.besideNull y.column.expr (.constant v.toValue) = some y.column.expr := by
      rw [besideNull_operand, hv]
      rfl
    cases htranslates with
    | isNull => exact heq rfl
    | isNotNull => exact hne rfl
    | compare hnone => rw [hbeside] at hnone; exact nomatch hnone
  | and l r ihl ihr =>
    intro htranslates
    cases htranslates with
    | and hl hr => exact h.elim (fun h => ihl h hl) fun h => ihr h hr
  | or l r ihl ihr =>
    intro htranslates
    cases htranslates with
    | or hl hr => exact h.elim (fun h => ihl h hl) fun h => ihr h hr
  | not p ih =>
    intro htranslates
    cases htranslates with
    | not he => exact ih h he
  | compareWith | isNull | isNotNull | isIn | text => exact h.elim

theorem compile_isOk_iff {d : Dialect} {leading : String} {e : Expr} :
    (∃ q, s.compile d leading e = .ok q) ↔ ∃ x values, s.condition e [] = .ok (x, values) := by
  constructor
  · rintro ⟨q, h⟩
    obtain ⟨x, values, hx, -, -⟩ := compile_cases h
    exact ⟨x, values, hx⟩
  · rintro ⟨x, values, h⟩
    rw [Scope.compile, h]
    exact ⟨_, rfl⟩

end Handles

/-- **Derived handles name the fields of their table, and what is built of them compiles**: the
implementation that is derived from a declaration is read as a table and handles that have the
fields which are not left out, each once, and with an alias for the root every predicate of handles
compiles, unless it puts null in an order. -/
theorem handles_resolve {d : Declaration} {m : Mapped} (hm : d.mapped = .ok m) (hd : d.IsWritten)
    (types : SourceTypes) (c : Catalog) :
    ∃ (x : Expansion) (hx : Expansion.ofLexemes? m.implementation = some x),
      d.Exposes types x ∧
        ∀ (rootAlias : String) (dialect : Dialect) (leading : String) (p : Clause),
          p.All (Derived.Handle c types ⟨d, m, x, hm, hd, hx⟩) →
            ((∃ q, Scope.compile ⟨c, x.table types d, some rootAlias⟩ dialect leading
              p.predicate.expr = .ok q) ↔ ¬ p.OrdersNull) := by
  refine ⟨m.expansion, ofLexemes?_of_mapped hm hd, Declaration.exposes_of_mapped types hm hd,
    fun rootAlias dialect leading p hp => ?_⟩
  rw [compile_isOk_iff]
  constructor
  · rintro ⟨x, values, h⟩ hnull
    exact hnull.not_translates (translates_of_condition _ h)
  · intro hnull
    refine Clause.succeeds (hp.mono fun x hx => ?_) hnull []
    have hfollow : c.follow (m.expansion.table types d) [] = .ok (m.expansion.table types d) := rfl
    have hroot := hx.succeeds (s := ⟨c, m.expansion.table types d, some rootAlias⟩) rfl rfl hfollow
    rwa [under_nil] at hroot

namespace Library

/-- The attribute of a field with one item. -/
def fieldAttribute (key : String) : AttributeGroup := ⟨"field", some [⟨key, none⟩]⟩

/-- The declaration of authors, which lead to books. -/
def authorDeclaration : Declaration where
  name := "Author"
  visibility := [.name "pub", .mark '(', .name "crate", .mark ')']
  fields := [⟨"id", [.name "i64"], [fieldAttribute "primary_key"]⟩,
    ⟨"name", [.name "String"], []⟩,
    ⟨"books", [.name "Vec", .mark '<', .name "Book", .mark '>'], [fieldAttribute "one_to_many"]⟩]

/-- The declaration of books, which lead back to their author. The kind of a book has a raw name,
and its cover is left out. -/
def bookDeclaration : Declaration where
  name := "Book"
  fields := [⟨"id", [.name "i64"], [fieldAttribute "primary_key"]⟩,
    ⟨"r#type", [.name "String"], []⟩,
    ⟨"cover", [.name "Cover"], [fieldAttribute "skip"]⟩,
    ⟨"author", [.name "Option", .mark '<', .name "Author", .mark '>'],
      [fieldAttribute "one_to_one"]⟩]

/-- The mapping of authors. -/
def authorMapped : Mapped where
  name := "Author"
  visibility := authorDeclaration.visibility
  tableName := "Author"
  database := none
  backend := none
  assignKeys := none
  fields := [.column "id" [.name "i64"] { primaryKey := true }, .column "name" [.name "String"] {},
    .association "books" .many [.name "Book"] "id" "author_id"]

/-- The mapping of books. -/
def bookMapped : Mapped where
  name := "Book"
  visibility := []
  tableName := "Book"
  database := none
  backend := none
  assignKeys := none
  fields := [.column "id" [.name "i64"] { primaryKey := true },
    .column "r#type" [.name "String"] {},
    .association "author" .one [.name "Author"] "id" "book_id"]

theorem mapped_author : authorDeclaration.mapped = .ok authorMapped :=
  ok_of_toOption (by decide +kernel)

theorem mapped_book : bookDeclaration.mapped = .ok bookMapped :=
  ok_of_toOption (by decide +kernel)

theorem isWritten_author : authorDeclaration.IsWritten := by decide +kernel

theorem isWritten_book : bookDeclaration.IsWritten := by decide +kernel

/-- Authors as they are derived. -/
def authorDerived : Derived :=
  ⟨_, _, _, mapped_author, isWritten_author, ofLexemes?_of_mapped mapped_author isWritten_author⟩

/-- Books as they are derived. -/
def bookDerived : Derived :=
  ⟨_, _, _, mapped_book, isWritten_book, ofLexemes?_of_mapped mapped_book isWritten_book⟩

/-- What the types in the declarations mean. -/
def sourceTypes : SourceTypes where
  value type := if type = [.name "i64"] then { scalar := .int .int64 } else { scalar := .text }
  entity type := Lexeme.spaced type
  fresh _ := ⟨fun _ => .text "", fun _ => [], []⟩

/-- Authors and books as they are derived. -/
def derivedCatalog : Catalog := ⟨[authorDerived.table sourceTypes, bookDerived.table sourceTypes]⟩

/-- Books whose author has written one of a kind, and has no smaller number than the book. -/
def kindred : Clause :=
  .and
    (.text (.through ((Chain.named "author").join (.named "books")) (.upper (.named "type")))
      .startsWith "N")
    (.not (.compareWith (.through (.named "author") (.arithmetic (.named "id") .add (.int 1))) .lt
      (.named "id")))

theorem leads_author :
    bookDerived.Leads derivedCatalog sourceTypes (.named "author") authorDerived := by
  have hhandle : ⟨"author", .association, "Book", [.name "Author"], "author"⟩ ∈
      bookDerived.expansion.handles := .tail _ (.tail _ (.head _))
  exact .field hhandle rfl rfl

theorem leads_books :
    authorDerived.Leads derivedCatalog sourceTypes (.named "books") bookDerived := by
  have hhandle : ⟨"books", .association, "Author", [.name "Book"], "books"⟩ ∈
      authorDerived.expansion.handles := .tail _ (.tail _ (.head _))
  exact .field hhandle rfl rfl

theorem handles_kindred : kindred.All (bookDerived.Handle derivedCatalog sourceTypes) := by
  have hid : ⟨"id", .column, "Book", [.name "i64"], "id"⟩ ∈ bookDerived.expansion.handles := .head _
  have htype : ⟨"r#type", .column, "Book", [.name "String"], "type"⟩ ∈
      bookDerived.expansion.handles := .tail _ (.head _)
  have hauthor : ⟨"id", .column, "Author", [.name "i64"], "id"⟩ ∈
      authorDerived.expansion.handles := .head _
  refine ⟨.through (leads_author.join leads_books) (.upper (.column htype rfl)), ?_,
    .column hid rfl⟩
  exact .through leads_author (.arithmetic _ _ (.column hauthor rfl))

end Library

/-- The table of books has no field for their covers and no raw names, and what is asked of a book
along a cycle of associations compiles. -/
theorem handles_resolve_library :
    Library.bookDeclaration.mapped = .ok Library.bookMapped ∧ Library.bookDeclaration.IsWritten ∧
      ∃ x, Expansion.ofLexemes? Library.bookMapped.implementation = some x ∧
        (x.table Library.sourceTypes Library.bookDeclaration).fields.map Field.name =
          ["id", "type", "author"] ∧
        x.handles.map HandleFunction.name = ["id", "type", "author"] ∧
        ∃ q, Scope.compile ⟨Library.derivedCatalog,
          x.table Library.sourceTypes Library.bookDeclaration, some "b"⟩ (.of .sqlite) ""
          Library.kindred.predicate.expr = .ok q := by
  obtain ⟨x, hx, hexposes, hcompiles⟩ := handles_resolve Library.mapped_book Library.isWritten_book
    Library.sourceTypes Library.derivedCatalog
  obtain rfl : x = Library.bookDerived.expansion :=
    Option.some.inj (hx.symm.trans Library.bookDerived.reads)
  have hfields : (Library.bookDeclaration.fields.filter fun f => !f.isSkipped).map
      (fun f => plainName f.name) = ["id", "type", "author"] := by decide +kernel
  refine ⟨Library.mapped_book, Library.isWritten_book, _, hx, hexposes.fields.trans hfields,
    hexposes.handles.trans (hexposes.fields.trans hfields), ?_⟩
  refine (hcompiles "b" (.of .sqlite) "" Library.kindred Library.handles_kindred).mpr ?_
  rintro (h | h)
  · exact h
  · exact h

end EntityMapper
