import EntityMapper.Proofs.Graph.Roots

/-!
# Lineages

The text by which a node is found stands behind the text of its owner, and that behind the text of
the owner's owner, up to a root. A `Lineage` is such a chain, from the root down; each object of it
has the name of its type and a key, or no key and the number of its node. Keys are any texts, also
such that look like parts of other keys, like names and numbers, or like whole chains.

* `lineageText_inj` — a text is that of one lineage, as long as no name of a type has the mark of a
  key or of a number in it; in a graph that rows give, the text of a keyed lineage finds the node of
  that lineage and no other
* `Graph.Descends` — every node of a graph has a lineage: that of its owner, and itself
-/

namespace EntityMapper

open EntityMapper.Graph (add addBelow keyOf)

/-- What tells an object from others of its type below one owner: its key, which has a part at
least, or the number of its node. -/
inductive Tag
  | key (first : KeyPart) (rest : List KeyPart)
  | node (number : Nat)
deriving DecidableEq, Repr

/-- An object among its owners. -/
structure Kin where
  entity : String
  tag : Tag
deriving DecidableEq, Repr

/-- An object behind all its owners, the root first. -/
abbrev Lineage := List Kin

/-- The text of an object behind the text of its owner. -/
def Kin.text (owner : String) (k : Kin) : String :=
  match k.tag with
  | .key first rest => keyText owner k.entity (first :: rest)
  | .node number => nodeText owner k.entity number

/-- The text of the last object of a lineage. -/
def lineageText (l : Lineage) : String := l.foldl Kin.text ""

theorem lineageText_concat (l : Lineage) (k : Kin) :
    lineageText (l ++ [k]) = k.text (lineageText l) := by
  simp [lineageText]

/-! ## Reading a lineage back -/

/-- What may stand behind an object: nothing, or one that it owns. -/
def Continues (r : List Char) : Prop := ∀ c, r.head? = some c → c = '/'

/-- The text of a tag, with its mark in front. -/
def Tag.chars : Tag → List Char
  | .key first rest => (String.join ((first :: rest).map keyPartText)).toList
  | .node number => '#' :: (toString number).toList

/-- What an object adds to the text of its owner. -/
def Kin.chars (k : Kin) : List Char := '/' :: (k.entity.toList ++ k.tag.chars)

theorem Kin.toList_text (owner : String) (k : Kin) :
    (k.text owner).toList = owner.toList ++ k.chars := by
  unfold Kin.text Kin.chars
  cases k.tag with
  | key first rest => simp [keyText, Tag.chars]
  | node number => simp [nodeText, Tag.chars]

theorem toList_lineageText (l : Lineage) : (lineageText l).toList = l.flatMap Kin.chars := by
  induction l using List.reverseRecOn with
  | nil => rfl
  | append_singleton l k ih => simp [lineageText_concat, Kin.toList_text, ih]

theorem continues_flatMap_chars (l : Lineage) : Continues (l.flatMap Kin.chars) := by
  intro c hc
  cases l with
  | nil => exact nomatch hc
  | cons k l => exact (Option.some.inj hc).symm

theorem exists_toList_keyPartText (p : KeyPart) : ∃ r, (keyPartText p).toList = '|' :: r := by
  cases p with
  | none => exact ⟨_, toList_keyPartText_none⟩
  | some s => exact ⟨_, toList_keyPartText_some s⟩

/-- Keys of any width are read back in one way where no part of a key follows. -/
theorem keyPartsText_inj_of_continues {ps qs : List KeyPart} {r s : List Char} (hr : Continues r)
    (hs : Continues s) (h : (String.join (ps.map keyPartText)).toList ++ r =
      (String.join (qs.map keyPartText)).toList ++ s) : ps = qs ∧ r = s := by
  -- a key does not end where one that is wider goes on
  have hends : ∀ {r : List Char} (p : KeyPart) (ps : List KeyPart) (s : List Char), Continues r →
      r ≠ (String.join ((p :: ps).map keyPartText)).toList ++ s := by
    rintro r p ps s hr rfl
    obtain ⟨u, hu⟩ := exists_toList_keyPartText p
    have := hr '|' (by simp [String.join_cons, hu])
    exact absurd this (by decide)
  induction ps generalizing qs with
  | nil =>
    cases qs with
    | nil => exact ⟨rfl, h⟩
    | cons q qs => exact absurd h (hends q qs s hr)
  | cons p ps ih =>
    cases qs with
    | nil => exact absurd h.symm (hends p ps r hs)
    | cons q qs =>
      simp only [List.map_cons, String.join_cons, String.toList_append, List.append_assoc] at h
      obtain ⟨rfl, hrest⟩ := keyPartText_inj h
      obtain ⟨rfl, hrs⟩ := ih hrest
      exact ⟨rfl, hrs⟩

theorem Tag.exists_chars (tag : Tag) : ∃ mark ∈ ['|', '#'], ∃ r, tag.chars = mark :: r := by
  cases tag with
  | key first rest =>
    obtain ⟨u, hu⟩ := exists_toList_keyPartText first
    exact ⟨'|', by simp, _, by rw [Tag.chars, List.map_cons, String.join_cons,
      String.toList_append, hu, List.cons_append]⟩
  | node number => exact ⟨'#', by simp, _, rfl⟩

theorem Tag.chars_inj {a b : Tag} {r s : List Char} (hr : Continues r) (hs : Continues s)
    (h : a.chars ++ r = b.chars ++ s) : a = b ∧ r = s := by
  cases a with
  | key first rest =>
    cases b with
    | key first' rest' =>
      obtain ⟨hkey, hrs⟩ := keyPartsText_inj_of_continues hr hs h
      obtain ⟨rfl, rfl⟩ := List.cons.inj hkey
      exact ⟨rfl, hrs⟩
    | node number =>
      obtain ⟨u, hu⟩ := exists_toList_keyPartText first
      simp [Tag.chars, String.join_cons, hu] at h
  | node number =>
    cases b with
    | key first rest =>
      obtain ⟨u, hu⟩ := exists_toList_keyPartText first
      simp [Tag.chars, String.join_cons, hu] at h
    | node number' =>
      -- a number ends where an object that is owned would begin
      have hdigit : ∀ {r : List Char}, Continues r → ∀ c, r.head? = some c → c.isDigit = false :=
        fun hr c hc => hr c hc ▸ rfl
      simp only [Tag.chars, List.cons_append, List.cons.injEq, true_and] at h
      obtain ⟨rfl, hrs⟩ := digits_inj (hdigit hr) (hdigit hs) h
      exact ⟨rfl, hrs⟩

/-- One object is read back in one way: the mark ends its name, and its key tells its own width. -/
theorem Kin.chars_inj {j k : Kin} (hj : IsUnmarked j.entity) (hk : IsUnmarked k.entity)
    {r s : List Char} (hr : Continues r) (hs : Continues s) (h : j.chars ++ r = k.chars ++ s) :
    j = k ∧ r = s := by
  obtain ⟨a, ha, u, hu⟩ := j.tag.exists_chars
  obtain ⟨b, hb, v, hv⟩ := k.tag.exists_chars
  simp only [Kin.chars, List.cons_append, List.append_assoc, List.cons.injEq, true_and] at h
  rw [hu, hv, List.cons_append, List.cons_append] at h
  obtain ⟨hentity, h⟩ := (hj.apart hk).eq_of_append ha hb h
  rw [← List.cons_append, ← List.cons_append, ← hu, ← hv] at h
  obtain ⟨htag, hrs⟩ := Tag.chars_inj hr hs h
  cases j
  cases k
  exact ⟨congrArg₂ Kin.mk hentity htag, hrs⟩

theorem flatMap_chars_inj {l m : Lineage} (hl : ∀ k ∈ l, IsUnmarked k.entity)
    (hm : ∀ k ∈ m, IsUnmarked k.entity) (h : l.flatMap Kin.chars = m.flatMap Kin.chars) :
    l = m := by
  induction l generalizing m with
  | nil =>
    cases m with
    | nil => rfl
    | cons k m => exact nomatch h
  | cons j l ih =>
    cases m with
    | nil => exact nomatch h
    | cons k m =>
      rw [List.flatMap_cons, List.flatMap_cons] at h
      obtain ⟨hj, hjs⟩ := List.forall_mem_cons.mp hl
      obtain ⟨hk, hks⟩ := List.forall_mem_cons.mp hm
      obtain ⟨rfl, hrest⟩ :=
        Kin.chars_inj hj hk (continues_flatMap_chars l) (continues_flatMap_chars m) h
      rw [ih hjs hks hrest]

/-- **A text is that of one lineage.** -/
theorem eq_of_lineageText_eq {l m : Lineage} (hl : ∀ k ∈ l, IsUnmarked k.entity)
    (hm : ∀ k ∈ m, IsUnmarked k.entity) (h : lineageText l = lineageText m) : l = m :=
  flatMap_chars_inj hl hm (by rw [← toList_lineageText, ← toList_lineageText, h])

/-! ## The lineages of a graph -/

/-- Whether the last object of a lineage has a key. -/
def IsKeyed (l : Lineage) : Prop :=
  ∃ above entity first rest, l = above ++ [⟨entity, .key first rest⟩]

/-- Whether a lineage has names of tables that a table leads to. -/
def Catalog.Names (c : Catalog) (t : Table) (l : Lineage) : Prop :=
  ∀ k ∈ l, ∃ u, c.Reaches t u ∧ k.entity = u.entity

/-- Each node of a graph has a lineage. A root stands alone, and a child behind the lineage of its
owner; the last name is that of the type of the node. What is found by a text is the node of a keyed
lineage of that text, and every such node is found. -/
structure Graph.Descends (c : Catalog) (t : Table) (g : Graph) (ls : List Lineage) : Prop where
  length : ls.length = g.nodes.length
  named : ∀ l ∈ ls, c.Names t l
  last : ∀ {n : Nat} {node l}, g.nodes[n]? = some node → ls[n]? = some l →
    ∃ above tag, l = above ++ [⟨node.table.entity, tag⟩] ∧
      ∀ number, tag = .node number → number = n
  roots : ∀ n ∈ g.roots, ∃ k, ls[n]? = some [k]
  links : ∀ {n : Nat} {node}, g.nodes[n]? = some node → ∀ x ∈ node.children,
    ∃ l k, ls[n]? = some l ∧ ls[x.2]? = some (l ++ [k])
  keys : ∀ {text n}, g.keys.lookup text = some n →
    ∃ l, ls[n]? = some l ∧ IsKeyed l ∧ lineageText l = text
  found : ∀ {n : Nat} {l}, ls[n]? = some l → IsKeyed l → g.keys.lookup (lineageText l) = some n

section Descends

variable {c : Catalog} {t : Table} {g g' : Graph} {ls : List Lineage}

/-- The text by which an object is looked for, if it has a key. -/
def Kin.key? (owner : String) (k : Kin) : Option String :=
  match k.tag with
  | .key _ _ => some (k.text owner)
  | .node _ => none

theorem Kin.key?_eq_some {owner text : String} {k : Kin} (h : k.key? owner = some text) :
    k.text owner = text ∧ ∀ above, IsKeyed (above ++ [k]) := by
  obtain ⟨entity, tag⟩ := k
  cases tag with
  | key first rest => exact ⟨Option.some.inj h, fun above => ⟨above, entity, first, rest, rfl⟩⟩
  | node number => exact nomatch h

/-- An occurrence is looked for, and its node told, by the text of its name and tag. -/
theorem Occurrence.exists_tag {o : Occurrence} (h : o.identity.Suits o.table) (n : Nat) :
    ∃ tag : Tag, (∀ number, tag = .node number → number = n) ∧
      ∀ owner, keyOf owner o.table o.identity = Kin.key? owner ⟨o.table.entity, tag⟩ ∧
        o.text owner n = Kin.text owner ⟨o.table.entity, tag⟩ := by
  unfold Occurrence.text
  cases hi : o.identity with
  | keyless =>
    exact ⟨.node n, fun number hn => (Tag.node.inj hn).symm, fun owner => ⟨rfl, rfl⟩⟩
  | keyed parts =>
    cases parts with
    | nil =>
      rw [hi] at h
      exact nomatch h.2.mpr (List.eq_nil_of_length_eq_zero h.1.symm)
    | cons first rest =>
      exact ⟨.key first rest, fun _ hn => absurd hn (by simp), fun owner => ⟨rfl, rfl⟩⟩

theorem Catalog.Reaches.snoc {t u v : Table} (h : c.Reaches t u) (hv : v ∈ c.targets u) :
    c.Reaches t v := by
  induction h with
  | refl t => exact .step hv (.refl v)
  | step hu _ ih => exact .step hu (ih hv)

/-- A new object has the lineage of its owner and itself. -/
theorem Graph.Descends.push (h : g.Descends c t ls) {above : Lineage}
    (habove : c.Names t above) {node : Node} (hchildren : node.children = [])
    (hreaches : c.Reaches t node.table) {tag : Tag}
    (htag : ∀ number, tag = .node number → number = g.nodes.length)
    (hnone : ((Kin.key? (lineageText above) ⟨node.table.entity, tag⟩).bind
      fun k => g.keys.lookup k) = none) :
    (g.push node (Kin.key? (lineageText above) ⟨node.table.entity, tag⟩)).Descends c t
      (ls ++ [above ++ [⟨node.table.entity, tag⟩]]) where
  length := by simp [Graph.push, h.length]
  named := by
    intro l hl k hk
    rcases List.mem_append.mp hl with hl | hl
    · exact h.named l hl k hk
    · rw [List.mem_singleton.mp hl] at hk
      rcases List.mem_append.mp hk with hk | hk
      · exact habove k hk
      · exact ⟨node.table, hreaches, by rw [List.mem_singleton.mp hk]⟩
  last := by
    intro n m l hm hl
    rcases getElem?_push_iff.mp hm with hm | ⟨rfl, rfl⟩
    · rw [List.getElem?_append_left (h.length ▸ (List.getElem?_eq_some_iff.mp hm).1)] at hl
      exact h.last hm hl
    · rw [← h.length, List.getElem?_concat_length, Option.some.injEq] at hl
      exact ⟨above, tag, hl.symm, htag⟩
  roots := fun n hn => by
    obtain ⟨k, hk⟩ := h.roots n hn
    exact ⟨k, getElem?_append_of_eq_some hk _⟩
  links := by
    intro n m hm x hx
    obtain ⟨l, k, hl, hk⟩ := h.links (getElem?_of_mem_push hchildren hm hx) x hx
    exact ⟨l, k, getElem?_append_of_eq_some hl _, getElem?_append_of_eq_some hk _⟩
  keys := by
    intro text n hn
    rw [lookup_push] at hn
    split at hn
    · next hkey =>
      obtain ⟨htext, hkeyed⟩ := Kin.key?_eq_some hkey
      obtain rfl := Option.some.inj hn
      refine ⟨_, h.length ▸ List.getElem?_concat_length, hkeyed above, ?_⟩
      rw [lineageText_concat, htext]
    · obtain ⟨l, hl, hkeyed⟩ := h.keys hn
      exact ⟨l, getElem?_append_of_eq_some hl _, hkeyed⟩
  found := by
    intro n l hl hkeyed
    by_cases hlt : n < ls.length
    · rw [List.getElem?_append_left hlt] at hl
      exact lookup_push_of_eq_some hnone node (h.found hl hkeyed)
    · -- the new object, which its own key finds
      obtain rfl : l = above ++ [⟨node.table.entity, tag⟩] := by
        rw [List.getElem?_append_right (Nat.le_of_not_lt hlt)] at hl
        exact List.mem_singleton.mp (List.mem_of_getElem? hl)
      obtain rfl : n = g.nodes.length := by
        have hle := (List.getElem?_eq_some_iff.mp hl).1
        rw [List.length_append, List.length_singleton, h.length] at hle
        rw [h.length] at hlt
        omega
      obtain ⟨above', entity, first, rest, heq⟩ := hkeyed
      obtain ⟨rfl, hk⟩ := List.append_inj' heq rfl
      obtain ⟨rfl, rfl⟩ := Kin.mk.inj (List.singleton_inj.mp hk)
      rw [lookup_push, if_pos]
      rw [lineageText_concat]
      rfl

/-- A child has the lineage of its owner and itself. -/
theorem Graph.Descends.link (h : g.Descends c t ls) {owner child : Nat} {l : Lineage} {k : Kin}
    (hl : ls[owner]? = some l) (hk : ls[child]? = some (l ++ [k])) (p : Nat) :
    (g.link owner p child).Descends c t ls where
  length := by simp [Graph.link, h.length]
  named := h.named
  last := by
    intro n m l' hm hl'
    obtain ⟨m₀, hm₀, htable, -⟩ := exists_of_getElem?_link hm
    rw [htable]
    exact h.last hm₀ hl'
  roots := h.roots
  links := by
    intro n m hm x hx
    obtain ⟨m₀, hm₀, -, -, hchildren⟩ := exists_of_getElem?_link hm
    rcases hchildren x hx with hx | ⟨rfl, rfl⟩
    · exact h.links hm₀ x hx
    · exact ⟨l, k, hl, hk⟩
  keys := h.keys
  found := h.found

/-- What reading an occurrence below a lineage adds: lineages of the new nodes, a child of the owner
being the next in line. -/
def Occurrence.Descends (c : Catalog) (t : Table) (o : Occurrence) : Prop :=
  ∀ {g g' : Graph} {ls : List Lineage} {above : Lineage} {s : Sighting}, g.Descends c t ls →
    c.Names t above → c.Reaches t o.table → add (lineageText above) o g = .ok (s, g') →
    ∃ new, g'.Descends c t (ls ++ new) ∧
      ∀ n, s = .new n → ∃ k, (ls ++ new)[n]? = some (above ++ [k])

theorem addBelow_descends {below : List (Nat × Occurrence)}
    (hbelow : ∀ x ∈ below, c.Reaches t x.2.table ∧ x.2.Descends c t) (h : g.Descends c t ls)
    {node : Nat} {l : Lineage} (hl : ls[node]? = some l)
    (hadd : addBelow (lineageText l) node below g = .ok g') :
    ∃ new, g'.Descends c t (ls ++ new) := by
  induction below generalizing g ls with
  | nil =>
    rw [addBelow] at hadd
    obtain rfl := Except.ok.inj hadd
    exact ⟨[], by rwa [List.append_nil]⟩
  | cons x rest ih =>
    obtain ⟨p, o⟩ := x
    obtain ⟨⟨hreaches, ho⟩, hrest⟩ := List.forall_mem_cons.mp hbelow
    obtain ⟨s, g₁, hfirst, hadd⟩ := addBelow_cons hadd
    obtain ⟨new₁, h₁, hchild⟩ := ho h (h.named l (List.mem_of_getElem? hl)) hreaches hfirst
    have hl₁ := getElem?_append_of_eq_some hl new₁
    have h₂ : (g₁.linkNew node p s).Descends c t (ls ++ new₁) := by
      cases s with
      | new n =>
        obtain ⟨k, hk⟩ := hchild n rfl
        exact h₁.link hl₁ hk p
      | existing n => exact h₁
      | absent => exact h₁
    obtain ⟨new₂, h'⟩ := ih hrest h₂ hl₁ hadd
    exact ⟨new₁ ++ new₂, by rwa [← List.append_assoc]⟩

/-- **Reading one occurrence.** What is found by a text has the lineage of that text, so that what is
read below it descends from it. -/
theorem Occurrence.Of.descends {o : Occurrence} (ho : o.Of c) : o.Descends c t := by
  induction ho with
  | @mk table identity object nested suits places each ih =>
    intro g g' ls above s h habove hreaches hadd
    have ho : Occurrence.Of c (.mk table identity object nested) := .mk suits places each
    generalize hoeq : Occurrence.mk table identity object nested = o at ho hreaches hadd
    have hnested : ∀ x ∈ o.nested, c.Reaches t x.2.table ∧ x.2.Descends c t := by
      subst hoeq
      exact fun x hx => ⟨hreaches.snoc (ho.nested hx).1, ih x hx⟩
    rcases add_cases hadd with ⟨n, k, rfl, hk, hn, hbelow⟩ | ⟨hnone, ⟨ob, rfl, -, hbelow⟩ |
      ⟨rfl, -, rfl⟩⟩
    · obtain ⟨l, hl, -, rfl⟩ := h.keys hn
      rw [text_of_keyOf hk] at hbelow
      obtain ⟨new, h'⟩ := addBelow_descends hnested h hl hbelow
      exact ⟨new, h', fun n hn => nomatch hn⟩
    · obtain ⟨tag, htag, htext⟩ := Occurrence.exists_tag ho.suits g.nodes.length
      obtain ⟨hkey, htext⟩ := htext (lineageText above)
      rw [hkey] at hnone hbelow
      have h₁ : Graph.Descends c t (g.push { table := o.table, object := ob } _) _ :=
        h.push habove rfl hreaches htag hnone
      have hl : (ls ++ [above ++ [⟨o.table.entity, tag⟩]])[g.nodes.length]? = _ :=
        h.length ▸ List.getElem?_concat_length
      rw [htext, ← lineageText_concat] at hbelow
      obtain ⟨new, h'⟩ := addBelow_descends hnested h₁ hl hbelow
      rw [List.append_assoc] at h'
      refine ⟨_, h', fun n hn => ⟨⟨o.table.entity, tag⟩, ?_⟩⟩
      obtain rfl := Sighting.new.inj hn
      rw [← List.append_assoc]
      exact getElem?_append_of_eq_some hl new
    · exact ⟨[], by rwa [List.append_nil], fun n hn => nomatch hn⟩

/-- **Reading one row.** -/
theorem addRow_descends (h : g.Descends c t ls) {row : Row} (hrow : Graph.addRow c t g row = .ok g') :
    ∃ new, g'.Descends c t (ls ++ new) := by
  rcases addRow_cases hrow with ⟨-, rfl⟩ | ⟨o, s, g₁, ho, hadd, rfl⟩
  · exact ⟨[], by rwa [List.append_nil]⟩
  · obtain ⟨htable, -, hof⟩ := ofRow_seenIn ho
    have habove : c.Names t [] := fun k hk => absurd hk List.not_mem_nil
    have hadd' : add (lineageText []) o g = .ok (s, g₁) := hadd
    obtain ⟨new, h', hroot⟩ := hof.descends (t := t) h habove (htable ▸ .refl _) hadd'
    refine ⟨new, { h' with roots := fun n hn => ?_ }⟩
    rcases List.mem_append.mp hn with hn | hn
    · exact h'.roots n hn
    · cases s with
      | new m =>
        obtain rfl : n = m := List.mem_singleton.mp hn
        exact hroot n rfl
      | existing m => exact absurd hn List.not_mem_nil
      | absent => exact absurd hn List.not_mem_nil

/-- **Reading rows.** -/
theorem exists_descends {rows : List Row} (h : Graph.ofRows c t rows = .ok g) :
    ∃ ls, g.Descends c t ls := by
  have hempty : Graph.Descends c t {} [] :=
    ⟨rfl, by simp, by simp, by simp, by simp, by simp, by simp⟩
  have hstep : ∀ (g : Graph) (row : Row) (g' : Graph), (∃ ls, g.Descends c t ls) →
      Graph.addRow c t g row = .ok g' → ∃ ls, g'.Descends c t ls := by
    rintro g row g' ⟨ls, hg⟩ hrow
    obtain ⟨new, hg'⟩ := addRow_descends hg hrow
    exact ⟨ls ++ new, hg'⟩
  exact foldlM_preserves hstep ⟨[], hempty⟩ h

end Descends

/-- **The text of a lineage is the text of no other**, whatever texts keys are made of. The nodes of
a graph that rows give have lineages, and where the names of types have no marks the text of a keyed
lineage finds the node of that lineage and no other. -/
theorem lineageText_inj :
    (∀ l m : Lineage, (∀ k ∈ l ++ m, IsUnmarked k.entity) →
      (lineageText l = lineageText m ↔ l = m)) ∧
    ∀ (c : Catalog) (t : Table) (rows : List Row) (g : Graph), Graph.ofRows c t rows = .ok g →
      ∃ ls, g.Descends c t ls ∧ ((∀ u, c.Reaches t u → IsUnmarked u.entity) →
        ∀ l : Lineage, (∀ k ∈ l, IsUnmarked k.entity) → IsKeyed l →
          ∀ n, g.keys.lookup (lineageText l) = some n ↔ ls[n]? = some l) := by
  refine ⟨fun l m hlm => ?_, fun c t rows g h => ?_⟩
  · obtain ⟨hl, hm⟩ := List.forall_mem_append.mp hlm
    exact ⟨eq_of_lineageText_eq hl hm, congrArg lineageText⟩
  · obtain ⟨ls, hg⟩ := exists_descends h
    refine ⟨ls, hg, fun hnames l hl hkeyed n => ⟨fun hn => ?_, fun hn => hg.found hn hkeyed⟩⟩
    obtain ⟨m, hm, -, htext⟩ := hg.keys hn
    have hm' : ∀ k ∈ m, IsUnmarked k.entity := fun k hk => by
      obtain ⟨u, hu, hentity⟩ := hg.named m (List.mem_of_getElem? hm) k hk
      exact hentity ▸ hnames u hu
    rw [← eq_of_lineageText_eq hm' hl htext]
    exact hm

/-! ## Boxes -/

namespace Boxes

/-- Boxes, which have two labels and may be in other boxes. -/
def box : Table where
  entity := "Box"
  tableName := "boxes"
  fields := [.ofType "a" { scalar := .text } { primaryKey := true },
    .ofType "b" { scalar := .text } { primaryKey := true },
    .ofAssociation "in" ⟨.many, "a", "outer", "Box"⟩]

/-- A box with a label that looks like two, in it a box with a label that looks like a box. -/
def row : Row :=
  ⟨[("a", .text "x|1:y"), ("b", .text "z"), ("in_a", .text ""), ("in_b", .text "/Box|1:x|~")]⟩

/-- The lineage of the outer box. -/
def outer : Lineage := [⟨"Box", .key (some "x|1:y") [some "z"]⟩]

/-- The lineage of the box in it. -/
def inner : Lineage := outer ++ [⟨"Box", .key (some "") [some "/Box|1:x|~"]⟩]

theorem reaches {t u : Table} (h : Catalog.Reaches ⟨[box]⟩ t u) (ht : t = box) : u = box := by
  induction h with
  | refl t => exact ht
  | @step t v u hv _ ih =>
    subst ht
    have htargets : Catalog.targets ⟨[box]⟩ box = [box] := rfl
    rw [htargets, List.mem_singleton] at hv
    exact ih hv

end Boxes

/-- The inner box is found as what it is, and its owner is no box of the labels x and y, z. -/
theorem lineageText_inj_boxes :
    lineageText Boxes.outer ≠ lineageText [⟨"Box", .key (some "x") [some "y", some "z"]⟩] ∧
      ∃ g ls, Graph.ofRows ⟨[Boxes.box]⟩ Boxes.box [Boxes.row] = .ok g ∧
        g.Descends ⟨[Boxes.box]⟩ Boxes.box ls ∧ ls[1]? = some Boxes.inner := by
  obtain ⟨hinj, hgraph⟩ := lineageText_inj
  refine ⟨fun h => absurd ((hinj _ _ (by decide)).mp h) (by decide), ?_⟩
  have hfound : (Graph.ofRows ⟨[Boxes.box]⟩ Boxes.box [Boxes.row]).toOption.map
      (fun g => g.keys.lookup (lineageText Boxes.inner)) = some (some 1) := by
    decide +kernel
  cases hg : Graph.ofRows ⟨[Boxes.box]⟩ Boxes.box [Boxes.row] with
  | error e => rw [hg] at hfound; exact nomatch hfound
  | ok g =>
    rw [hg] at hfound
    obtain ⟨ls, hls, hkeys⟩ := hgraph _ _ _ g hg
    have hnames : ∀ u, Catalog.Reaches ⟨[Boxes.box]⟩ Boxes.box u → IsUnmarked u.entity :=
      fun u hu => Boxes.reaches hu rfl ▸ (by decide)
    have hkeyed : IsKeyed Boxes.inner := ⟨Boxes.outer, _, _, _, rfl⟩
    exact ⟨g, ls, rfl, hls,
      (hkeys hnames Boxes.inner (by decide) hkeyed 1).mp (Option.some.inj hfound)⟩

end EntityMapper
