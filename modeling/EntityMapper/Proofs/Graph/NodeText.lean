import EntityMapper.Graph
import Mathlib.Data.List.Basic

/-!
# The texts of nodes

Nodes are found by text: the text of the owner, the name of the entity type, and the key, each part
of it behind its length. Two objects below one owner never get texts of which one goes on where
the other ends, as long as the names of their types do not run into the mark that follows them
(`Apart`). Names of types never do, since neither mark stands behind the whole name of a type.

* `keyPartsText_inj` — the texts of keys of one width are read back in one way
* `eq_of_within` — a text that lies within the texts of two objects below one owner shows that
  they are one object
-/

namespace EntityMapper

/-! ## Parts of an occurrence -/

namespace Occurrence

/-- The table of the object that is seen. -/
def table : Occurrence → Table
  | .mk t .. => t

/-- What identifies it. -/
def identity : Occurrence → Identity
  | .mk _ i .. => i

/-- The object itself. -/
def object : Occurrence → Except FieldCoercionError (Option Object)
  | .mk _ _ o _ => o

/-- What is seen below it. -/
def nested : Occurrence → List (Nat × Occurrence)
  | .mk _ _ _ n => n

end Occurrence

/-- How many parts a key has; a keyless object has none. -/
def Identity.width : Identity → Nat
  | .keyed parts => parts.length
  | .keyless => 0

/-- Whether what identifies an object has the form that its table asks for. -/
def Identity.Suits (i : Identity) (t : Table) : Prop :=
  i.width = t.primaryKey.length ∧ (i = .keyless ↔ t.primaryKey = [])

/-- Neither of two names goes on behind a mark as the other. -/
def Apart (e f : String) : Prop :=
  ∀ mark ∈ ['|', '#'], ¬ e.toList ++ [mark] <+: f.toList ∧ ¬ f.toList ++ [mark] <+: e.toList

instance (e f : String) : Decidable (Apart e f) := List.decidableBAll _ _

theorem apart_self (e : String) : Apart e e := by
  intro m _
  have hlen : ¬ e.toList ++ [m] <+: e.toList := fun h => by
    have := h.length_le
    rw [List.length_append, List.length_singleton] at this
    omega
  exact ⟨hlen, hlen⟩

/-- Whether a name has none of the marks that end a name. -/
def IsUnmarked (name : String) : Prop := ∀ mark ∈ ['|', '#'], mark ∉ name.toList

instance (name : String) : Decidable (IsUnmarked name) := List.decidableBAll _ _

theorem IsUnmarked.apart {e f : String} (he : IsUnmarked e) (hf : IsUnmarked f) : Apart e f :=
  fun mark hm => ⟨fun h => hf mark hm (h.subset (by simp)), fun h => he mark hm (h.subset (by simp))⟩

/-! ## Reading lists back -/

/-- Runs of one class of characters that end where the class ends are the same run. -/
theorem run_inj {P : Char → Bool} {ds es r s : List Char} (hd : ∀ c ∈ ds, P c = true)
    (he : ∀ c ∈ es, P c = true) (hr : ∀ c, r.head? = some c → P c = false)
    (hs : ∀ c, s.head? = some c → P c = false) (h : ds ++ r = es ++ s) : ds = es ∧ r = s := by
  induction ds generalizing es with
  | nil =>
    cases es with
    | nil => exact ⟨rfl, h⟩
    | cons e es =>
      have hP := he e List.mem_cons_self
      rw [hr e (by simp only [List.nil_append, List.cons_append] at h; simp [h])] at hP
      exact nomatch hP
  | cons d ds ih =>
    cases es with
    | nil =>
      have hP := hd d List.mem_cons_self
      rw [hs d (by simp only [List.nil_append, List.cons_append] at h; simp [← h])] at hP
      exact nomatch hP
    | cons e es =>
      simp only [List.cons_append, List.cons.injEq] at h
      obtain ⟨rfl, h⟩ := h
      obtain ⟨rfl, rfl⟩ := ih (fun c hc => hd c (List.mem_cons_of_mem _ hc))
        (fun c hc => he c (List.mem_cons_of_mem _ hc)) h
      exact ⟨rfl, rfl⟩

/-- Decimal numbers that end where the digits end are the same number. -/
theorem digits_inj {m n : Nat} {r s : List Char} (hr : ∀ c, r.head? = some c → c.isDigit = false)
    (hs : ∀ c, s.head? = some c → c.isDigit = false)
    (h : (toString m).toList ++ r = (toString n).toList ++ s) : m = n ∧ r = s := by
  have hdigits : ∀ k : Nat, ∀ c ∈ (toString k).toList, c.isDigit = true := fun k c hc => by
    rw [Nat.toString_eq_repr, Nat.toList_repr] at hc
    exact Nat.isDigit_of_mem_toDigits (by decide) (by decide) hc
  obtain ⟨hmn, hrs⟩ := run_inj (hdigits m) (hdigits n) hr hs h
  rw [Nat.toString_eq_repr, Nat.toString_eq_repr, Nat.toList_repr, Nat.toList_repr] at hmn
  refine ⟨?_, hrs⟩
  rw [← @Nat.ofDigitChars_ten_toDigits m, ← @Nat.ofDigitChars_ten_toDigits n, hmn]

/-- Texts of one size at the front of a list are the same text. -/
theorem sized_inj {s t : String} {r r' : List Char} (hsize : s.utf8ByteSize = t.utf8ByteSize)
    (h : s.toList ++ r = t.toList ++ r') : s = t ∧ r = r' := by
  have key : ∀ {a b : String} {u : List Char}, a.toList = b.toList ++ u →
      a.utf8ByteSize = b.utf8ByteSize → u = [] := by
    intro a b u hab hsize
    have ha : a = b ++ String.ofList u := by
      rw [← String.toList_inj, String.toList_append, String.toList_ofList, hab]
    rw [ha, String.utf8ByteSize_append] at hsize
    have hu := String.utf8ByteSize_eq_zero_iff.mp (show (String.ofList u).utf8ByteSize = 0 by omega)
    rw [← @String.toList_ofList u, hu]
    rfl
  rcases List.append_eq_append_iff.mp h with ⟨u, ht, hr⟩ | ⟨u, ht, hr⟩
  · have hu := key ht hsize.symm
    subst hu
    exact ⟨String.toList_inj.mp (by simpa using ht.symm), by simpa using hr⟩
  · have hu := key ht hsize
    subst hu
    exact ⟨String.toList_inj.mp (by simpa using ht), by simpa using hr.symm⟩

/-! ## Keys -/

theorem toList_keyPartText_some (s : String) :
    (keyPartText (some s)).toList =
      '|' :: ((toString s.utf8ByteSize).toList ++ ':' :: s.toList) := by
  simp [keyPartText]

theorem toList_keyPartText_none : (keyPartText none).toList = ['|', '~'] := rfl

theorem keyPartText_inj {p q : KeyPart} {r s : List Char}
    (h : (keyPartText p).toList ++ r = (keyPartText q).toList ++ s) : p = q ∧ r = s := by
  -- a length never starts with the mark of a null
  have hnull : ∀ (n : Nat) (a b : List Char), ¬ '~' :: a = (toString n).toList ++ b := by
    intro n a b h
    have hne : (toString n).toList ≠ [] := by
      rw [Nat.toString_eq_repr, Nat.toList_repr]
      exact Nat.toDigits_ne_nil
    obtain ⟨d, ds, hd⟩ := List.exists_cons_of_ne_nil hne
    have hdigit : d.isDigit = true := by
      have hmem : d ∈ Nat.toDigits 10 n := by
        rw [← Nat.toList_repr, ← Nat.toString_eq_repr, hd]
        exact List.mem_cons_self
      exact Nat.isDigit_of_mem_toDigits (by decide) (by decide) hmem
    rw [hd, List.cons_append, List.cons.injEq] at h
    rw [← h.1] at hdigit
    exact absurd hdigit (by decide)
  cases p with
  | none =>
    cases q with
    | none => exact ⟨rfl, by simpa [toList_keyPartText_none] using h⟩
    | some t =>
      rw [toList_keyPartText_none, toList_keyPartText_some] at h
      simp only [List.cons_append, List.nil_append, List.cons.injEq, true_and,
        List.append_assoc] at h
      exact absurd h (hnull _ _ _)
  | some s' =>
    cases q with
    | none =>
      rw [toList_keyPartText_none, toList_keyPartText_some] at h
      simp only [List.cons_append, List.nil_append, List.cons.injEq, true_and,
        List.append_assoc] at h
      exact absurd h.symm (hnull _ _ _)
    | some t =>
      rw [toList_keyPartText_some, toList_keyPartText_some] at h
      simp only [List.cons_append, List.cons.injEq, true_and, List.append_assoc] at h
      have hcolon : ∀ l : List Char, ∀ c, (':' :: l).head? = some c → c.isDigit = false := by
        intro l c hc
        simp only [List.head?_cons, Option.some.injEq] at hc
        subst hc
        rfl
      obtain ⟨hsize, h⟩ := digits_inj (hcolon _) (hcolon _) h
      simp only [List.cons.injEq, true_and] at h
      obtain ⟨rfl, rfl⟩ := sized_inj hsize h
      exact ⟨rfl, rfl⟩

/-- **The text of a key is read back in one way.** -/
theorem keyPartsText_inj {ps qs : List KeyPart} {r s : List Char} (hlen : ps.length = qs.length)
    (h : (String.join (ps.map keyPartText)).toList ++ r =
      (String.join (qs.map keyPartText)).toList ++ s) : ps = qs ∧ r = s := by
  induction ps generalizing qs with
  | nil =>
    rw [List.eq_nil_of_length_eq_zero hlen.symm] at h ⊢
    exact ⟨rfl, h⟩
  | cons p ps ih =>
    cases qs with
    | nil => simp at hlen
    | cons q qs =>
      simp only [List.map_cons, String.join_cons, String.toList_append, List.append_assoc] at h
      obtain ⟨rfl, hrest⟩ := keyPartText_inj h
      obtain ⟨rfl, hrs⟩ := ih (by simpa using hlen) hrest
      exact ⟨rfl, hrs⟩

/-! ## Texts below an owner -/

/-- The text of what identifies an object, with its mark in front. -/
def Identity.tail (node : Nat) : Identity → List Char
  | .keyed parts => (String.join (parts.map keyPartText)).toList
  | .keyless => '#' :: (toString node).toList

/-- The text of an object below an owner. -/
def Occurrence.text (owner : String) (o : Occurrence) (node : Nat) : String :=
  (Graph.keyOf owner o.table o.identity).getD (nodeText owner o.table.entity node)

theorem Occurrence.toList_text (owner : String) (o : Occurrence) (node : Nat) :
    (o.text owner node).toList =
      owner.toList ++ '/' :: (o.table.entity.toList ++ o.identity.tail node) := by
  unfold Occurrence.text
  cases o.identity with
  | keyed parts => simp [Graph.keyOf, keyText, Identity.tail]
  | keyless => simp [Graph.keyOf, nodeText, Identity.tail]

/-- A text is that of an object or of one below it. -/
def Within (owner text : String) : Prop :=
  ∃ r, text.toList = owner.toList ++ r ∧ (r = [] ∨ r.head? = some '/')

/-- A text is that of an object below an owner. -/
def Under (owner text : String) : Prop := ∃ r, text.toList = owner.toList ++ '/' :: r

theorem within_self (owner : String) : Within owner owner := ⟨[], by simp, .inl rfl⟩

theorem Under.within {owner text : String} (h : Under owner text) : Within owner text := by
  obtain ⟨r, hr⟩ := h
  exact ⟨_, hr, .inr rfl⟩

theorem not_under_self (owner : String) : ¬ Under owner owner := by
  rintro ⟨r, hr⟩
  have := congrArg List.length hr
  simp at this

theorem under_of_within_text {owner text : String} {o : Occurrence} {node : Nat}
    (h : Within (o.text owner node) text) : Under owner text := by
  obtain ⟨r, hr, -⟩ := h
  rw [Occurrence.toList_text] at hr
  exact ⟨o.table.entity.toList ++ o.identity.tail node ++ r, by rw [hr]; simp⟩

/-! ## One object -/

/-- Whether two occurrences show one object: they have one type and one key. -/
def Occurrence.same (o p : Occurrence) : Bool :=
  match o.identity, p.identity with
  | .keyed k, .keyed l => o.table.entity == p.table.entity && k == l
  | _, _ => false

/-- The identity starts with a mark. -/
theorem Identity.tail_eq_cons {i : Identity} {t : Table} (h : i.Suits t) (node : Nat) :
    ∃ mark ∈ ['|', '#'], ∃ r, i.tail node = mark :: r := by
  cases i with
  | keyless => exact ⟨'#', by simp, _, rfl⟩
  | keyed parts =>
    cases parts with
    | nil =>
      have := h.2.mpr (List.eq_nil_of_length_eq_zero (by simpa [Identity.width] using h.1.symm))
      exact nomatch this
    | cons p ps =>
      cases p with
      | none =>
        exact ⟨'|', by simp, '~' :: (String.join (ps.map keyPartText)).toList, by
          rw [Identity.tail, List.map_cons, String.join_cons, String.toList_append,
            toList_keyPartText_none]
          rfl⟩
      | some s =>
        exact ⟨'|', by simp, (toString s.utf8ByteSize).toList ++ ':' :: s.toList ++
            (String.join (ps.map keyPartText)).toList, by
          rw [Identity.tail, List.map_cons, String.join_cons, String.toList_append,
            toList_keyPartText_some]
          rfl⟩

/-- Names that are apart are read back in one way. -/
theorem Apart.eq_of_append {e f : String} (h : Apart e f) {a b : Char} (ha : a ∈ ['|', '#'])
    (hb : b ∈ ['|', '#']) {r s : List Char} (heq : e.toList ++ a :: r = f.toList ++ b :: s) :
    e = f ∧ a :: r = b :: s := by
  rcases List.append_eq_append_iff.mp heq with ⟨u, hf, hr⟩ | ⟨u, hf, hr⟩
  · cases u with
    | nil => exact ⟨String.toList_inj.mp (by simpa using hf.symm), by simpa using hr⟩
    | cons c u =>
      rw [List.cons_append, List.cons.injEq] at hr
      obtain ⟨rfl, -⟩ := hr
      exact absurd ⟨u, by simp [hf]⟩ (h a ha).1
  · cases u with
    | nil => exact ⟨String.toList_inj.mp (by simpa using hf), by simpa using hr.symm⟩
    | cons c u =>
      rw [List.cons_append, List.cons.injEq] at hr
      obtain ⟨rfl, -⟩ := hr
      exact absurd ⟨u, by simp [hf]⟩ (h b hb).2

/-- **A text within those of two objects below one owner shows that they are one object.** Without
keys it is the node that shows it. -/
theorem eq_of_within {owner text : String} {o p : Occurrence} {m n : Nat}
    (ho : o.identity.Suits o.table) (hp : p.identity.Suits p.table)
    (hapart : Apart o.table.entity p.table.entity)
    (htable : o.table.entity = p.table.entity → o.table = p.table)
    (hm : Within (o.text owner m) text) (hn : Within (p.text owner n) text) :
    o.same p = true ∨ (o.identity = .keyless ∧ p.identity = .keyless ∧ m = n) := by
  obtain ⟨r, hr, hrhead⟩ := hm
  obtain ⟨s, hs, hshead⟩ := hn
  rw [hr, Occurrence.toList_text, Occurrence.toList_text] at hs
  simp only [List.append_assoc, List.cons_append, List.append_cancel_left_eq, List.cons.injEq,
    true_and] at hs
  -- the mark behind the name of a type tells where the name ends
  obtain ⟨a, ha, u, hu⟩ := Identity.tail_eq_cons ho m
  obtain ⟨b, hb, v, hv⟩ := Identity.tail_eq_cons hp n
  rw [hu, hv, List.cons_append, List.cons_append] at hs
  obtain ⟨hentity, hs⟩ := hapart.eq_of_append ha hb hs
  have heq := htable hentity
  rw [← List.cons_append, ← List.cons_append, ← hu, ← hv] at hs
  unfold Occurrence.same
  cases hoi : o.identity with
  | keyed k =>
    cases hpi : p.identity with
    | keyed l =>
      rw [hoi, hpi] at hs
      -- keys of one table have as many parts
      have hlen : k.length = l.length := by
        have h1 := ho.1
        have h2 := hp.1
        rw [hoi] at h1
        rw [hpi] at h2
        rw [heq] at h1
        exact h1.trans h2.symm
      obtain ⟨rfl, -⟩ := keyPartsText_inj hlen hs
      exact .inl (by simp [hentity])
    | keyless =>
      have h1 := ho.2
      have h2 := hp.2
      rw [hoi, heq] at h1
      rw [hpi] at h2
      exact nomatch h1.mpr (h2.mp rfl)
  | keyless =>
    cases hpi : p.identity with
    | keyed l =>
      have h1 := ho.2
      have h2 := hp.2
      rw [hoi, heq] at h1
      rw [hpi] at h2
      exact nomatch h2.mpr (h1.mp rfl)
    | keyless =>
      rw [hoi, hpi] at hs
      simp only [Identity.tail, List.cons_append, List.cons.injEq, true_and] at hs
      -- a number ends where the text of something below would begin
      have hslash : ∀ {l : List Char}, l = [] ∨ l.head? = some '/' →
          ∀ c, l.head? = some c → c.isDigit = false := by
        rintro l (rfl | h) c hc
        · simp at hc
        · rw [h, Option.some.injEq] at hc
          subst hc
          rfl
      exact .inr ⟨rfl, rfl, (digits_inj (hslash hrhead) (hslash hshead) hs).1⟩

end EntityMapper
