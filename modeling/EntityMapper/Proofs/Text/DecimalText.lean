import EntityMapper.Proofs.Engine.FloatNearest

/-!
# Decimal literals

A decimal literal is a sign, digits with a point among them or at an end of them, and an exponent.
Of these the digits are there, the rest may be missing. The grammar says which number a literal
stands for; the readers accept the literals of the grammar and nothing else but the words for what
is no number.

* `readInteger_eq_some` — an integer is read from a literal of digits, exactly
* `isDecimal_iff`, `IsDecimal.unique` — a literal is read as the one number that it stands for
* `Double.ofChars?_isNearest` — as a float it is read as the nearest one
-/

namespace EntityMapper

open Double (sign)

variable {cs ds r s : List Char} {n : Nat} {k m : Int} {q q' : ℚ} {negative : Bool}

/-! ## The grammar -/

/-- Digits, at least one, and their number. -/
structure IsNatural (ds : List Char) (n : Nat) : Prop where
  ne_nil : ds ≠ []
  isDigit : ∀ d ∈ ds, d.isDigit = true
  value : digitsValue 0 ds = n

/-- A sign, and whether it is that of a negative number. -/
inductive IsSign : List Char → Bool → Prop
  | absent : IsSign [] false
  | plus : IsSign ['+'] false
  | minus : IsSign ['-'] true

/-- A sign and digits, and their number. -/
inductive IsInteger : List Char → Int → Prop
  | mk {s ds : List Char} {negative : Bool} {n : Nat} (hs : IsSign s negative)
      (hds : IsNatural ds n) : IsInteger (s ++ ds) (sign negative * n)

/-- An exponent, and the power of ten that it stands for. -/
inductive IsExponent : List Char → Int → Prop
  | absent : IsExponent [] 0
  | present {mark : Char} {cs : List Char} {k : Int} (hmark : mark = 'e' ∨ mark = 'E')
      (h : IsInteger cs k) : IsExponent (mark :: cs) k

/-- A literal without its sign, and its number. -/
inductive IsMagnitude : List Char → ℚ → Prop
  | whole {ds e : List Char} {n : Nat} {k : Int} (hds : IsNatural ds n) (he : IsExponent e k) :
      IsMagnitude (ds ++ e) (n * 10 ^ k)
  | point {ds places e : List Char} {k : Int} (hds : ∀ d ∈ ds, d.isDigit = true)
      (hplaces : ∀ d ∈ places, d.isDigit = true) (hne : ds ≠ [] ∨ places ≠ [])
      (he : IsExponent e k) :
      IsMagnitude (ds ++ '.' :: (places ++ e))
        ((digitsValue 0 ds + digitsValue 0 places / 10 ^ places.length) * 10 ^ k)

/-- A decimal literal, and its number. -/
inductive IsDecimal : List Char → ℚ → Prop
  | mk {s cs : List Char} {negative : Bool} {q : ℚ} (hs : IsSign s negative)
      (h : IsMagnitude cs q) : IsDecimal (s ++ cs) (sign negative * q)

/-! ## Integers -/

theorem readNatural_eq_some : readNatural ds = some n ↔ IsNatural ds n := by
  unfold readNatural
  constructor
  · intro h
    split at h
    · next hdigits =>
      simp only [Bool.and_eq_true, Bool.not_eq_true', List.isEmpty_eq_false_iff,
        List.all_eq_true] at hdigits
      exact ⟨hdigits.1, hdigits.2, Option.some.inj h⟩
    · exact nomatch h
  · intro h
    have hempty : ds.isEmpty = false := List.isEmpty_eq_false_iff.mpr h.ne_nil
    rw [hempty, List.all_eq_true.mpr h.isDigit, h.value]
    rfl

/-- A text is the sign that is split off and the rest. -/
theorem exists_splitSign (cs : List Char) :
    ∃ s, IsSign s (splitSign cs).1 ∧ cs = s ++ (splitSign cs).2 := by
  unfold splitSign
  split
  · exact ⟨['-'], .minus, rfl⟩
  · exact ⟨['+'], .plus, rfl⟩
  · exact ⟨[], .absent, rfl⟩

/-- A sign is split off from what does not start with one. -/
theorem splitSign_append (hs : IsSign s negative) (hr : ∀ c ∈ r.head?, c ≠ '-' ∧ c ≠ '+') :
    splitSign (s ++ r) = (negative, r) := by
  cases hs with
  | absent =>
    show splitSign r = (false, r)
    unfold splitSign
    split
    · exact absurd rfl (hr '-' rfl).1
    · exact absurd rfl (hr '+' rfl).2
    · rfl
  | plus => rfl
  | minus => rfl

/-- A digit is no sign. -/
theorem ne_sign_of_isDigit {c : Char} (h : c.isDigit = true) : c ≠ '-' ∧ c ≠ '+' := by
  constructor <;> rintro rfl <;> exact absurd h (by decide)

/-- An integer is the number of the digits with the sign in front of them. -/
theorem readInteger_eq (cs : List Char) :
    readInteger cs =
      (readNatural (splitSign cs).2).map fun n : Nat => sign (splitSign cs).1 * (n : Int) := by
  unfold readInteger
  dsimp only
  generalize splitSign cs = p
  obtain ⟨negative, ds⟩ := p
  cases readNatural ds with
  | none => rfl
  | some n => cases negative <;> simp [sign]

/-- **An integer is read from a sign and digits, and from nothing else.** -/
theorem readInteger_eq_some : readInteger cs = some m ↔ IsInteger cs m := by
  rw [readInteger_eq]
  constructor
  · intro h
    obtain ⟨n, hn, rfl⟩ := Option.map_eq_some_iff.mp h
    obtain ⟨s, hs, hcs⟩ := exists_splitSign cs
    have hinteger := IsInteger.mk hs (readNatural_eq_some.mp hn)
    rwa [← hcs] at hinteger
  · intro h
    obtain @⟨s, ds, negative, n, hs, hds⟩ := h
    have hhead : ∀ c ∈ ds.head?, c ≠ '-' ∧ c ≠ '+' := fun c hc =>
      ne_sign_of_isDigit (hds.isDigit c (List.mem_of_mem_head? hc))
    rw [splitSign_append hs hhead, readNatural_eq_some.mpr hds]
    rfl

theorem readExponent_eq_some : Double.readExponent cs = some k ↔ IsExponent cs k := by
  cases cs with
  | nil =>
    constructor
    · intro h
      obtain rfl := Option.some.inj h
      exact .absent
    · rintro ⟨⟩
      rfl
  | cons c r =>
    have hread : Double.readExponent (c :: r) =
        if c == 'e' || c == 'E' then readInteger r else none := rfl
    have hmarked : (c == 'e' || c == 'E') = true ↔ c = 'e' ∨ c = 'E' := by
      rw [Bool.or_eq_true, beq_iff_eq, beq_iff_eq]
    rw [hread]
    constructor
    · intro h
      split at h
      · next hmark => exact .present (hmarked.mp hmark) (readInteger_eq_some.mp h)
      · exact nomatch h
    · intro h
      cases h with
      | present hmark h => rw [if_pos (hmarked.mpr hmark), readInteger_eq_some.mpr h]

/-- An exponent does not start with a digit or a point. -/
theorem IsExponent.head (h : IsExponent cs k) : ∀ c ∈ cs.head?, c.isDigit = false ∧ c ≠ '.' := by
  cases h with
  | absent => simp
  | present hmark _ =>
    intro c hc
    obtain rfl := Option.some.inj hc
    rcases hmark with rfl | rfl <;> decide

/-! ## Decimals -/

/-- Digits that are taken are digits at the front of the text. -/
theorem takeDigits_spec (h : takeDigits none cs = (ds, r)) :
    ds ++ r = cs ∧ ∀ d ∈ ds, d.isDigit = true := by
  have happend := takeDigits_append none cs
  have hrun : (takeDigits none cs).1 = cs.takeWhile Char.isDigit :=
    (List.prefix_iff_eq_take.mp (List.takeWhile_prefix _)).symm
  rw [h] at happend hrun
  refine ⟨happend, fun d hd => ?_⟩
  rw [show ds = cs.takeWhile Char.isDigit from hrun] at hd
  exact List.mem_takeWhile_imp hd

/-- The number of digits with a point among them. -/
theorem digitsValue_point (ds places : List Char) (k : Int) :
    ((digitsValue 0 (ds ++ places) : Nat) : ℚ) * 10 ^ (k - places.length) =
      (digitsValue 0 ds + digitsValue 0 places / 10 ^ places.length) * 10 ^ k := by
  have hten : ((tenTo places.length : Nat) : ℚ) = 10 ^ places.length := by
    exact_mod_cast rfl
  rw [digitsValue_append, zpow_sub₀ (by norm_num), zpow_natCast, Nat.cast_add, Nat.cast_mul, hten]
  field_simp

/-- What is read without a sign is a literal, of the number that it is read as. -/
theorem isMagnitude_of_readMagnitude {p : Nat × Int} (h : Double.readMagnitude cs = some p) :
    IsMagnitude cs (p.1 * 10 ^ p.2) := by
  unfold Double.readMagnitude at h
  split at h
  next ds r htake =>
  obtain ⟨rfl, hds⟩ := takeDigits_spec htake
  split at h
  next places e hrest =>
  split at h
  · exact nomatch h
  next hne =>
  obtain ⟨k, hk, rfl⟩ := Option.map_eq_some_iff.mp h
  have he : IsExponent e k := readExponent_eq_some.mp hk
  have hdigits : ds ≠ [] ∨ places ≠ [] := by
    simpa only [Bool.and_eq_true, List.isEmpty_iff, not_and_or] using hne
  split at hrest
  · obtain ⟨rfl, hplaces⟩ := takeDigits_spec hrest
    rw [digitsValue_point]
    exact .point hds hplaces hdigits he
  · obtain ⟨rfl, rfl⟩ := Prod.mk.inj hrest
    rw [List.append_nil, List.length_nil, Int.natCast_zero, Int.sub_zero]
    exact .whole ⟨hdigits.resolve_right (absurd rfl), hds, rfl⟩ he

/-- A literal without its sign is read as its number. -/
theorem isMagnitude_iff :
    IsMagnitude cs q ↔ ∃ p, Double.readMagnitude cs = some p ∧ (p.1 : ℚ) * 10 ^ p.2 = q := by
  constructor
  · intro h
    cases h with
    | whole hds he =>
      rw [Double.readMagnitude_digits_append hds.isDigit hds.ne_nil he.head,
        readExponent_eq_some.mpr he, hds.value]
      exact ⟨_, rfl, rfl⟩
    | point hds hplaces hne he =>
      rw [Double.readMagnitude_point_append hds hplaces hne fun c hc => (he.head c hc).1,
        readExponent_eq_some.mpr he]
      exact ⟨_, rfl, digitsValue_point _ _ _⟩
  · rintro ⟨p, hp, rfl⟩
    exact isMagnitude_of_readMagnitude hp

/-- A literal without its sign does not start with one. -/
theorem IsMagnitude.head (h : IsMagnitude cs q) : ∀ c ∈ cs.head?, c ≠ '-' ∧ c ≠ '+' := by
  obtain ⟨p, hp, -⟩ := isMagnitude_iff.mp h
  intro c hc
  obtain ⟨r, rfl⟩ := List.head?_eq_some_iff.mp hc
  constructor <;> rintro rfl <;> cases hp.symm.trans
    (Double.readMagnitude_of_not_isDigit (by decide) (by decide) r)

/-- **A decimal literal is read as its number.** -/
theorem isDecimal_iff :
    IsDecimal cs q ↔ ∃ p, Double.readMagnitude (splitSign cs).2 = some p ∧
      sign (splitSign cs).1 * ((p.1 : ℚ) * 10 ^ p.2) = q := by
  constructor
  · rintro ⟨hs, h⟩
    obtain ⟨p, hp, rfl⟩ := isMagnitude_iff.mp h
    rw [splitSign_append hs h.head]
    exact ⟨p, hp, rfl⟩
  · rintro ⟨p, hp, rfl⟩
    obtain ⟨s, hs, hcs⟩ := exists_splitSign cs
    have h := IsDecimal.mk hs (isMagnitude_of_readMagnitude hp)
    rwa [← hcs] at h

/-- A literal has one number. -/
theorem IsDecimal.unique (h : IsDecimal cs q) (h' : IsDecimal cs q') : q = q' := by
  obtain ⟨p, hp, rfl⟩ := isDecimal_iff.mp h
  obtain ⟨p', hp', rfl⟩ := isDecimal_iff.mp h'
  obtain rfl := Option.some.inj (hp.symm.trans hp')
  rfl

/-- An integer is a decimal. -/
theorem IsInteger.isDecimal (h : IsInteger cs m) : IsDecimal cs m := by
  obtain ⟨hs, hds⟩ := h
  have hwhole := IsDecimal.mk hs (.whole hds .absent)
  rw [List.append_nil, zpow_zero, mul_one] at hwhole
  exact_mod_cast hwhole

/-! ## Floats -/

/-- **A decimal literal is read as the nearest float**, and nothing else is read as a finite one. -/
theorem Double.ofChars?_isNearest {x : Double} (h : Double.ofChars? cs = some x)
    (hfinite : x.isFinite = true) : ∃ q, IsDecimal cs q ∧ IsNearest q x.value := by
  unfold Double.ofChars? at h
  dsimp only at h
  split at h
  · obtain rfl := Option.some.inj h
    rw [isFinite_infinity] at hfinite
    exact nomatch hfinite
  split at h
  · obtain rfl := Option.some.inj h
    exact absurd hfinite (by decide)
  obtain ⟨p, hp, rfl⟩ := Option.map_eq_some_iff.mp h
  exact ⟨_, isDecimal_iff.mpr ⟨p, hp, rfl⟩, isNearest_ofDecimal hfinite⟩

end EntityMapper
