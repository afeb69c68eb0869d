import EntityMapper.Proofs.Text.Digits

/-!
# Datetimes are told apart by their texts

The canonical text shows the second and the tenths of a microsecond, so it tells datetimes apart as
far as that.

* `shown` — what the canonical text shows
* `text_eq_iff` — datetimes with one text are those that show the same
-/

namespace EntityMapper.DateTime

/-- What the canonical text shows. -/
structure Shown where
  year : Int
  month : Nat
  day : Nat
  hour : Nat
  minute : Nat
  second : Nat
  ticks : Nat
deriving DecidableEq

/-- What the canonical text of a datetime shows; all of a leap second is its last tick. -/
def shown (t : DateTime) : Shown :=
  ⟨t.year, t.month, t.day, t.hour, t.minute, t.clockSecond, t.ticks⟩

variable {t u : DateTime}

/-- Two texts that start with digits have the same digits, if what follows is none. -/
theorem digits_inj {ds es r s : List Char} {c d : Char} (hds : ∀ x ∈ ds, x.isDigit = true)
    (hes : ∀ x ∈ es, x.isDigit = true) (hc : c.isDigit = false) (hd : d.isDigit = false)
    (h : ds ++ c :: r = es ++ d :: s) : ds = es ∧ r = s := by
  have htake := congrArg (takeDigits none) h
  rw [takeDigits_of_append hds (by simpa using hc),
    takeDigits_of_append hes (by simpa using hd)] at htake
  obtain ⟨rfl, hrest⟩ := Prod.mk.inj htake
  exact ⟨rfl, (List.cons.inj hrest).2⟩

theorem padDigits_inj {width m n : Nat} (h : padDigits width m = padDigits width n) : m = n := by
  rw [← digitsValue_padDigits width m, h, digitsValue_padDigits]

/-- The same for padded numbers. -/
theorem padDigits_append_inj {width m n : Nat} {r s : List Char} {c : Char} (hc : c.isDigit = false)
    (h : padDigits width m ++ c :: r = padDigits width n ++ c :: s) : m = n ∧ r = s := by
  have hpad : ∀ n, ∀ d ∈ padDigits width n, d.isDigit = true := fun _ _ => isDigit_padDigits
  obtain ⟨hdigits, hrest⟩ := digits_inj (hpad m) (hpad n) hc hc h
  exact ⟨padDigits_inj hdigits, hrest⟩

/-- The digits of a year, and what follows, are what is left of its text without the sign. -/
theorem dropWhile_yearDigits (y : Int) (r : List Char) :
    (yearDigits y ++ r).dropWhile (fun c => !c.isDigit) = padDigits 4 y.natAbs ++ r := by
  obtain ⟨d, ds, hd⟩ := List.exists_cons_of_ne_nil (padDigits_ne_nil 4 y.natAbs)
  have hdigit : d.isDigit = true := isDigit_padDigits (hd ▸ List.mem_cons_self)
  have hdigits : (padDigits 4 y.natAbs ++ r).dropWhile (fun c => !c.isDigit) =
      padDigits 4 y.natAbs ++ r := by
    rw [hd, List.cons_append, List.dropWhile_cons_of_neg (by simp [hdigit])]
  unfold yearDigits
  rw [List.append_assoc]
  split
  · rw [List.singleton_append, List.dropWhile_cons_of_pos (by decide), hdigits]
  · split
    · rw [List.singleton_append, List.dropWhile_cons_of_pos (by decide), hdigits]
    · exact hdigits

/-- Only a year before the year zero has a minus sign. -/
theorem head?_yearDigits (y : Int) : (yearDigits y).head? = some '-' ↔ y < 0 := by
  unfold yearDigits
  split
  · next hy => simp [hy]
  · next hy =>
    refine iff_of_false (fun h => ?_) hy
    split at h
    · exact absurd (Option.some.inj h) (by decide)
    · have hdigit : ('-').isDigit = true := isDigit_padDigits (List.mem_of_mem_head? h)
      exact absurd hdigit (by decide)

/-- A year in front is told by its sign and its digits. -/
theorem yearDigits_append_inj {y z : Int} {r s : List Char}
    (h : yearDigits y ++ '-' :: r = yearDigits z ++ '-' :: s) : y = z ∧ r = s := by
  have hdigits : padDigits 4 y.natAbs ++ '-' :: r = padDigits 4 z.natAbs ++ '-' :: s := by
    rw [← dropWhile_yearDigits, h, dropWhile_yearDigits]
  obtain ⟨habs, rfl⟩ := padDigits_append_inj (by decide) hdigits
  have hsign : y < 0 ↔ z < 0 := by
    rw [← head?_yearDigits, List.append_cancel_right h, head?_yearDigits]
  exact ⟨by omega, rfl⟩

/-- **Datetimes are told apart by their texts** as far as these show them. -/
theorem text_eq_iff : t.text = u.text ↔ t.shown = u.shown := by
  unfold text
  rw [String.ofList_inj]
  constructor
  · intro h
    unfold canonicalChars secondsChars at h
    simp only [List.append_assoc, List.cons_append] at h
    obtain ⟨hyear, h⟩ := yearDigits_append_inj h
    obtain ⟨hmonth, h⟩ := padDigits_append_inj (by decide) h
    obtain ⟨hday, h⟩ := padDigits_append_inj (by decide) h
    obtain ⟨hhour, h⟩ := padDigits_append_inj (by decide) h
    obtain ⟨hminute, h⟩ := padDigits_append_inj (by decide) h
    obtain ⟨hsecond, h⟩ := padDigits_append_inj (by decide) h
    have hticks := padDigits_inj h
    unfold shown
    rw [hyear, hmonth, hday, hhour, hminute, hsecond, hticks]
  · intro h
    obtain ⟨hyear, hmonth, hday, hhour, hminute, hsecond, hticks⟩ := Shown.mk.inj h
    unfold canonicalChars secondsChars
    rw [hyear, hmonth, hday, hhour, hminute, hsecond, hticks]

end EntityMapper.DateTime
