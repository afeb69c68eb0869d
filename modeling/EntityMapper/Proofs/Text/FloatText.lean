import Mathlib.Algebra.Order.Field.Rat
import Mathlib.Algebra.Order.Field.Power
import Mathlib.Data.List.TakeWhile
import Mathlib.Tactic.FieldSimp
import Mathlib.Tactic.Positivity
import Mathlib.Tactic.Ring
import EntityMapper.Proofs.Text.Digits

/-!
# Floats are told apart by their texts

A float is written as a decimal that rounds to it, and a number rounds to one float: the numbers
that round to a magnitude end where those of the next one start, and the end belongs to the even one
of the two.

* `RoundsTo.unique` — a number rounds to one magnitude
* `roundsTo_shortest` — the decimal that is written for a float rounds to it
* `readMagnitude_positional` — the text of a decimal is read as the number that it is
* `text_eq_iff` — floats with one text are one float, or no numbers
-/

namespace EntityMapper.Double

/-! ## Magnitudes -/

theorem twoTo_eq (n : Nat) : twoTo n = 2 ^ n := rfl

/-- The bits after the sign, as a number. The order of these is that of the numbers they stand
for. -/
def magnitude (x : Double) : Nat := x.bits.toNat % 2 ^ 63

variable {x y : Double} {q : ℚ}

theorem exponentField_eq (x : Double) : x.exponentField = x.magnitude / 2 ^ 52 := by
  unfold exponentField magnitude
  simp only [twoTo_eq]
  omega

theorem fraction_eq (x : Double) : x.fraction = x.magnitude % 2 ^ 52 := by
  unfold fraction magnitude
  simp only [twoTo_eq]
  omega

/-- A word is its sign and its magnitude. -/
theorem eq_of_magnitude (hsign : x.negative = y.negative) (h : x.magnitude = y.magnitude) :
    x = y := by
  obtain ⟨b⟩ := x
  obtain ⟨c⟩ := y
  have hb := b.toNat_lt
  have hc := c.toNat_lt
  have hquotient : b.toNat / 2 ^ 63 = 1 ↔ c.toNat / 2 ^ 63 = 1 := by
    unfold negative at hsign
    simp only [twoTo_eq] at hsign
    rw [← beq_iff_eq, hsign, beq_iff_eq]
  have hbits : b.toNat = c.toNat := by
    unfold magnitude at h
    dsimp only at h
    omega
  rw [UInt64.toNat_inj.mp hbits]

/-! ## The numbers that round to a magnitude -/

/-- How many of the least quarters a quarter of the last place of a magnitude is. -/
def unit (m : Nat) : Nat := 2 ^ (max (m / 2 ^ 52) 1 - 1)

/-- The significand of a magnitude. -/
def places (m : Nat) : Nat := if m / 2 ^ 52 = 0 then m % 2 ^ 52 else 2 ^ 52 + m % 2 ^ 52

/-- The lower end of the numbers that round to a magnitude, in the least quarters. -/
def lowEnd (m : Nat) : Nat :=
  (if m % 2 ^ 52 = 0 ∧ 1 < m / 2 ^ 52 then 4 * places m - 1 else 4 * places m - 2) * unit m

/-- The upper end of the numbers that round to a magnitude, in the least quarters. -/
def highEnd (m : Nat) : Nat := (4 * places m + 2) * unit m

theorem unit_pos (m : Nat) : 0 < unit m := Nat.two_pow_pos _

theorem lowEnd_lt_highEnd (m : Nat) : lowEnd m < highEnd m := by
  unfold lowEnd highEnd
  refine Nat.mul_lt_mul_of_pos_right ?_ (unit_pos m)
  split <;> omega

/-- **One magnitude starts where the one before it ends.** -/
theorem lowEnd_succ (m : Nat) : lowEnd (m + 1) = highEnd m := by
  by_cases hlast : m % 2 ^ 52 + 1 = 2 ^ 52
  · -- the next power of two
    have hexponent : (m + 1) / 2 ^ 52 = m / 2 ^ 52 + 1 := by omega
    have hfraction : (m + 1) % 2 ^ 52 = 0 := by omega
    unfold lowEnd highEnd places unit
    rw [hexponent, hfraction]
    by_cases hzero : m / 2 ^ 52 = 0
    · rw [hzero, if_neg (by omega), if_neg (by omega), if_pos rfl]
      have hunit : 2 ^ (max (0 + 1) 1 - 1) = 2 ^ (max 0 1 - 1) := rfl
      rw [hunit]
      congr 1
      omega
    · have hunit : 2 ^ (max (m / 2 ^ 52 + 1) 1 - 1) = 2 * 2 ^ (max (m / 2 ^ 52) 1 - 1) := by
        have hexp : max (m / 2 ^ 52 + 1) 1 - 1 = (max (m / 2 ^ 52) 1 - 1) + 1 := by omega
        rw [hexp]
        exact Nat.pow_succ'
      rw [if_pos ⟨rfl, by omega⟩, if_neg (by omega), if_neg hzero, hunit, ← Nat.mul_assoc]
      congr 1
      omega
  · have hexponent : (m + 1) / 2 ^ 52 = m / 2 ^ 52 := by omega
    have hfraction : (m + 1) % 2 ^ 52 = m % 2 ^ 52 + 1 := by omega
    unfold lowEnd highEnd places unit
    rw [hexponent, hfraction, if_neg (by omega)]
    congr 1
    split <;> omega

theorem highEnd_le_lowEnd {m n : Nat} (h : m < n) : highEnd m ≤ lowEnd n := by
  induction h with
  | refl => exact le_of_eq (lowEnd_succ m).symm
  | @step n _ ih =>
    rw [lowEnd_succ]
    exact ih.trans (lowEnd_lt_highEnd n).le

/-- A number rounds to a magnitude; the ends belong to an even one. The number is given in the least
quarters. -/
structure RoundsTo (q : ℚ) (m : Nat) : Prop where
  low : (lowEnd m : ℚ) ≤ q
  high : q ≤ highEnd m
  odd : m % 2 = 1 → (lowEnd m : ℚ) < q ∧ q < highEnd m

/-- **A number rounds to one magnitude.** -/
theorem RoundsTo.unique {m n : Nat} (hm : RoundsTo q m) (hn : RoundsTo q n) : m = n := by
  have hlt : ∀ {m n : Nat}, RoundsTo q m → RoundsTo q n → ¬ m < n := by
    intro m n hm hn h
    have hbetween : (highEnd m : ℚ) ≤ lowEnd n := by exact_mod_cast highEnd_le_lowEnd h
    have hends : highEnd m = lowEnd n := by
      exact_mod_cast le_antisymm hbetween (hn.low.trans hm.high)
    have hq : q = highEnd m := le_antisymm hm.high (by rw [hends]; exact hn.low)
    -- there is no magnitude between them, so one of them is odd and has no ends
    have hnext : n = m + 1 := by
      by_contra hne
      have hfar := highEnd_le_lowEnd (show m + 1 < n by omega)
      have hnear := lowEnd_lt_highEnd (m + 1)
      rw [lowEnd_succ] at hnear
      omega
    rcases Nat.mod_two_eq_zero_or_one m with heven | hodd
    · have hless := (hn.odd (by omega)).1
      rw [← hends, hq] at hless
      exact lt_irrefl _ hless
    · have hless := (hm.odd hodd).2
      rw [hq] at hless
      exact lt_irrefl _ hless
  exact le_antisymm (not_lt.mp (hlt hn hm)) (not_lt.mp (hlt hm hn))

/-! ## Decimals that read back -/

variable {c : Nat} {k : Int}

/-- A power as a quotient of natural numbers. -/
theorem zpow_eq_div (b : Nat) (e : Int) :
    (b : ℚ) ^ e = (b ^ e.toNat : Nat) / (b ^ (-e).toNat : Nat) := by
  obtain ⟨n, rfl | rfl⟩ := e.eq_nat_or_neg
  · have hneg : (-(n : Int)).toNat = 0 := by omega
    rw [Int.toNat_natCast, hneg, zpow_natCast]
    simp
  · have hneg : (-(n : Int)).toNat = 0 := by omega
    rw [hneg, neg_neg, Int.toNat_natCast, zpow_neg, zpow_natCast]
    simp

/-- Natural numbers are compared like the quotients that they have over one denominator. -/
theorem compare_natCast {a b : Nat} {r s d : ℚ} (hd : 0 < d) (ha : (a : ℚ) = r * d)
    (hb : (b : ℚ) = s * d) : compare a b = compare r s := by
  rcases lt_trichotomy r s with h | rfl | h
  · have hlt : (a : ℚ) < b := by
      rw [ha, hb]
      exact mul_lt_mul_of_pos_right h hd
    rw [compare_lt_iff_lt.mpr h, compare_lt_iff_lt]
    exact_mod_cast hlt
  · have heq : (a : ℚ) = b := ha.trans hb.symm
    rw [compare_eq_iff_eq.mpr rfl, compare_eq_iff_eq]
    exact_mod_cast heq
  · have hgt : (b : ℚ) < a := by
      rw [ha, hb]
      exact mul_lt_mul_of_pos_right h hd
    rw [compare_gt_iff_gt.mpr h, compare_gt_iff_gt]
    exact_mod_cast hgt

/-- A scaled decimal and a scaled word are compared as the numbers that they are. -/
theorem compareScaled_eq (c : Nat) (k : Int) (v : Nat) (e : Int) :
    compareScaled c k v e = compare ((c : ℚ) * 10 ^ k) (v * 2 ^ e) := by
  have hten : ((10 ^ (-k).toNat : Nat) : ℚ) ≠ 0 := by positivity
  have htwo : ((2 ^ (-e).toNat : Nat) : ℚ) ≠ 0 := by positivity
  have hk : (10 : ℚ) ^ k = (10 ^ k.toNat : Nat) / (10 ^ (-k).toNat : Nat) := zpow_eq_div 10 k
  have he : (2 : ℚ) ^ e = (2 ^ e.toNat : Nat) / (2 ^ (-e).toNat : Nat) := zpow_eq_div 2 e
  have hpos : (0 : ℚ) < (10 ^ (-k).toNat : Nat) * (2 ^ (-e).toNat : Nat) := by positivity
  refine compare_natCast hpos ?_ ?_
  · change ((c * 10 ^ k.toNat * 2 ^ (-e).toNat : Nat) : ℚ) = _
    rw [hk, Nat.cast_mul, Nat.cast_mul]
    field_simp
  · change ((v * 2 ^ e.toNat * 10 ^ (-k).toNat : Nat) : ℚ) = _
    rw [he, Nat.cast_mul, Nat.cast_mul]
    field_simp

/-- The number of least quarters in a unit. -/
def quarters : ℚ := 2 ^ 1076

theorem significand_eq (x : Double) : x.significand = places x.magnitude := by
  unfold significand places
  rw [exponentField_eq, fraction_eq, twoTo_eq]

/-- A quarter of the last place of a word, in the least quarters. -/
theorem zpow_exponent (x : Double) : (2 : ℚ) ^ (x.exponent - 2) * quarters = unit x.magnitude := by
  have hexp : x.exponent - 2 + 1076 = ((max (x.magnitude / 2 ^ 52) 1 - 1 : Nat) : Int) := by
    unfold exponent
    rw [exponentField_eq]
    omega
  have hquarters : quarters = (2 : ℚ) ^ (1076 : Int) := rfl
  rw [hquarters, ← zpow_add₀ (by norm_num), hexp, zpow_natCast, unit, Nat.cast_pow, Nat.cast_ofNat]

theorem lowEnd_eq (x : Double) :
    (lowEnd x.magnitude : ℚ) = x.lowerQuarters * 2 ^ (x.exponent - 2) * quarters := by
  rw [mul_assoc, zpow_exponent, lowEnd, lowerQuarters, exponentField_eq, fraction_eq,
    significand_eq, Nat.cast_mul]

theorem highEnd_eq (x : Double) :
    (highEnd x.magnitude : ℚ) = x.upperQuarters * 2 ^ (x.exponent - 2) * quarters := by
  rw [mul_assoc, zpow_exponent, highEnd, upperQuarters, significand_eq, Nat.cast_mul]

/-- **A decimal that reads back rounds to the word.** -/
theorem roundsTo_of_readsBack (h : x.readsBack c k = true) :
    RoundsTo (c * 10 ^ k * quarters) x.magnitude := by
  unfold readsBack at h
  simp only [compareScaled_eq] at h
  have hquarters : 0 < quarters := by unfold quarters; positivity
  have heven : x.significand % 2 = x.magnitude % 2 := by
    rw [significand_eq]
    unfold places
    split <;> omega
  rw [Bool.and_eq_true, Bool.or_eq_true, Bool.or_eq_true, Bool.and_eq_true, Bool.and_eq_true,
    beq_iff_eq, beq_iff_eq, beq_iff_eq, beq_iff_eq, beq_iff_eq, compare_gt_iff_gt, compare_lt_iff_lt,
    compare_eq_iff_eq, compare_eq_iff_eq, heven] at h
  obtain ⟨hlow, hhigh⟩ := h
  have hmul : ∀ {r s : ℚ}, r < s → r * quarters < s * quarters :=
    fun hrs => mul_lt_mul_of_pos_right hrs hquarters
  refine ⟨?_, ?_, fun hodd => ⟨?_, ?_⟩⟩
  · rw [lowEnd_eq]
    rcases hlow with hlow | ⟨-, hlow⟩
    · exact (hmul hlow).le
    · exact le_of_eq (by rw [hlow])
  · rw [highEnd_eq]
    rcases hhigh with hhigh | ⟨-, hhigh⟩
    · exact (hmul hhigh).le
    · exact le_of_eq (by rw [hhigh])
  · rw [lowEnd_eq]
    exact hmul (hlow.resolve_right fun heven => by omega)
  · rw [highEnd_eq]
    exact hmul (hhigh.resolve_right fun heven => by omega)

/-- What is found on a grid reads back. -/
theorem readsBack_of_onGrid? {k' : Int} (h : x.onGrid? k = some (c, k')) :
    x.readsBack c k' = true := by
  unfold onGrid? at h
  dsimp only at h
  split at h
  · next hfloor hceiling =>
    split at h
    · obtain ⟨rfl, rfl⟩ := Prod.mk.inj (Option.some.inj h)
      exact hfloor
    · obtain ⟨rfl, rfl⟩ := Prod.mk.inj (Option.some.inj h)
      exact hceiling
  · next hfloor _ =>
    obtain ⟨rfl, rfl⟩ := Prod.mk.inj (Option.some.inj h)
    exact hfloor
  · next _ hceiling =>
    obtain ⟨rfl, rfl⟩ := Prod.mk.inj (Option.some.inj h)
    exact hceiling
  · exact nomatch h

/-- The number that a finite word is. -/
theorem numerator_div_denominator (x : Double) :
    (x.numerator : ℚ) / x.denominator = x.significand * 2 ^ x.exponent := by
  have hexp : (2 : ℚ) ^ x.exponent =
      (2 ^ x.exponent.toNat : Nat) / (2 ^ (-x.exponent).toNat : Nat) := zpow_eq_div 2 x.exponent
  rw [hexp, numerator, denominator, twoTo_eq, twoTo_eq, Nat.cast_mul, mul_div_assoc]

/-- A word itself, in the least quarters. -/
theorem numerator_quarters (x : Double) :
    (x.numerator : ℚ) / x.denominator * quarters =
      (4 * places x.magnitude * unit x.magnitude : Nat) := by
  have hfour : (2 : ℚ) ^ x.exponent = 4 * 2 ^ (x.exponent - 2) := by
    rw [zpow_sub₀ (by norm_num)]
    field_simp
    norm_num
  rw [numerator_div_denominator, hfour, Nat.cast_mul, Nat.cast_mul, ← significand_eq, ← zpow_exponent]
  push_cast
  ring

/-- A word that is not zero rounds to itself. -/
theorem roundsTo_self (h : x.significand ≠ 0) :
    RoundsTo ((x.numerator : ℚ) / x.denominator * quarters) x.magnitude := by
  have hpos : 0 < places x.magnitude := by rw [← significand_eq]; exact Nat.pos_of_ne_zero h
  have hlow : lowEnd x.magnitude < 4 * places x.magnitude * unit x.magnitude := by
    refine Nat.mul_lt_mul_of_pos_right ?_ (unit_pos _)
    split <;> omega
  have hhigh : 4 * places x.magnitude * unit x.magnitude < highEnd x.magnitude :=
    Nat.mul_lt_mul_of_pos_right (by omega) (unit_pos _)
  rw [numerator_quarters]
  exact ⟨by exact_mod_cast hlow.le, by exact_mod_cast hhigh.le,
    fun _ => ⟨by exact_mod_cast hlow, by exact_mod_cast hhigh⟩⟩

/-- **The decimal that is written for a word rounds to it.** -/
theorem roundsTo_shortest (h : x.significand ≠ 0) :
    RoundsTo (x.shortest.1 * 10 ^ x.shortest.2 * quarters) x.magnitude := by
  unfold shortest
  cases hfound : (List.range 18).findSome? fun (i : Nat) => x.onGrid? (x.decimalMagnitude - i) with
  | some p =>
    obtain ⟨i, -, hi⟩ := List.exists_of_findSome?_eq_some hfound
    exact roundsTo_of_readsBack (readsBack_of_onGrid? hi)
  | none =>
    -- the exact value stands behind all grids
    have hexact : ((x.numerator * Nat.pow 5 (-x.exponent).toNat : Nat) : ℚ) *
        10 ^ (-((-x.exponent).toNat : Int)) = (x.numerator : ℚ) / x.denominator := by
      have hten : (10 : ℚ) ^ (-x.exponent).toNat =
          5 ^ (-x.exponent).toNat * 2 ^ (-x.exponent).toNat := by
        rw [← mul_pow]
        norm_num
      have hden : (x.denominator : ℚ) = 2 ^ (-x.exponent).toNat := by
        rw [denominator, twoTo_eq, Nat.cast_pow, Nat.cast_ofNat]
      rw [zpow_neg, zpow_natCast, hten, hden, Nat.cast_mul]
      change (x.numerator : ℚ) * ((5 ^ (-x.exponent).toNat : Nat) : ℚ) * _ = _
      rw [Nat.cast_pow, Nat.cast_ofNat]
      field_simp
    rw [Option.getD_none, hexact]
    exact roundsTo_self h

/-! ## Texts that read as the decimal -/

/-- Digits without a point are read up to the exponent. -/
theorem readMagnitude_digits_append {ds e : List Char} (hds : ∀ d ∈ ds, d.isDigit = true)
    (hne : ds ≠ []) (he : ∀ c ∈ e.head?, c.isDigit = false ∧ c ≠ '.') :
    readMagnitude (ds ++ e) = (readExponent e).map fun k => (digitsValue 0 ds, k) := by
  have htake : takeDigits none (ds ++ e) = (ds, e) :=
    takeDigits_of_append hds fun c hc => (he c hc).1
  have hempty : ds.isEmpty = false := List.isEmpty_eq_false_iff.mpr hne
  unfold readMagnitude
  rw [htake]
  dsimp only
  split
  · exact absurd rfl (he '.' rfl).2
  · simp [hempty]

/-- Digits with a point among them are read without it, scaled by the places after it. -/
theorem readMagnitude_point_append {ds places e : List Char} (hds : ∀ d ∈ ds, d.isDigit = true)
    (hplaces : ∀ d ∈ places, d.isDigit = true) (hne : ds ≠ [] ∨ places ≠ [])
    (he : ∀ c ∈ e.head?, c.isDigit = false) :
    readMagnitude (ds ++ '.' :: (places ++ e)) =
      (readExponent e).map fun k => (digitsValue 0 (ds ++ places), k - (places.length : Int)) := by
  have hwhole : takeDigits none (ds ++ '.' :: (places ++ e)) = (ds, '.' :: (places ++ e)) :=
    takeDigits_of_append hds (by simp)
  have hrest : takeDigits none (places ++ e) = (places, e) := takeDigits_of_append hplaces he
  unfold readMagnitude
  simp [hwhole, hrest, imp_iff_not_or, hne]

/-- Digits without a point are read as they are. -/
theorem readMagnitude_digits {ds : List Char} (hds : ∀ d ∈ ds, d.isDigit = true) (hne : ds ≠ []) :
    readMagnitude ds = some (digitsValue 0 ds, 0) := by
  have h := readMagnitude_digits_append hds hne (e := []) (by simp)
  rwa [List.append_nil] at h

/-- Digits with a point and without an exponent. -/
theorem readMagnitude_point {ds places : List Char} (hds : ∀ d ∈ ds, d.isDigit = true)
    (hplaces : ∀ d ∈ places, d.isDigit = true) (hne : places ≠ []) :
    readMagnitude (ds ++ '.' :: places) =
      some (digitsValue 0 (ds ++ places), -(places.length : Int)) := by
  have h := readMagnitude_point_append hds hplaces (.inr hne) (e := []) (by simp)
  rw [List.append_nil] at h
  rw [h, ← Int.zero_sub]
  rfl

/-- A text is one without zeros at its end and the zeros. -/
theorem exists_zeros (l : List Char) :
    ∃ n, l = (l.reverse.dropWhile (· == '0')).reverse ++ List.replicate n '0' := by
  have hzeros : l.reverse.takeWhile (· == '0') =
      List.replicate (l.reverse.takeWhile (· == '0')).length '0' := by
    refine List.eq_replicate_of_mem fun d hd => ?_
    have hzero : (d == '0') = true := List.mem_takeWhile_imp (p := (· == '0')) hd
    exact beq_iff_eq.mp hzero
  refine ⟨(l.reverse.takeWhile (· == '0')).length, ?_⟩
  conv_lhs => rw [← List.reverse_reverse l, ← List.takeWhile_append_dropWhile (p := (· == '0'))
    (l := l.reverse), List.reverse_append, hzeros, List.reverse_replicate]

/-- A decimal with places is written as the digits before them and the places, without the zeros at
the end. -/
theorem positional_places (c : Nat) {n : Nat} (hn : 0 < n) :
    ∃ whole places zeros, padDigits (n + 1) c = whole ++ (places ++ List.replicate zeros '0') ∧
      whole ≠ [] ∧ places.length + zeros = n ∧
      positional c (-(n : Int)) = if places.isEmpty then whole else whole ++ '.' :: places := by
  obtain ⟨ds, hds⟩ : ∃ ds, padDigits (n + 1) c = ds := ⟨_, rfl⟩
  have hlength : n + 1 ≤ ds.length := hds ▸ length_padDigits (n + 1) c
  obtain ⟨zeros, hzeros⟩ := exists_zeros (ds.drop (ds.length - n))
  refine ⟨ds.take (ds.length - n), ((ds.drop (ds.length - n)).reverse.dropWhile (· == '0')).reverse,
    zeros, ?_, ?_, ?_, ?_⟩
  · rw [hds, ← hzeros, List.take_append_drop]
  · refine List.ne_nil_of_length_pos ?_
    rw [List.length_take]
    omega
  · have hplaces := congrArg List.length hzeros
    rw [List.length_drop, List.length_append, List.length_replicate] at hplaces
    omega
  · have hnat : (- -(n : Int)).toNat = n := by omega
    unfold positional
    rw [if_neg (by omega), hnat, hds]

/-- Without its zeros the number is that much smaller, and the scale that much larger. -/
theorem digitsValue_scaled {c n zeros : Nat} {whole places : List Char}
    (h : padDigits (n + 1) c = whole ++ (places ++ List.replicate zeros '0'))
    (hn : places.length + zeros = n) :
    (digitsValue 0 (whole ++ places) : ℚ) * 10 ^ (-(places.length : Int)) =
      c * 10 ^ (-(n : Int)) := by
  have hc : c = digitsValue 0 (whole ++ places) * tenTo zeros := by
    conv_lhs => rw [← digitsValue_padDigits (n + 1) c, h, ← List.append_assoc, digitsValue_append,
      digitsValue_zeros, List.length_replicate, Nat.add_zero]
  have htenTo : ((tenTo zeros : Nat) : ℚ) = 10 ^ (zeros : Int) := by
    rw [zpow_natCast]
    exact Nat.cast_pow 10 zeros
  have hexp : -(places.length : Int) = zeros + -(n : Int) := by omega
  rw [hc, Nat.cast_mul, htenTo, mul_assoc, ← zpow_add₀ (by norm_num), ← hexp]

/-- **A decimal that is written positionally is read as the number that it is.** -/
theorem readMagnitude_positional (c : Nat) (k : Int) :
    ∃ p, readMagnitude (positional c k) = some p ∧ (p.1 : ℚ) * 10 ^ p.2 = c * 10 ^ k := by
  by_cases hk : 0 ≤ k
  · have htext : positional c k = natDigits (c * tenTo k.toNat) := if_pos hk
    rw [htext]
    refine ⟨_, readMagnitude_digits (fun d => isDigit_natDigits) (natDigits_ne_nil _), ?_⟩
    obtain ⟨n, rfl⟩ := Int.eq_ofNat_of_zero_le hk
    rw [digitsValue_natDigits, zpow_zero, mul_one, Int.toNat_natCast, zpow_natCast, Nat.cast_mul]
    congr 1
    exact Nat.cast_pow 10 n
  · obtain ⟨n, rfl⟩ : ∃ n : Nat, k = -(n : Int) := ⟨k.natAbs, by omega⟩
    obtain ⟨whole, places, zeros, hds, hne, hn, htext⟩ := positional_places c (show 0 < n by omega)
    have hscaled := digitsValue_scaled hds hn
    have hdigits : ∀ d ∈ whole ++ (places ++ List.replicate zeros '0'), d.isDigit = true :=
      fun d hd => isDigit_padDigits (hds ▸ hd)
    have hwhole : ∀ d ∈ whole, d.isDigit = true := fun d hd =>
      hdigits d (List.mem_append_left _ hd)
    have hplaces : ∀ d ∈ places, d.isDigit = true := fun d hd =>
      hdigits d (List.mem_append_right _ (List.mem_append_left _ hd))
    rw [htext]
    split
    · next hempty =>
      obtain rfl := List.isEmpty_iff.mp hempty
      refine ⟨_, readMagnitude_digits hwhole hne, ?_⟩
      rwa [List.append_nil] at hscaled
    · next hempty =>
      have hplacesne : places ≠ [] := by simpa using hempty
      exact ⟨_, readMagnitude_point hwhole hplaces hplacesne, hscaled⟩

/-! ## Texts of words -/

/-- The text of a word without its sign. -/
def unsignedChars (x : Double) : List Char :=
  if x.isInfinite then ['i', 'n', 'f']
  else if x.significand = 0 then ['0']
  else positional x.shortest.1 x.shortest.2

theorem toChars_eq (h : x.isNaN = false) :
    x.toChars = (if x.negative then ['-'] else []) ++ x.unsignedChars := by
  unfold toChars
  rw [h, if_neg Bool.false_ne_true]
  rfl

/-- No magnitude starts with anything but a digit or a point. -/
theorem readMagnitude_of_not_isDigit {d : Char} (hd : d.isDigit = false) (hpoint : d ≠ '.')
    (r : List Char) : readMagnitude (d :: r) = none := by
  have hnone : ∀ e ∈ ([] : List Char), e.isDigit = true := nofun
  have htake : takeDigits none (d :: r) = ([], d :: r) :=
    takeDigits_of_append hnone (by simpa using hd)
  unfold readMagnitude
  rw [htake]
  dsimp only
  split
  · next heq => exact absurd (List.cons.inj heq).1 hpoint
  · rfl

/-- **The text of a finite word reads as a number that rounds to it.** -/
theorem readMagnitude_unsignedChars (h : x.isInfinite = false) :
    ∃ p, readMagnitude x.unsignedChars = some p ∧
      RoundsTo ((p.1 : ℚ) * 10 ^ p.2 * quarters) x.magnitude := by
  unfold unsignedChars
  rw [h, if_neg Bool.false_ne_true]
  split
  · next hzero =>
    have hmagnitude : x.magnitude = 0 := by
      rw [significand_eq] at hzero
      unfold places at hzero
      split at hzero <;> omega
    refine ⟨(0, 0), by decide, ?_⟩
    rw [hmagnitude]
    refine ⟨?_, ?_, nofun⟩
    · simp [lowEnd, places]
    · rw [Nat.cast_zero, zero_mul, zero_mul]
      exact Nat.cast_nonneg _
  · next hpositive =>
    obtain ⟨p, hp, hvalue⟩ := readMagnitude_positional x.shortest.1 x.shortest.2
    refine ⟨p, hp, ?_⟩
    rw [hvalue]
    exact roundsTo_shortest hpositive

/-- The text without a sign starts with a digit, a point or the letter of infinity. -/
theorem unsignedChars_ne {d : Char} (hd : d.isDigit = false) (hpoint : d ≠ '.') (hletter : d ≠ 'i')
    (x : Double) (r : List Char) : x.unsignedChars ≠ d :: r := by
  intro heq
  cases h : x.isInfinite with
  | true =>
    have htext : x.unsignedChars = ['i', 'n', 'f'] := if_pos h
    rw [htext] at heq
    exact hletter (List.cons.inj heq).1.symm
  | false =>
    obtain ⟨p, hp, -⟩ := readMagnitude_unsignedChars h
    rw [heq, readMagnitude_of_not_isDigit hd hpoint] at hp
    exact nomatch hp

theorem magnitude_of_isInfinite (h : x.isInfinite = true) : x.magnitude = 2047 * 2 ^ 52 := by
  unfold isInfinite at h
  rw [Bool.and_eq_true, beq_iff_eq, beq_iff_eq, exponentField_eq, fraction_eq] at h
  omega

/-- The texts without a sign tell magnitudes apart. -/
theorem magnitude_of_unsignedChars (h : x.unsignedChars = y.unsignedChars) :
    x.magnitude = y.magnitude := by
  have hinfinite : ∀ {x y : Double}, x.unsignedChars = y.unsignedChars → x.isInfinite = true →
      y.isInfinite = true := by
    intro x y h hx
    by_contra hy
    obtain ⟨p, hp, -⟩ := readMagnitude_unsignedChars (Bool.eq_false_of_not_eq_true hy)
    have htext : x.unsignedChars = ['i', 'n', 'f'] := if_pos hx
    rw [← h, htext, readMagnitude_of_not_isDigit (by decide) (by decide)] at hp
    exact nomatch hp
  cases hx : x.isInfinite with
  | true => rw [magnitude_of_isInfinite hx, magnitude_of_isInfinite (hinfinite h hx)]
  | false =>
    have hy : y.isInfinite = false := by
      by_contra hy
      rw [hinfinite h.symm (Bool.eq_true_of_not_eq_false hy)] at hx
      exact nomatch hx
    obtain ⟨p, hp, hpx⟩ := readMagnitude_unsignedChars hx
    obtain ⟨p', hp', hpy⟩ := readMagnitude_unsignedChars hy
    obtain rfl := Option.some.inj (hp.symm.trans (h ▸ hp'))
    exact hpx.unique hpy

/-- The text of a number is not that of a word that stands for none. -/
theorem toChars_ne_of_isNaN (hx : x.isNaN = true) (hy : y.isNaN = false) :
    x.toChars ≠ y.toChars := by
  have hnan : x.toChars = ['N', 'a', 'N'] := if_pos hx
  rw [hnan, toChars_eq hy]
  split
  · exact fun heq => absurd (List.cons.inj heq).1 (by decide)
  · exact fun heq => unsignedChars_ne (by decide) (by decide) (by decide) y _ heq.symm

/-- Numbers are told apart by their texts. -/
theorem eq_of_toChars (hx : x.isNaN = false) (hy : y.isNaN = false) (h : x.toChars = y.toChars) :
    x = y := by
  rw [toChars_eq hx, toChars_eq hy] at h
  have hsign : ∀ (z : Double) (r : List Char), z.unsignedChars ≠ '-' :: r :=
    unsignedChars_ne (by decide) (by decide) (by decide)
  cases hxs : x.negative <;> cases hys : y.negative
  · rw [hxs, hys] at h
    exact eq_of_magnitude (hxs.trans hys.symm) (magnitude_of_unsignedChars h)
  · rw [hxs, hys] at h
    exact absurd h (hsign x _)
  · rw [hxs, hys] at h
    exact absurd h.symm (hsign y _)
  · rw [hxs, hys] at h
    exact eq_of_magnitude (hxs.trans hys.symm) (magnitude_of_unsignedChars (List.cons.inj h).2)

/-- **Floats are told apart by their texts**, all but those that are no numbers. -/
theorem text_eq_iff : x.text = y.text ↔ x = y ∨ x.isNaN = true ∧ y.isNaN = true := by
  unfold text
  rw [String.ofList_inj]
  constructor
  · intro h
    cases hx : x.isNaN <;> cases hy : y.isNaN
    · exact .inl (eq_of_toChars hx hy h)
    · exact absurd h.symm (toChars_ne_of_isNaN hy hx)
    · exact absurd h (toChars_ne_of_isNaN hx hy)
    · exact .inr ⟨rfl, rfl⟩
  · have hnan : ∀ z : Double, z.isNaN = true → z.toChars = ['N', 'a', 'N'] := fun z hz => if_pos hz
    rintro (rfl | ⟨hx, hy⟩)
    · rfl
    · rw [hnan x hx, hnan y hy]

end EntityMapper.Double
