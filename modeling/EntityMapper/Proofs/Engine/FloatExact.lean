import EntityMapper.Proofs.Text.FloatText

/-!
# Numbers of the format are rounded to themselves

A quotient that is a float is rounded to that float, so an integer that a float is gives the float
back. An integer past 64 bits with a sign is rounded to a float past them.

* `ofRatio_eq` — a quotient that is a word is rounded to it
* `ofInt_of_toInt?` — an integer that a word is gives the word back
* `toInt?_ofInt_wide` — an unsigned 64-bit integer too large for a signed one stays too large
-/

namespace EntityMapper

open Double (twoTo_eq zpow_eq_div)

/-! ## The leading digit -/

variable {num den : Nat}

/-- The leading exponent of a quotient is that of the greatest power of two that is not above it. -/
theorem leadingExponent_spec (hnum : 0 < num) (hden : 0 < den) :
    (2 : ℚ) ^ leadingExponent num den ≤ num / den ∧
      (num : ℚ) / den < 2 ^ (leadingExponent num den + 1) := by
  have hden' : (0 : ℚ) < den := by exact_mod_cast hden
  have hnumlow : (2 : ℚ) ^ num.log2 ≤ num := by exact_mod_cast Nat.log2_self_le hnum.ne'
  have hnumhigh : (num : ℚ) < 2 ^ (num.log2 + 1) := by exact_mod_cast Nat.lt_log2_self
  have hdenlow : (2 : ℚ) ^ den.log2 ≤ den := by exact_mod_cast Nat.log2_self_le hden.ne'
  have hdenhigh : (den : ℚ) < 2 ^ (den.log2 + 1) := by exact_mod_cast Nat.lt_log2_self
  obtain ⟨e, he⟩ : ∃ e : Int, (num.log2 : Int) - den.log2 = e := ⟨_, rfl⟩
  -- the logarithms leave two exponents, and the comparison tells them apart
  have hlow : (2 : ℚ) ^ (e - 1) ≤ num / den := by
    have hexp : (2 : ℚ) ^ (e - 1) = 2 ^ num.log2 / 2 ^ (den.log2 + 1) := by
      rw [← zpow_natCast, ← zpow_natCast, ← zpow_sub₀ (by norm_num)]
      congr 1
      push_cast
      omega
    rw [hexp]
    exact div_le_div₀ (by positivity) hnumlow hden' hdenhigh.le
  have hhigh : (num : ℚ) / den < 2 ^ (e + 1) := by
    have hexp : (2 : ℚ) ^ (e + 1) = 2 ^ (num.log2 + 1) / 2 ^ den.log2 := by
      rw [← zpow_natCast, ← zpow_natCast, ← zpow_sub₀ (by norm_num)]
      congr 1
      push_cast
      omega
    rw [hexp]
    exact div_lt_div₀ hnumhigh hdenlow (by positivity) (by positivity)
  have hcompare : den * twoTo e.toNat ≤ num * twoTo (-e).toNat ↔ (2 : ℚ) ^ e ≤ num / den := by
    have htwo : (0 : ℚ) < (2 ^ (-e).toNat : Nat) := by positivity
    have hpow : (2 : ℚ) ^ e = (2 ^ e.toNat : Nat) / (2 ^ (-e).toNat : Nat) := zpow_eq_div 2 e
    rw [hpow, div_le_div_iff₀ htwo hden', twoTo_eq, twoTo_eq, mul_comm den]
    exact_mod_cast Iff.rfl
  unfold leadingExponent
  dsimp only
  rw [he]
  split
  · next h => exact ⟨hcompare.mp h, hhigh⟩
  · next h =>
    rw [hcompare, not_le] at h
    rw [Int.sub_add_cancel]
    exact ⟨hlow, h⟩

/-- Powers of two below a quotient are below its leading exponent. -/
theorem leadingExponent_lt {e : Int} (hnum : 0 < num) (hden : 0 < den)
    (h : (num : ℚ) / den < 2 ^ e) : leadingExponent num den < e := by
  have hspec := (leadingExponent_spec hnum hden).1.trans_lt h
  exact (zpow_lt_zpow_iff_right₀ (by norm_num)).mp hspec

theorem le_leadingExponent {e : Int} (hnum : 0 < num) (hden : 0 < den)
    (h : (2 : ℚ) ^ e ≤ num / den) : e ≤ leadingExponent num den := by
  have hspec := h.trans_lt (leadingExponent_spec hnum hden).2
  have hlt := (zpow_lt_zpow_iff_right₀ (by norm_num)).mp hspec
  omega

namespace Double

variable {x : Double} {n : Int}

/-! ## Words of a sign and a magnitude -/

theorem magnitude_ofMagnitude (negative : Bool) {m : Nat} (h : m < 2 ^ 63) :
    (ofMagnitude negative m).magnitude = m := by
  unfold ofMagnitude magnitude
  dsimp only
  rw [UInt64.toNat_ofNat', twoTo_eq]
  cases negative <;> simp <;> omega

theorem negative_ofMagnitude (negative : Bool) {m : Nat} (h : m < 2 ^ 63) :
    (ofMagnitude negative m).negative = negative := by
  unfold ofMagnitude Double.negative
  dsimp only
  rw [UInt64.toNat_ofNat', twoTo_eq]
  cases negative <;> simp <;> omega

theorem magnitude_lt_of_isFinite (h : x.isFinite = true) : x.magnitude < 2047 * 2 ^ 52 := by
  unfold isFinite at h
  rw [decide_eq_true_eq, exponentField_eq] at h
  omega

/-! ## Exact quotients -/

/-- The exponent that a quotient is rounded at is that of the word that it is. -/
theorem round_exponent (hnum : 0 < num) (hden : 0 < den)
    (h : (num : ℚ) / den = x.numerator / x.denominator) :
    max (leadingExponent num den - (53 - 1 : Nat)) (-1074) = x.exponent := by
  have hvalue : (num : ℚ) / den = x.significand * 2 ^ x.exponent :=
    h.trans (numerator_div_denominator x)
  have hpos : (0 : ℚ) < 2 ^ x.exponent := by positivity
  -- a significand of so many digits moves the leading one that far
  have hbelow : ∀ k : Nat, x.significand < 2 ^ k → leadingExponent num den < k + x.exponent := by
    intro k hk
    refine leadingExponent_lt hnum hden ?_
    rw [hvalue, zpow_add₀ (by norm_num), zpow_natCast]
    exact mul_lt_mul_of_pos_right (by exact_mod_cast hk) hpos
  have hexponent : x.exponent = (max (x.exponentField) 1 : Nat) - 1075 := rfl
  have hfraction := x.fraction_lt
  rw [twoTo_eq] at hfraction
  by_cases hfield : x.exponentField = 0
  · have hsignificand : x.significand = x.fraction := if_pos hfield
    have hlt := hbelow 52 (hsignificand ▸ hfraction)
    omega
  · have hsignificand : x.significand = 2 ^ 52 + x.fraction := if_neg hfield
    have hlt := hbelow 53 (by omega)
    have hle : (52 : Nat) + x.exponent ≤ leadingExponent num den := by
      refine le_leadingExponent hnum hden ?_
      rw [hvalue, zpow_add₀ (by norm_num), zpow_natCast]
      refine mul_le_mul_of_nonneg_right ?_ hpos.le
      rw [hsignificand]
      exact_mod_cast Nat.le_add_right _ _
    omega

/-- Scaled to the exponent of the word, a quotient that is the word is its significand. -/
theorem scaled_eq (hden : 0 < den) (h : (num : ℚ) / den = x.numerator / x.denominator) :
    num * twoTo (-x.exponent).toNat = x.significand * (den * twoTo x.exponent.toNat) := by
  have hden' : (den : ℚ) ≠ 0 := by positivity
  have htwo : ((2 ^ (-x.exponent).toNat : Nat) : ℚ) ≠ 0 := by positivity
  have hpow : (2 : ℚ) ^ x.exponent = (2 ^ x.exponent.toNat : Nat) / (2 ^ (-x.exponent).toNat : Nat) :=
    zpow_eq_div 2 x.exponent
  rw [numerator_div_denominator, hpow, div_eq_iff hden'] at h
  have hcast : (num : ℚ) * (2 ^ (-x.exponent).toNat : Nat) =
      x.significand * (den * (2 ^ x.exponent.toNat : Nat)) := by
    rw [h]
    field_simp
  rw [twoTo_eq, twoTo_eq]
  exact_mod_cast hcast

/-- **A quotient that is a finite word is rounded to it.** -/
theorem ofRatio_eq (hfinite : x.isFinite = true) (hne : x.significand ≠ 0) (hden : 0 < den)
    (h : (num : ℚ) / den = x.numerator / x.denominator) : ofRatio x.negative num den = x := by
  have hscaled := scaled_eq hden h
  have hnum : num ≠ 0 := by
    rintro rfl
    rw [Nat.zero_mul] at hscaled
    exact hne ((Nat.mul_eq_zero.mp hscaled.symm).resolve_right
      (Nat.mul_pos hden (twoTo_pos _)).ne')
  have hround : BinaryFormat.double.round num den = (x.significand, x.exponent) := by
    have hexponent := round_exponent (Nat.pos_of_ne_zero hnum) hden h
    unfold BinaryFormat.round BinaryFormat.double
    dsimp only
    rw [hexponent, hscaled, roundHalfEven_mul _ (Nat.mul_pos hden (twoTo_pos _))]
  have hmagnitude : (x.exponent + 1074).toNat * 2 ^ 52 + x.significand = x.magnitude := by
    rw [significand_eq]
    unfold exponent places
    rw [exponentField_eq]
    split <;> omega
  have hlt := magnitude_lt_of_isFinite hfinite
  unfold ofRatio
  rw [if_neg hnum, hround]
  dsimp only
  rw [twoTo_eq, hmagnitude, if_pos hlt]
  exact eq_of_magnitude (negative_ofMagnitude _ (by omega)) (magnitude_ofMagnitude _ (by omega))

/-! ## Integers -/

/-- The integer that a word is, as a quotient. -/
theorem eq_of_toInt? (h : x.toInt? = some n) :
    x.isFinite = true ∧ n = (if x.negative then -1 else 1) * (n.natAbs : Int) ∧
      x.numerator = n.natAbs * x.denominator := by
  unfold toInt? at h
  split at h
  · next hwhole =>
    rw [Bool.and_eq_true, beq_iff_eq] at hwhole
    have hquotient := Nat.div_mul_cancel (Nat.dvd_of_mod_eq_zero hwhole.2)
    have hn := (Option.some.inj h).symm
    obtain ⟨q, hq⟩ : ∃ q, x.numerator / x.denominator = q := ⟨_, rfl⟩
    rw [hq] at hquotient hn
    have habs : n.natAbs = q := by split at hn <;> omega
    refine ⟨hwhole.1, ?_, by rw [habs, hquotient]⟩
    split at hn
    · next hsign => rw [if_pos hsign]; omega
    · next hsign => rw [if_neg hsign]; omega
  · exact nomatch h

/-- A whole float is zero just if it is one of the two zeros. -/
theorem toInt?_eq_zero : x.toInt? = some 0 ↔ x.isZero = true := by
  have hsignificand : x.isZero = true ↔ x.significand = 0 := by
    unfold isZero significand twoTo
    rw [Bool.and_eq_true, beq_iff_eq, beq_iff_eq]
    split <;> simp_all
  rw [hsignificand]
  constructor
  · intro h
    obtain ⟨-, -, hnumerator⟩ := eq_of_toInt? h
    rw [Int.natAbs_zero, Nat.zero_mul, numerator] at hnumerator
    exact (Nat.mul_eq_zero.mp hnumerator).resolve_right (twoTo_pos _).ne'
  · intro h
    have hfinite : x.isFinite = true := by
      unfold significand twoTo at h
      split at h
      · next hfield => exact decide_eq_true (by omega)
      · simp at h
    have hnumerator : x.numerator = 0 := by rw [numerator, h, Nat.zero_mul]
    unfold toInt?
    rw [hfinite, hnumerator, Nat.zero_mod, Nat.zero_div]
    simp

/-- **An integer that a word is gives the word back**, but for the sign of a zero. -/
theorem ofInt_of_toInt? (h : x.toInt? = some n) (hn : n ≠ 0) : ofInt n = x := by
  obtain ⟨hfinite, hsign, hnumerator⟩ := eq_of_toInt? h
  have hden : (x.denominator : ℚ) ≠ 0 := by exact_mod_cast x.denominator_pos.ne'
  have hnegative : decide (n < 0) = x.negative := by
    split at hsign
    · next hx => rw [hx, decide_eq_true_eq]; omega
    · next hx => rw [Bool.not_eq_true] at hx; rw [hx, decide_eq_false_iff_not]; omega
  have hvalue : (n.natAbs : ℚ) / (1 : Nat) = x.numerator / x.denominator := by
    rw [hnumerator, Nat.cast_mul, mul_div_cancel_right₀ _ hden, Nat.cast_one, div_one]
  have hne : x.significand ≠ 0 := by
    intro hzero
    rw [numerator, hzero, Nat.zero_mul] at hnumerator
    have hpos := Nat.mul_pos (Int.natAbs_pos.mpr hn) x.denominator_pos
    omega
  unfold ofInt
  rw [hnegative]
  exact ofRatio_eq hfinite hne Nat.one_pos hvalue

/-- A word from the first power of two past 64 bits with a sign on is an integer past them. -/
theorem toInt?_of_large (hsign : x.negative = false) (hlow : 1086 * 2 ^ 52 ≤ x.magnitude)
    (hhigh : x.magnitude < 2047 * 2 ^ 52) : ∃ m, x.toInt? = some m ∧ twoTo 63 ≤ m := by
  have hfield : 1086 ≤ x.exponentField ∧ x.exponentField < 2047 := by
    rw [exponentField_eq]
    omega
  have hexponent : 11 ≤ x.exponent := by
    unfold exponent
    omega
  have hdenominator : x.denominator = 1 := by
    have hzero : (-x.exponent).toNat = 0 := by omega
    rw [denominator, hzero]
    rfl
  have hnumerator : 2 ^ 63 ≤ x.numerator := by
    have hsignificand : 2 ^ 52 ≤ x.significand := by
      unfold significand
      rw [if_neg (by omega), twoTo_eq]
      exact Nat.le_add_right _ _
    have hpower : 2 ^ 11 ≤ twoTo x.exponent.toNat :=
      Nat.pow_le_pow_right (by decide) (by omega)
    calc 2 ^ 63 = 2 ^ 52 * 2 ^ 11 := rfl
      _ ≤ x.numerator := Nat.mul_le_mul hsignificand hpower
  have hfinite : x.isFinite = true := decide_eq_true hfield.2
  refine ⟨x.numerator, ?_, ?_⟩
  · unfold toInt?
    rw [hdenominator, hfinite, Nat.mod_one, Nat.div_one, hsign]
    rfl
  · rw [twoTo_eq]
    exact_mod_cast hnumerator

/-- **An unsigned 64-bit integer too large for a signed one is rounded to a float that is too large
for one as well.** -/
theorem toInt?_ofInt_wide (hlow : twoTo 63 ≤ n) (hhigh : n < twoTo 64) :
    ∃ m, (ofInt n).toInt? = some m ∧ twoTo 63 ≤ m := by
  rw [twoTo_eq] at hlow hhigh
  obtain ⟨k, rfl⟩ := Int.eq_ofNat_of_zero_le (show 0 ≤ n by omega)
  have hk : 2 ^ 63 ≤ k ∧ k < 2 ^ 64 := by omega
  have hleading : leadingExponent k 1 = 63 := by
    have hlt : leadingExponent k 1 < 64 := by
      refine leadingExponent_lt (by omega) Nat.one_pos ?_
      rw [Nat.cast_one, div_one]
      exact_mod_cast hk.2
    have hle : 63 ≤ leadingExponent k 1 := by
      refine le_leadingExponent (by omega) Nat.one_pos ?_
      rw [Nat.cast_one, div_one]
      exact_mod_cast hk.1
    omega
  obtain ⟨m, hm⟩ : ∃ m, roundHalfEven k 2048 = m := ⟨_, rfl⟩
  have hround : BinaryFormat.double.round k 1 = (m, 11) := by
    have hexponent : max (63 - ((53 - 1 : Nat) : Int)) (-1074) = 11 := by decide
    have htwo : twoTo (11 : Int).toNat = 2048 ∧ twoTo (-(11 : Int)).toNat = 1 := by decide
    unfold BinaryFormat.round BinaryFormat.double
    dsimp only
    rw [hleading, hexponent, htwo.1, htwo.2, Nat.mul_one, Nat.one_mul, hm]
  have hnear := roundHalfEven_near k (show 0 < 2048 by decide)
  rw [hm] at hnear
  have hword : ofInt k = ofMagnitude false (1085 * 2 ^ 52 + m) := by
    have hsign : decide ((k : Int) < 0) = false := decide_eq_false (by omega)
    unfold ofInt ofRatio
    rw [Int.natAbs_natCast, if_neg (by omega), hround, hsign]
    dsimp only
    rw [twoTo_eq]
    exact if_pos (by omega)
  have hmagnitude : (ofInt k).magnitude = 1085 * 2 ^ 52 + m := by
    rw [hword]
    exact magnitude_ofMagnitude _ (by omega)
  have hsign : (ofInt k).negative = false := by
    rw [hword]
    exact negative_ofMagnitude _ (by omega)
  exact toInt?_of_large hsign (by omega) (by omega)

/-- The decimal of an unsigned 64-bit integer is rounded like the integer. -/
theorem ofDecimal_zero {n : Nat} (h : n < 2 ^ 64) (hn : n ≠ 0) :
    ofDecimal false n 0 = ofInt n := by
  have hlength : (natDigits n).length ≤ 20 :=
    (Nat.length_toDigits_le_iff (by decide) (by decide)).mpr (by omega)
  have hsign : decide ((n : Int) < 0) = false := decide_eq_false (by omega)
  unfold ofDecimal ofInt
  dsimp only
  rw [if_neg hn, if_neg (by omega), if_neg (by omega), hsign, Int.natAbs_natCast]
  simp

end Double

end EntityMapper
