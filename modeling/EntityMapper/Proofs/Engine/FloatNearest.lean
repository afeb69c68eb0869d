import Mathlib.Algebra.Order.Ring.Abs
import Mathlib.Tactic.Linarith
import EntityMapper.Proofs.Engine.FloatExact

/-!
# Rounding goes to the nearest number of the format

A quotient is rounded on the grid of its leading digits. All numbers of the format that are not on
this grid are below it, so none of them is nearer than the point of the grid that is taken.

* `IsNearest` — a number of the format to which no other is nearer to a number
* `isNearest_ofRatio`, `isNearest_ofDecimal` — a quotient and a decimal are rounded to such a number
* `value_of_toInt?` — a whole float is the integer that it is taken for
-/

namespace EntityMapper

open Double (twoTo_eq zpow_eq_div)

/-! ## Quotients and integers -/

/-- No integer is nearer to a quotient than the one that it is rounded to. -/
theorem roundHalfEven_nearest (num : Nat) {den : Nat} (h : 0 < den) (j : Int) :
    |(num : ℚ) / den - roundHalfEven num den| ≤ |(num : ℚ) / den - j| := by
  obtain ⟨m, hm⟩ : ∃ m, roundHalfEven num den = m := ⟨_, rfl⟩
  have hnear := roundHalfEven_near num h
  rw [hm] at hnear ⊢
  by_cases hj : (m : Int) = j
  · rw [← hj, Int.cast_natCast]
  -- the quotient is half a unit away at most, and another integer is a unit away from this one
  have hden : (0 : ℚ) < den := by exact_mod_cast h
  have hbelow : (num : ℚ) / den - m ≤ 1 / 2 := by
    have hcast : (2 * num : ℚ) ≤ 2 * (m * den) + den := by exact_mod_cast hnear.1
    rw [sub_le_iff_le_add, div_le_iff₀ hden]
    linarith
  have habove : m - (num : ℚ) / den ≤ 1 / 2 := by
    have hcast : (2 * (m * den) : ℚ) ≤ 2 * num + den := by exact_mod_cast hnear.2
    rw [sub_le_iff_le_add, ← sub_le_iff_le_add', le_div_iff₀ hden]
    linarith
  have hapart : (1 : ℚ) ≤ |(m : ℚ) - j| := by
    have hint : (1 : Int) ≤ |(m : Int) - j| := Int.one_le_abs (sub_ne_zero.mpr hj)
    exact_mod_cast hint
  calc |(num : ℚ) / den - m| ≤ 1 / 2 := abs_le.mpr ⟨by linarith, hbelow⟩
    _ ≤ |(m : ℚ) - j| - |(m : ℚ) - num / den| := by
      have hhalf : |(m : ℚ) - num / den| ≤ 1 / 2 := abs_le.mpr ⟨by linarith, habove⟩
      linarith
    _ ≤ |(num : ℚ) / den - j| := by
      have htriangle := abs_sub_abs_le_abs_sub ((m : ℚ) - j) (m - num / den)
      rwa [sub_sub_sub_cancel_left] at htriangle

/-- What is at least an integer is not rounded to less. -/
theorem le_roundHalfEven {num den j : Nat} (h : 0 < den) (hj : (j : ℚ) ≤ num / den) :
    j ≤ roundHalfEven num den := by
  by_contra hlt
  have hcast : (roundHalfEven num den : ℚ) + 1 ≤ j := by exact_mod_cast Nat.lt_of_not_le hlt
  have hnearest := roundHalfEven_nearest num h j
  rw [Int.cast_natCast, abs_of_nonneg (by linarith), abs_of_nonneg (by linarith)] at hnearest
  linarith

/-- What is at most an integer is not rounded to more. -/
theorem roundHalfEven_le {num den j : Nat} (h : 0 < den) (hj : (num : ℚ) / den ≤ j) :
    roundHalfEven num den ≤ j := by
  by_contra hlt
  have hcast : (j : ℚ) + 1 ≤ roundHalfEven num den := by exact_mod_cast Nat.lt_of_not_le hlt
  have hnearest := roundHalfEven_nearest num h j
  rw [Int.cast_natCast, abs_of_nonpos (by linarith), abs_of_nonpos (by linarith)] at hnearest
  linarith

namespace Double

variable {x y : Double} {q r : ℚ} {num den : Nat} {n : Int} {negative : Bool}

/-! ## The numbers of the format -/

/-- A sign as a factor. -/
def sign (negative : Bool) : Int := if negative then -1 else 1

theorem abs_sign (negative : Bool) : |(sign negative : ℚ)| = 1 := by
  cases negative <;> norm_num [sign]

/-- The number that a finite word is. -/
def value (x : Double) : ℚ := sign x.negative * (x.numerator / x.denominator)

theorem value_eq (x : Double) : x.value = sign x.negative * (x.significand * 2 ^ x.exponent) := by
  rw [value, numerator_div_denominator]

theorem abs_value (x : Double) : |x.value| = x.significand * 2 ^ x.exponent := by
  rw [value_eq, abs_mul, abs_sign, one_mul, abs_of_nonneg (by positivity)]

theorem significand_lt (x : Double) : x.significand < 2 ^ 53 := by
  have hfraction := x.fraction_lt
  unfold significand
  rw [twoTo_eq] at hfraction ⊢
  split <;> omega

theorem le_exponent (x : Double) : -1074 ≤ x.exponent := by
  unfold exponent
  omega

theorem value_zero (negative : Bool) : (zero negative).value = 0 := by
  have hsignificand : (zero negative).significand = 0 := by cases negative <;> decide
  rw [value_eq, hsignificand]
  simp

theorem isFinite_zero (negative : Bool) : (zero negative).isFinite = true := by
  cases negative <;> decide

theorem isFinite_infinity (negative : Bool) : (infinity negative).isFinite = false := by
  cases negative <;> decide

/-- An integer that a word is taken for is its number. -/
theorem value_of_toInt? (h : x.toInt? = some n) : x.isFinite = true ∧ x.value = n := by
  obtain ⟨hfinite, hsign, hnumerator⟩ := eq_of_toInt? h
  have hden : (x.denominator : ℚ) ≠ 0 := by exact_mod_cast x.denominator_pos.ne'
  refine ⟨hfinite, ?_⟩
  have hn : sign x.negative * (n.natAbs : Int) = n := hsign.symm
  rw [value, hnumerator, Nat.cast_mul, mul_div_cancel_right₀ _ hden, ← Int.cast_natCast,
    ← Int.cast_mul, hn]

/-- A finite word whose number is an integer is taken for it. -/
theorem toInt?_of_value (hfinite : x.isFinite = true) (hvalue : x.value = n) :
    x.toInt? = some n := by
  have hden : (0 : ℚ) < x.denominator := by exact_mod_cast x.denominator_pos
  have habs : |x.value| = x.numerator / x.denominator := by
    rw [value, abs_mul, abs_sign, one_mul, abs_of_nonneg (by positivity)]
  have hnumerator : x.numerator = n.natAbs * x.denominator := by
    rw [hvalue, ← Int.cast_abs, eq_div_iff hden.ne'] at habs
    have hcast : |n| * (x.denominator : Int) = x.numerator := by exact_mod_cast habs
    rw [Int.abs_eq_natAbs] at hcast
    exact_mod_cast hcast.symm
  have hquotient : x.numerator / x.denominator = n.natAbs := by
    rw [hnumerator, Nat.mul_div_cancel _ x.denominator_pos]
  have hsign : n = sign x.negative * (n.natAbs : Int) := by
    rw [value, hnumerator, Nat.cast_mul, mul_div_cancel_right₀ _ hden.ne', ← Int.cast_natCast,
      ← Int.cast_mul] at hvalue
    exact Int.cast_injective hvalue.symm
  have hwhole : (x.isFinite && x.numerator % x.denominator == 0) = true := by
    simp [hfinite, hnumerator]
  unfold toInt?
  rw [if_pos hwhole, hquotient]
  cases hnegative : x.negative with
  | true => simpa [hnegative, sign] using hsign.symm
  | false => simpa [hnegative, sign] using hsign.symm

/-! ## Nearest numbers -/

/-- A number is that of a finite word, and that of no finite word is nearer to another number. -/
structure IsNearest (q r : ℚ) : Prop where
  isWord : ∃ x : Double, x.isFinite = true ∧ x.value = r
  le : ∀ y : Double, y.isFinite = true → |q - r| ≤ |q - y.value|

/-- A number too small for half of the least word is nearest to zero. -/
theorem isNearest_zero (h : |q| ≤ 2 ^ (-1075 : Int)) : IsNearest q 0 := by
  refine ⟨⟨zero false, isFinite_zero false, value_zero false⟩, fun y hy => ?_⟩
  rw [sub_zero]
  by_cases hzero : y.significand = 0
  · have hvalue : y.value = 0 := by rw [value_eq, hzero]; simp
    rw [hvalue, sub_zero]
  · have hleast : (2 : ℚ) ^ (-1074 : Int) ≤ |y.value| := by
      have hone : (1 : ℚ) ≤ y.significand := by exact_mod_cast Nat.one_le_iff_ne_zero.mpr hzero
      have hpower : (2 : ℚ) ^ (-1074 : Int) ≤ 2 ^ y.exponent :=
        zpow_le_zpow_right₀ (by norm_num) y.le_exponent
      rw [abs_value]
      nlinarith [zpow_pos (show (0 : ℚ) < 2 by norm_num) (-1074)]
    have hdouble : (2 : ℚ) ^ (-1074 : Int) = 2 * 2 ^ (-1075 : Int) := by
      rw [← zpow_one_add₀ (by norm_num)]
      norm_num
    have htriangle := abs_sub_abs_le_abs_sub y.value q
    rw [abs_sub_comm] at htriangle
    linarith

/-! ## Rounding a quotient -/

/-- The word of a significand on a grid of the format. The significand may be the first one that is
too large: it is then that of the next grid. -/
theorem value_ofMagnitude (negative : Bool) {m : Nat} {e : Int} (hlow : -1074 ≤ e) (hm : m ≤ 2 ^ 53)
    (hnormal : e = -1074 ∨ 2 ^ 52 ≤ m) (hhigh : (e + 1074).toNat * 2 ^ 52 + m < 2047 * 2 ^ 52) :
    (ofMagnitude negative ((e + 1074).toNat * 2 ^ 52 + m)).isFinite = true ∧
      (ofMagnitude negative ((e + 1074).toNat * 2 ^ 52 + m)).value =
        sign negative * (m * 2 ^ e) := by
  obtain ⟨x, hx⟩ : ∃ x, ofMagnitude negative ((e + 1074).toNat * 2 ^ 52 + m) = x := ⟨_, rfl⟩
  have hsign : x.negative = negative := by
    rw [← hx]
    exact negative_ofMagnitude _ (by omega)
  have hmagnitude : x.magnitude = (e + 1074).toNat * 2 ^ 52 + m := by
    rw [← hx]
    exact magnitude_ofMagnitude _ (by omega)
  have hfield := exponentField_eq x
  have hfraction := fraction_eq x
  rw [hmagnitude] at hfield hfraction
  have hexponent : x.exponent = (max x.exponentField 1 : Nat) - 1075 := rfl
  rw [hx, value_eq, hsign]
  refine ⟨decide_eq_true (by omega), ?_⟩
  congr 1
  rcases Nat.lt_or_ge m (2 ^ 52) with hsmall | hlarge
  · have hsignificand : x.significand = m := by
      rw [significand, if_pos (by omega)]
      omega
    have he : x.exponent = e := by omega
    rw [hsignificand, he]
  · have hsignificand : x.significand = 2 ^ 52 + x.fraction := by
      rw [significand, if_neg (by omega), twoTo_eq]
    rcases Nat.lt_or_ge m (2 ^ 53) with hinside | hnext
    · have he : x.exponent = e := by omega
      rw [he, hsignificand]
      congr 2
      omega
    · have he : x.exponent = e + 1 := by omega
      have hfirst : x.significand = 2 ^ 52 := by omega
      obtain rfl : m = 2 ^ 53 := by omega
      rw [he, hfirst, zpow_add_one₀ (by norm_num)]
      push_cast
      ring

/-- A word is a multiple of the last place of a grid or below the grid. -/
theorem exists_multiple_or_lt (y : Double) (e : Int) :
    (∃ j : Int, y.value = j * 2 ^ e) ∨ y.exponent < e ∧ |y.value| < 2 ^ (e + 52) := by
  rcases lt_or_ge y.exponent e with hlt | hle
  · refine .inr ⟨hlt, ?_⟩
    have hsignificand : (y.significand : ℚ) < 2 ^ (53 : Int) := by exact_mod_cast y.significand_lt
    rw [abs_value]
    calc (y.significand : ℚ) * 2 ^ y.exponent < 2 ^ (53 : Int) * 2 ^ y.exponent :=
          mul_lt_mul_of_pos_right hsignificand (by positivity)
      _ = 2 ^ (53 + y.exponent) := (zpow_add₀ (by norm_num) _ _).symm
      _ ≤ 2 ^ (e + 52) := zpow_le_zpow_right₀ (by norm_num) (by omega)
  · refine .inl ⟨sign y.negative * (y.significand * 2 ^ (y.exponent - e).toNat), ?_⟩
    have hpower : (2 : ℚ) ^ y.exponent = 2 ^ (y.exponent - e).toNat * 2 ^ e := by
      rw [← zpow_natCast, ← zpow_add₀ (by norm_num)]
      congr 1
      omega
    rw [value_eq, hpower]
    push_cast
    ring

/-- On the grid of its leading digits a quotient is an integer and a rest. -/
theorem scaled_quotient (num den : Nat) (hden : 0 < den) (e : Int) :
    ((num * twoTo (-e).toNat : Nat) : ℚ) / (den * twoTo e.toNat : Nat) = num / den / 2 ^ e := by
  have hpower : (2 : ℚ) ^ e = (2 ^ e.toNat : Nat) / (2 ^ (-e).toNat : Nat) := zpow_eq_div 2 e
  have hden : (den : ℚ) ≠ 0 := by exact_mod_cast hden.ne'
  rw [hpower, twoTo_eq, twoTo_eq]
  push_cast
  field_simp

/-- The significand and the exponent that a quotient is rounded to. -/
theorem round_double (hnum : 0 < num) (hden : 0 < den) :
    ∃ m e, BinaryFormat.double.round num den = (m, e) ∧ -1074 ≤ e ∧ m ≤ 2 ^ 53 ∧
      (e = -1074 ∨ 2 ^ 52 ≤ m ∧ (2 : ℚ) ^ (e + 52) ≤ num / den) ∧
      ∀ j : Int, |(num : ℚ) / den - m * 2 ^ e| ≤ |(num : ℚ) / den - j * 2 ^ e| := by
  obtain ⟨e, he⟩ : ∃ e, max (leadingExponent num den - (53 - 1 : Nat)) (-1074) = e := ⟨_, rfl⟩
  have hscaled : 0 < den * twoTo e.toNat := Nat.mul_pos hden (twoTo_pos _)
  have htwo : (0 : ℚ) < 2 ^ e := by positivity
  have hquotient := scaled_quotient num den hden e
  obtain ⟨hleadlow, hleadhigh⟩ := leadingExponent_spec hnum hden
  refine ⟨roundHalfEven (num * twoTo (-e).toNat) (den * twoTo e.toNat), e, ?_, by omega, ?_, ?_, ?_⟩
  · unfold BinaryFormat.round BinaryFormat.double
    dsimp only
    rw [he]
  · -- the quotient is below the first significand that is too large
    refine roundHalfEven_le hscaled ?_
    rw [hquotient, div_le_iff₀ htwo]
    calc (num : ℚ) / den ≤ 2 ^ (leadingExponent num den + 1) := hleadhigh.le
      _ ≤ 2 ^ (53 + e) := zpow_le_zpow_right₀ (by norm_num) (by omega)
      _ = (2 ^ 53 : Nat) * 2 ^ e := by rw [zpow_add₀ (by norm_num)]; norm_num
  · rcases eq_or_ne e (-1074) with hmin | hmin
    · exact .inl hmin
    · have hgrid : (2 : ℚ) ^ (e + 52) ≤ num / den := by
        have hexp : e + 52 = leadingExponent num den := by omega
        rwa [hexp]
      refine .inr ⟨le_roundHalfEven hscaled ?_, hgrid⟩
      rw [hquotient, le_div_iff₀ htwo]
      calc ((2 ^ 52 : Nat) : ℚ) * 2 ^ e = 2 ^ (e + 52) := by
            rw [zpow_add₀ (by norm_num), mul_comm]
            norm_num
        _ ≤ num / den := hgrid
  · intro j
    have hscale : ∀ v : ℚ,
        |(num : ℚ) / den - v * 2 ^ e| = |(num : ℚ) / den / 2 ^ e - v| * 2 ^ e := by
      intro v
      rw [← abs_of_pos htwo, ← abs_mul, abs_of_pos htwo, sub_mul, div_mul_cancel₀ _ htwo.ne']
    have hnearest := roundHalfEven_nearest (num * twoTo (-e).toNat) hscaled j
    rw [hquotient] at hnearest
    rw [hscale, hscale]
    exact mul_le_mul_of_nonneg_right hnearest htwo.le

/-- A sign goes over to the other side of a distance. -/
theorem abs_sign_mul_sub (negative : Bool) (q v : ℚ) :
    |sign negative * q - v| = |q - sign negative * v| := by
  cases negative
  · simp [sign]
  · rw [sign, if_pos rfl, ← abs_neg]
    congr 1
    push_cast
    ring

/-- **A quotient is rounded to the nearest number of the format**, unless it is too large for any
of them. -/
theorem isNearest_ofRatio (hden : 0 < den) (hfinite : (ofRatio negative num den).isFinite = true) :
    IsNearest (sign negative * (num / den)) (ofRatio negative num den).value := by
  rcases Nat.eq_zero_or_pos num with rfl | hnum
  · have hword : ofRatio negative 0 den = zero negative := if_pos rfl
    rw [hword, value_zero]
    exact isNearest_zero (by simp)
  obtain ⟨m, e, hround, hlow, hm, hnormal, hnearest⟩ := round_double hnum hden
  obtain ⟨q, hq⟩ : ∃ q : ℚ, (num : ℚ) / den = q := ⟨_, rfl⟩
  rw [hq] at hnormal hnearest ⊢
  have hword : ofRatio negative num den =
      if (e + 1074).toNat * 2 ^ 52 + m < 2047 * 2 ^ 52 then
        ofMagnitude negative ((e + 1074).toNat * 2 ^ 52 + m)
      else infinity negative := by
    unfold ofRatio
    rw [if_neg hnum.ne', hround]
    rfl
  split at hword
  · next hfits =>
    obtain ⟨-, hvalue⟩ := value_ofMagnitude negative hlow hm (hnormal.imp_right And.left) hfits
    refine ⟨⟨_, hfinite, rfl⟩, fun y _ => ?_⟩
    rw [hword, hvalue, ← mul_sub, abs_mul, abs_sign, one_mul]
    obtain ⟨j, hj⟩ | ⟨hexponent, hsmall⟩ := exists_multiple_or_lt y e
    · -- the other word is on the same grid
      have hnear := hnearest (sign negative * j)
      rwa [Int.cast_mul, mul_assoc, ← hj, ← abs_sign_mul_sub] at hnear
    · -- the other word is below the least point of the grid that has all digits
      have hleast := y.le_exponent
      obtain ⟨-, hgrid⟩ := hnormal.resolve_left (by omega)
      have hpoint : ((2 ^ 52 : Int) : ℚ) * 2 ^ e = 2 ^ (e + 52) := by
        rw [zpow_add₀ (by norm_num), mul_comm]
        norm_num
      have hpos : (0 : ℚ) < 2 ^ (e + 52) := by positivity
      calc |q - m * 2 ^ e| ≤ |q - ((2 ^ 52 : Int) : ℚ) * 2 ^ e| := hnearest (2 ^ 52)
        _ = q - 2 ^ (e + 52) := by rw [hpoint, abs_of_nonneg (by linarith)]
        _ ≤ |sign negative * q| - |y.value| := by
          rw [abs_mul, abs_sign, one_mul, abs_of_pos (by linarith)]
          linarith
        _ ≤ |sign negative * q - y.value| := abs_sub_abs_le_abs_sub _ _
  · rw [hword, isFinite_infinity] at hfinite
    exact nomatch hfinite

/-! ## Rounding a decimal -/

/-- A number has fewer digits than the power of ten that it is below. -/
theorem natDigits_bound (c : Nat) : (c : ℚ) < 10 ^ (natDigits c).length := by
  have h : c < 10 ^ (natDigits c).length :=
    (Nat.length_toDigits_le_iff (by decide) (List.length_pos_of_ne_nil (natDigits_ne_nil c))).mp
      le_rfl
  exact_mod_cast h

/-- Decimals that are not computed are too small for half of the least word. -/
theorem zpow_ten_le_zpow_two : (10 : ℚ) ^ (-330 : Int) ≤ 2 ^ (-1075 : Int) := by
  have h : 2 ^ 1075 ≤ 10 ^ 330 := by decide +kernel
  rw [zpow_neg, zpow_neg]
  exact inv_anti₀ (by positivity) (by exact_mod_cast h)

/-- **A decimal is rounded to the nearest number of the format**, unless it is too large for any of
them. -/
theorem isNearest_ofDecimal {c : Nat} {k : Int}
    (hfinite : (ofDecimal negative c k).isFinite = true) :
    IsNearest (sign negative * (c * 10 ^ k)) (ofDecimal negative c k).value := by
  unfold ofDecimal at hfinite ⊢
  dsimp only at hfinite ⊢
  split
  · next hzero =>
    rw [value_zero, hzero]
    exact isNearest_zero (by simp)
  · split
    · next hsmall =>
      rw [value_zero]
      refine isNearest_zero ?_
      rw [abs_mul, abs_sign, one_mul, abs_of_nonneg (by positivity)]
      calc (c : ℚ) * 10 ^ k ≤ 10 ^ ((natDigits c).length : Int) * 10 ^ k := by
            rw [zpow_natCast]
            exact mul_le_mul_of_nonneg_right (natDigits_bound c).le (by positivity)
        _ = 10 ^ (((natDigits c).length : Int) + k) := (zpow_add₀ (by norm_num) _ _).symm
        _ ≤ 10 ^ (-330 : Int) := zpow_le_zpow_right₀ (by norm_num) (by omega)
        _ ≤ 2 ^ (-1075 : Int) := zpow_ten_le_zpow_two
    · split
      · next hzero hsmall hlarge =>
        rw [if_neg hzero, if_neg hsmall, if_pos hlarge, isFinite_infinity] at hfinite
        exact nomatch hfinite
      · next hzero hsmall hlarge =>
        rw [if_neg hzero, if_neg hsmall, if_neg hlarge] at hfinite
        have hvalue : (c : ℚ) * 10 ^ k = (c * tenTo k.toNat : Nat) / (tenTo (-k).toNat : Nat) := by
          have hpower : (10 : ℚ) ^ k = (10 ^ k.toNat : Nat) / (10 ^ (-k).toNat : Nat) :=
            zpow_eq_div 10 k
          rw [hpower, Nat.cast_mul, mul_div_assoc]
          rfl
        rw [hvalue]
        exact isNearest_ofRatio (tenTo_pos _) hfinite

end Double

end EntityMapper
