import EntityMapper.Proofs.FieldRoundtrip

/-!
# Runs of digits

* `takeDigits_of_append` — digits at the front of a text are taken up to what is none
* `digitsValue_padDigits` — zeros in front change no number
-/

namespace EntityMapper

/-- The run of digits at the front ends before what is none. -/
theorem takeWhile_isDigit_append {ds r : List Char} (hds : ∀ d ∈ ds, d.isDigit = true)
    (hr : ∀ d ∈ r.head?, d.isDigit = false) : (ds ++ r).takeWhile Char.isDigit = ds := by
  rw [List.takeWhile_append_of_pos hds]
  cases r with
  | nil => simp
  | cons d r => rw [List.takeWhile_cons_of_neg (by simp [hr d rfl]), List.append_nil]

/-- Digits at the front are taken up to what is none. -/
theorem takeDigits_of_append {ds r : List Char} (hds : ∀ d ∈ ds, d.isDigit = true)
    (hr : ∀ d ∈ r.head?, d.isDigit = false) : takeDigits none (ds ++ r) = (ds, r) := by
  unfold takeDigits
  simp [takeWhile_isDigit_append hds hr]

/-- Of nothing but digits all are taken. -/
theorem takeDigits_self {ds : List Char} (hds : ∀ d ∈ ds, d.isDigit = true) :
    takeDigits none ds = (ds, []) := by
  have happend := @takeDigits_of_append ds [] hds (by simp)
  rwa [List.append_nil] at happend

theorem digitsValue_append (ds es : List Char) :
    digitsValue 0 (ds ++ es) = digitsValue 0 ds * tenTo es.length + digitsValue 0 es := by
  have happend : digitsValue 0 (ds ++ es) = digitsValue (digitsValue 0 ds) es :=
    List.foldl_append ..
  rw [happend, digitsValue_eq]

theorem digitsValue_zeros (n : Nat) : digitsValue 0 (List.replicate n '0') = 0 := by
  induction n with
  | zero => rfl
  | succ n ih =>
    rw [List.replicate_succ]
    exact ih

theorem digitsValue_padDigits (width n : Nat) : digitsValue 0 (padDigits width n) = n := by
  rw [padDigits, digitsValue_append, digitsValue_zeros, digitsValue_natDigits, Nat.zero_mul,
    Nat.zero_add]

theorem isDigit_padDigits {width n : Nat} {d : Char} (h : d ∈ padDigits width n) :
    d.isDigit = true := by
  rcases List.mem_append.mp h with h | h
  · rw [List.eq_of_mem_replicate h]
    rfl
  · exact isDigit_natDigits h

theorem padDigits_ne_nil (width n : Nat) : padDigits width n ≠ [] :=
  List.append_ne_nil_of_right_ne_nil _ (natDigits_ne_nil n)

theorem length_padDigits (width n : Nat) : width ≤ (padDigits width n).length := by
  rw [padDigits, List.length_append, List.length_replicate]
  omega

end EntityMapper
