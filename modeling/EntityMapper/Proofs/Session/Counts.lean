import EntityMapper.Proofs.FieldNumbers
import EntityMapper.Proofs.Session.SaveTwice

/-!
# Counts and integers

The reply to a count is read by a conversion of its own, and an integer field by that of all fields.
The two read the same integer from a value but for two kinds: a whole float beyond 64 bits counts as
the nearest integer and is out of range for a field; a text such as `2.0` is an integer to a field
and no count, so that a save takes the row that it counts for missing.

* `Value.Beyond`, `Value.WholeText` — the values of the two kinds
* `Value.Beyond.read`, `Value.WholeText.read` — what each conversion makes of them
* `Value.asCount_eq_some_iff_read` — every other value is read alike
* `Value.counts_as_integer` — all three, with what a save decides
-/

namespace EntityMapper

open Session

variable {v : Value} {x : Double} {s : String} {n : Int64} {j : Int}

/-! ## Where the conversions part -/

/-- A whole float that is beyond the integers of 64 bits. -/
inductive Value.Beyond : Value → Int → Prop
  | mk {x : Double} {j : Int} (hfinite : x.isFinite = true) (hvalue : x.value = j)
      (hbeyond : int64? j = none) : Beyond (.float x) j

/-- A text of a whole number that is not written as an integer of 64 bits: it is read as a float. -/
inductive Value.WholeText : Value → Int64 → Prop
  | mk {s : String} {x : Double} {n : Int64}
      (hinteger : ∀ j, IsInteger (trim s.toList) j → int64? j = none)
      (hread : Double.ofChars? (trim s.toList) = some x) (hfinite : x.isFinite = true)
      (hvalue : x.value = n.toInt) : WholeText (.text s) n

/-- A finite word is taken for an integer just if that is its number. -/
theorem Double.toInt?_eq_some_iff : x.toInt? = some j ↔ x.isFinite = true ∧ x.value = j :=
  ⟨value_of_toInt?, fun ⟨hfinite, hvalue⟩ => toInt?_of_value hfinite hvalue⟩

theorem nearestInt64_of_int64? (h : int64? j = some n) : nearestInt64 j = n := by
  unfold int64? at h
  split at h
  · next hbounds =>
    have hnearest : max (-(twoTo 63 : Int)) (min j (twoTo 63 - 1)) = j := by omega
    rw [nearestInt64, hnearest]
    exact Option.some.inj h
  · cases h

/-! ## Fields of 64 bits -/

theorem readWholeFloat_eq_ok : readWholeFloat x = .ok n ↔ x.toInt? = some n.toInt := by
  unfold readWholeFloat
  constructor
  · intro h
    split at h
    · next m hread =>
      obtain rfl := Except.ok.inj h
      obtain ⟨j, hj, hm⟩ := Option.bind_eq_some_iff.mp hread
      rw [hj, int64?_eq_some hm]
    · cases h
  · intro h
    rw [h, Option.bind_some, int64?_toInt]

/-- A field of 64 bits takes what is read as 64 bits. -/
theorem IntKind.read_int64_eq_ok : IntKind.int64.read v = .ok n.toInt ↔ readInt64 v = .ok n := by
  have hread : IntKind.int64.read v = IntKind.int64.readThroughInt64 v := rfl
  have hbounds : IntKind.int64.Holds n.toInt := by
    have hlow := n.le_toInt
    have hhigh := n.toInt_lt
    constructor
    · simpa [least, twoTo] using hlow
    · simpa [greatest, twoTo] using by omega
  rw [hread]
  constructor
  · intro h
    obtain ⟨-, m, hm, hn⟩ := of_readThroughInt64 h
    rw [hm, Int64.toInt_inj.mp hn]
  · intro h
    simp only [readThroughInt64, h, Bind.bind, Except.bind, if_pos hbounds]
    rfl

/-- A text is read as the integer that it is or, if it is none of 64 bits, as a whole float. -/
theorem readInt64_text_eq_ok : readInt64 (.text s) = .ok n ↔
    (readInteger (trim s.toList)).bind int64? = some n ∨ (Value.text s).WholeText n := by
  unfold readInt64
  dsimp only
  split
  · next m hm =>
    constructor
    · intro h
      obtain rfl := Except.ok.inj h
      exact .inl hm
    · rintro (h | ⟨hinteger, -, -, -⟩)
      · rw [Option.some.inj (hm.symm.trans h)]
      · obtain ⟨j, hj, hfits⟩ := Option.bind_eq_some_iff.mp hm
        rw [hinteger j (readInteger_eq_some.mp hj)] at hfits
        cases hfits
  next hnone =>
  have hinteger : ∀ j, IsInteger (trim s.toList) j → int64? j = none := by
    intro j hj
    rwa [readInteger_eq_some.mpr hj, Option.bind_some] at hnone
  split
  · next x hx =>
    rw [readWholeFloat_eq_ok, Double.toInt?_eq_some_iff]
    constructor
    · rintro ⟨hfinite, hvalue⟩
      exact .inr ⟨hinteger, hx, hfinite, hvalue⟩
    · rintro (h | ⟨-, hread, hfinite, hvalue⟩)
      · cases hnone.symm.trans h
      · obtain rfl := Option.some.inj (hx.symm.trans hread)
        exact ⟨hfinite, hvalue⟩
  · next hx =>
    constructor
    · intro h
      cases h
    · rintro (h | ⟨-, hread, -, -⟩)
      · cases hnone.symm.trans h
      · cases hx.symm.trans hread

namespace Value

/-! ## Counts -/

/-- A float beyond 64 bits is out of range for a field and counts as the nearest integer. -/
theorem Beyond.read (h : v.Beyond j) :
    (∃ err, IntKind.int64.read v = .error err) ∧ v.asCount = some (nearestInt64 j) := by
  cases h with
  | @mk x _ hfinite hvalue hbeyond =>
    have hwhole : x.toInt? = some j := Double.toInt?_eq_some_iff.mpr ⟨hfinite, hvalue⟩
    constructor
    · refine ⟨.outOfRange x.text "i64", ?_⟩
      have hread : readInt64 (.float x) = .error (.outOfRange x.text "i64") := by
        show readWholeFloat x = _
        rw [readWholeFloat, hwhole, Option.bind_some, hbeyond]
      show IntKind.int64.readThroughInt64 (.float x) = _
      rw [IntKind.readThroughInt64, hread]
      rfl
    · rw [asCount, hwhole, Option.map_some]

/-- A text of a whole number is an integer to a field and no count. -/
theorem WholeText.read (h : v.WholeText n) :
    IntKind.int64.read v = .ok n.toInt ∧ v.asCount = none := by
  cases h with
  | @mk s x _ hinteger hread hfinite hvalue =>
    refine ⟨IntKind.read_int64_eq_ok.mpr
      (readInt64_text_eq_ok.mpr (.inr ⟨hinteger, hread, hfinite, hvalue⟩)), ?_⟩
    rw [asCount, Option.bind_eq_none_iff]
    exact fun j hj => hinteger j (readInteger_eq_some.mp hj)

/-- Every other value is the same integer to both. -/
theorem asCount_eq_some_iff_read (hbeyond : ∀ j, ¬ v.Beyond j) (htext : ∀ n, ¬ v.WholeText n) :
    v.asCount = some n ↔ IntKind.int64.read v = .ok n.toInt := by
  rw [IntKind.read_int64_eq_ok]
  cases v with
  | int m =>
    rw [readInt64_int, asCount, Option.some.injEq, Except.ok.injEq]
  | bool b =>
    show some _ = some n ↔ Except.ok _ = Except.ok n
    rw [Option.some.injEq, Except.ok.injEq]
  | float x =>
    rw [asCount, Option.map_eq_some_iff]
    show _ ↔ readWholeFloat x = .ok n
    rw [readWholeFloat_eq_ok]
    constructor
    · rintro ⟨j, hj, rfl⟩
      obtain ⟨hfinite, hvalue⟩ := Double.toInt?_eq_some_iff.mp hj
      cases hfits : int64? j with
      | none => exact absurd (.mk hfinite hvalue hfits) (hbeyond j)
      | some m => rw [hj, nearestInt64_of_int64? hfits, int64?_eq_some hfits]
    · intro hread
      exact ⟨n.toInt, hread, nearestInt64_of_int64? (int64?_toInt n)⟩
  | text s =>
    rw [readInt64_text_eq_ok, asCount]
    exact ⟨.inl, fun h => h.resolve_right (htext n)⟩
  | null | blob | datetime =>
    -- neither a count nor an integer
    show none = some n ↔ Except.error _ = Except.ok n
    simp

/-- **Counts are read as integer fields are, but for two kinds of values.** A save takes a value for
what it counts as; a text that is a whole number to a field only counts for nothing, so that a save
inserts where it would update. -/
theorem counts_as_integer (v : Value) :
    (∀ n, v.WholeText n →
      IntKind.int64.read v = .ok n.toInt ∧ v.asCount = none ∧ isStored v = false) ∧
    (∀ j, v.Beyond j → (∃ err, IntKind.int64.read v = .error err) ∧
      v.asCount = some (nearestInt64 j) ∧ (isStored v = true ↔ 0 < j)) ∧
    ((∀ n, ¬ v.WholeText n) → (∀ j, ¬ v.Beyond j) → ∀ n,
      (v.asCount = some n ↔ IntKind.int64.read v = .ok n.toInt) ∧
      (IntKind.int64.read v = .ok n.toInt → isStored v = isStored (.int n))) := by
  refine ⟨fun n h => ?_, fun j h => ?_, fun htext hbeyond n => ?_⟩
  · obtain ⟨hread, hcount⟩ := h.read
    exact ⟨hread, hcount, by rw [isStored, hcount, Option.any_none]⟩
  · obtain ⟨hread, hcount⟩ := h.read
    refine ⟨hread, hcount, ?_⟩
    rw [isStored, hcount, Option.any_some, decide_eq_true_iff, nearestInt64_pos]
  · have hiff := asCount_eq_some_iff_read (n := n) hbeyond htext
    refine ⟨hiff, fun hread => ?_⟩
    rw [isStored, isStored, hiff.mpr hread, asCount]

/-- The text `2.0` is the integer of a field and no count, and the first float above 64 bits is out
of range and counts as the greatest of them. -/
theorem counts_as_integer_samples :
    (IntKind.int64.read (.text "2.0") = .ok 2 ∧ (Value.text "2.0").asCount = none ∧
      isStored (.text "2.0") = false) ∧
    ((∃ err, IntKind.int64.read (.float ⟨0x43e0000000000000⟩) = .error err) ∧
      (Value.float ⟨0x43e0000000000000⟩).asCount = some (nearestInt64 (twoTo 63)) ∧
      isStored (.float ⟨0x43e0000000000000⟩) = true) := by
  have hnone : readInteger (trim "2.0".toList) = none := by decide +kernel
  have hinteger : ∀ j, IsInteger (trim "2.0".toList) j → int64? j = none := by
    intro j hj
    cases hnone.symm.trans (readInteger_eq_some.mpr hj)
  have hread : Double.ofChars? (trim "2.0".toList) = some ⟨0x4000000000000000⟩ := by decide +kernel
  obtain ⟨hfinite, hvalue⟩ := Double.value_of_toInt?
    (show (⟨0x4000000000000000⟩ : Double).toInt? = some (2 : Int64).toInt by decide +kernel)
  obtain ⟨hfinite', hvalue'⟩ := Double.value_of_toInt?
    (show (⟨0x43e0000000000000⟩ : Double).toInt? = some (twoTo 63) by decide +kernel)
  obtain ⟨htext, -, -⟩ := counts_as_integer (.text "2.0")
  obtain ⟨-, hfloat, -⟩ := counts_as_integer (.float ⟨0x43e0000000000000⟩)
  refine ⟨htext 2 (.mk hinteger hread hfinite hvalue), ?_⟩
  obtain ⟨herror, hcount, hstored⟩ := hfloat (twoTo 63) (.mk hfinite' hvalue' (by decide))
  exact ⟨herror, hcount, hstored.mpr (by decide)⟩

/-- What a field reads as an integer need not be that integer as a count. -/
theorem not_counts_alike :
    ¬ ∀ (v : Value) (n : Int64), v.asCount = some n ↔ IntKind.int64.read v = .ok n.toInt := by
  intro h
  have hread : IntKind.int64.read (.text "2.0") = .ok (2 : Int64).toInt := by decide +kernel
  have hcount : (Value.text "2.0").asCount = none := by decide +kernel
  cases hcount.symm.trans ((h _ _).mpr hread)

end Value

end EntityMapper
