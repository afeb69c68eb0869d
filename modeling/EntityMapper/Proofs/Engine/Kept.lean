import EntityMapper.Dialect
import EntityMapper.Proofs.Engine.FloatExact
import EntityMapper.Proofs.Engine.Rows
import EntityMapper.Proofs.Text.DateTimeReading

/-!
# What a column keeps of a field

The value of a field is bound as a cell, the column that a table declares for the field stores the
cell by its affinity, and the field reads what is stored. Integers, truth values, texts, bytes and
states come back as they were, floats as well but for the sign of a zero, datetimes cut to a tenth
of a microsecond. An unsigned integer past signed 64 bits does not: it is bound as text, which an
integer column turns into the nearest float.

* `Datum.returned` — what comes back of each value
* `FieldType.insert_kept` — the same comes back from a row that a table has taken in
* `FieldType.kept_eq` — what a field reads of a stored value
-/

namespace EntityMapper

open Engine (Cell Affinity Numeral StoredTable StoredColumn readNumeral)

/-! ## Columns of fields -/

/-- The affinity of the column that is declared for a field. -/
def FieldType.affinity (t : FieldType) : Affinity :=
  .ofType ((Dialect.of .sqlite).columnType t.valueType)

/-- What a field reads of a value of its own that its column has stored. -/
def FieldType.kept (t : FieldType) (d : Datum) : Except CoercionError Datum :=
  t.read (t.affinity.store (Cell.ofValue d.toValue)).toValue

/-- The affinity of each kind of column. -/
theorem ofType_columnType (v : ValueType) :
    Affinity.ofType ((Dialect.of .sqlite).columnType v) =
      match v with
      | .bool => .integer
      | .int => .integer
      | .float => .real
      | .blob => .none
      | _ => .text := by
  cases v <;> decide

theorem FieldType.affinity_eq (t : FieldType) :
    t.affinity =
      match t.scalar with
      | .int _ => .integer
      | .enumeration _ => .integer
      | .bool => .integer
      | .single => .real
      | .double => .real
      | .blob => .none
      | .text => .text
      | .datetime => .text := by
  rw [FieldType.affinity, FieldType.valueType, ofType_columnType]
  cases t.scalar <;> rfl

namespace Engine

/-! ## Real columns -/

/-- A float is stored as the integer that it is, well inside 64 bits, or as itself if it is not
zero. -/
theorem Cell.wholeReal_cases (x : Double) :
    (∃ n, x.toInt? = some n ∧ (Int64.ofInt n).toInt = n ∧
        Cell.wholeReal x = .int (Int64.ofInt n)) ∨
      (x.isZero = false ∧ Cell.wholeReal x = .real x) := by
  have hlimit : (twoTo 63 : Int) = 9223372036854775808 := rfl
  unfold Cell.wholeReal
  cases h : x.toInt? with
  | none =>
    refine .inr ⟨?_, rfl⟩
    rw [Bool.eq_false_iff, ne_eq, ← Double.toInt?_eq_zero, h]
    exact nofun
  | some n =>
    dsimp only
    split
    · next hrange =>
      rw [hlimit] at hrange
      have hn : (Int64.ofInt n).toInt = n :=
        Int64.toInt_ofInt_of_le (by simpa using by omega) (by simpa using by omega)
      exact .inl ⟨n, rfl, hn, rfl⟩
    · next hrange =>
      refine .inr ⟨?_, rfl⟩
      rw [Bool.eq_false_iff, ne_eq, ← Double.toInt?_eq_zero, h, Option.some.injEq]
      rintro rfl
      exact hrange (by simp [hlimit])

/-- **A real column keeps a float** but for the sign of a zero: a whole float that it stores as an
integer is read as the float again. -/
theorem Affinity.store_real (x : Double) :
    Affinity.real.store (.real x) = .real (if x.isZero then .zero false else x) := by
  unfold Affinity.store
  dsimp only
  obtain ⟨n, hwhole, hn, hstored⟩ | ⟨hzero, hstored⟩ := Cell.wholeReal_cases x
  · rw [hstored]
    dsimp only
    rw [hn]
    by_cases hzero : x.isZero = true
    · obtain rfl : n = 0 := Option.some.inj (hwhole.symm.trans (Double.toInt?_eq_zero.mpr hzero))
      rw [if_pos hzero]
      rfl
    · have hne : n ≠ 0 := by
        rintro rfl
        exact hzero (Double.toInt?_eq_zero.mp hwhole)
      rw [if_neg hzero, Double.ofInt_of_toInt? hwhole hne]
  · rw [hstored, hzero, if_neg Bool.false_ne_true]

/-! ## Integer columns -/

variable {n : Int}

/-- No digit is white space to the engine. -/
theorem not_isSpace_of_isDigit {d : Char} (h : d.isDigit = true) : isSpace d = false := by
  have hlow : 48 ≤ d.toNat := (Bool.and_eq_true_iff.mp h).1 |> of_decide_eq_true
  unfold isSpace
  rw [Bool.or_eq_false_iff, beq_eq_false_iff_ne, Bool.and_eq_false_imp]
  refine ⟨?_, fun _ => ?_⟩
  · rintro rfl
    exact absurd hlow (by decide)
  · rw [decide_eq_false_iff_not]
    intro hle
    have hhigh : d.toNat ≤ 13 := hle
    omega

/-- A text of digits is a whole number to the engine. -/
theorem readNumeral_natDigits (n : Nat) :
    readNumeral (natDigits n) =
      { negative := false, digits := n, exponent := 0, isInteger := true, complete := true } := by
  have hspace : (natDigits n).dropWhile isSpace = natDigits n := by
    obtain ⟨d, ds, hd⟩ := List.exists_cons_of_ne_nil (natDigits_ne_nil n)
    have hdigit : isSpace d = false :=
      not_isSpace_of_isDigit (isDigit_natDigits (hd ▸ List.mem_cons_self))
    rw [hd, List.dropWhile_cons_of_neg (by simp [hdigit])]
  have hempty : (natDigits n).isEmpty = false := List.isEmpty_eq_false_iff.mpr (natDigits_ne_nil n)
  unfold readNumeral
  rw [hspace, splitSign_natDigits]
  dsimp only
  rw [takeDigits_self fun _ => isDigit_natDigits]
  simp [hempty, readPower, digitsValue_natDigits]

/-- **An unsigned integer past signed 64 bits, bound as text, becomes a float in an integer
column.** -/
theorem Affinity.store_integer_wide (hlow : twoTo 63 ≤ n) (hhigh : n < twoTo 64) :
    Affinity.integer.store (.text (intText n)) = .real (.ofInt n) := by
  obtain ⟨m, hwhole, hm⟩ := Double.toInt?_ofInt_wide hlow hhigh
  obtain ⟨k, rfl⟩ := Int.eq_ofNat_of_zero_le (show 0 ≤ n by omega)
  have hk : 2 ^ 63 ≤ k ∧ k < 2 ^ 64 := by
    rw [twoTo] at hlow hhigh
    exact ⟨by exact_mod_cast hlow, by exact_mod_cast hhigh⟩
  have hdigits : (intText k).toList = natDigits k := by
    rw [intText, String.toList_ofList, intDigits, if_neg (by omega), Int.natAbs_natCast]
  have hnumber : Affinity.numberOfText (intText k) = .real (.ofInt k) := by
    unfold Affinity.numberOfText Cell.ofNumeral Numeral.integer Numeral.real
    rw [hdigits, readNumeral_natDigits]
    dsimp only
    rw [if_pos rfl, if_pos rfl, if_neg Bool.false_ne_true, int64?_eq_none hlow,
      Double.ofDecimal_zero hk.2 (by omega)]
    rfl
  have hreal : Cell.wholeReal (.ofInt k) = .real (.ofInt k) := by
    unfold Cell.wholeReal
    rw [hwhole]
    exact if_neg (by rintro ⟨-, h⟩; omega)
  unfold Affinity.store
  dsimp only
  rw [hnumber]
  dsimp only
  rw [hreal]

end Engine

/-! ## Fields -/

variable {t : FieldType} {d : Datum} {n : Int}

/-- The values of the scalar types. -/
theorem ScalarType.holds_cases {s : ScalarType} (h : s.Holds d) :
    (∃ k n, s = .int k ∧ d = .int n ∧ k.Holds n) ∨
      (∃ e c, s = .enumeration e ∧ d = .int (Int64.toInt c)) ∨
      (∃ b, s = .bool ∧ d = .bool b) ∨
      (∃ x, (s = .single ∨ s = .double) ∧ d = .float x) ∨
      (∃ w, s = .text ∧ d = .text w) ∨
      (∃ bytes, s = .blob ∧ d = .blob bytes) ∨
      ∃ u, s = .datetime ∧ d = .datetime u := by
  cases s with
  | int k =>
    cases d with
    | int n => exact .inl ⟨k, n, rfl, rfl, h⟩
    | _ => exact h.elim
  | enumeration e =>
    cases d with
    | int n =>
      obtain ⟨c, -, rfl⟩ := h
      exact .inr (.inl ⟨e, c, rfl, rfl⟩)
    | _ => exact h.elim
  | _ =>
    cases d <;> first
      | exact h.elim
      | simp

/-- An integer past signed 64 bits is no value of any integer type once it is a float. -/
theorem IntKind.read_wide (k : IntKind) (hlow : twoTo 63 ≤ n) (hhigh : n < twoTo 64) :
    k.read (.float (.ofInt n)) = .error (.outOfRange (Double.ofInt n).text "i64") := by
  obtain ⟨m, hwhole, hm⟩ := Double.toInt?_ofInt_wide hlow hhigh
  have hread : k.read (.float (.ofInt n)) = k.readThroughInt64 (.float (.ofInt n)) := by
    cases k <;> rfl
  have hfloat : readWholeFloat (.ofInt n) = .error (.outOfRange (Double.ofInt n).text "i64") := by
    unfold readWholeFloat
    rw [hwhole, Option.bind_some, int64?_eq_none hm]
  rw [hread]
  unfold IntKind.readThroughInt64 readInt64
  dsimp only
  rw [hfloat]
  rfl

/-- A column that stores a value as the field stores another gives back the other. -/
theorem FieldType.kept_of_toValue_eq {e : Datum} (h : t.Holds e)
    (hsame : (t.affinity.store (Cell.ofValue d.toValue)).toValue = e.toValue) :
    t.kept d = .ok e := by
  unfold FieldType.kept
  rw [hsame, FieldType.read_toValue h]

/-- What is stored of a value is read by the scalar type, unless it is null. -/
theorem FieldType.kept_of_store {v : Value}
    (hstore : (t.affinity.store (Cell.ofValue d.toValue)).toValue = v) (hv : v.isNull = false) :
    t.kept d = t.scalar.read v := by
  unfold FieldType.kept
  rw [hstore, FieldType.read_of_not_isNull hv]

/-- An integer of 64 bits with a sign comes back. -/
theorem FieldType.kept_int64 {m : Int64} (haffinity : t.affinity = .integer)
    (h : t.scalar.Holds (.int n)) (hm : int64? n = some m) : t.kept (.int n) = .ok (.int n) := by
  have hvalue : (Datum.int n).toValue = .int m := by rw [toValue_int, hm, Option.elim_some]
  refine FieldType.kept_of_toValue_eq (.inr h) ?_
  rw [haffinity, hvalue]
  rfl

/-- An integer past them does not. -/
theorem FieldType.kept_wide {k : IntKind} (hscalar : t.scalar = .int k)
    (haffinity : t.affinity = .integer) (hlow : twoTo 63 ≤ n) (hhigh : n < twoTo 64) :
    t.kept (.int n) = .error (.outOfRange (Double.ofInt n).text "i64") := by
  have hvalue : (Datum.int n).toValue = .text (intText n) := by
    rw [toValue_int, int64?_eq_none hlow, Option.elim_none]
  have hstore : (t.affinity.store (Cell.ofValue (Datum.int n).toValue)).toValue =
      .float (.ofInt n) := by
    rw [haffinity, hvalue]
    show (Affinity.integer.store (.text (intText n))).toValue = _
    rw [Engine.Affinity.store_integer_wide hlow hhigh]
    rfl
  rw [FieldType.kept_of_store hstore rfl, hscalar]
  show (k.read (.float (.ofInt n))).map Datum.int = _
  rw [IntKind.read_wide k hlow hhigh]
  rfl

/-- An integer comes back just if it is one of 64 bits with a sign. -/
theorem FieldType.kept_int {k : IntKind} (hscalar : t.scalar = .int k)
    (haffinity : t.affinity = .integer) (h : k.Holds n) :
    t.kept (.int n) =
      if n < twoTo 63 then .ok (.int n)
      else .error (.outOfRange (Double.ofInt n).text "i64") := by
  have hholds : t.scalar.Holds (.int n) := by rw [hscalar]; exact h
  cases hfits : int64? n with
  | some m =>
    have hlt : n < twoTo 63 := int64?_eq_some hfits ▸ m.toInt_lt
    rw [if_pos hlt, FieldType.kept_int64 haffinity hholds hfits]
  | none =>
    obtain ⟨rfl, hpos⟩ := eq_uint64_of_int64?_eq_none h hfits
    have hlow : twoTo 63 ≤ n := by
      by_contra hlt
      have hsome : int64? n = some (Int64.ofInt n) := if_pos ⟨by omega, by omega⟩
      rw [hsome] at hfits
      exact nomatch hfits
    have hhigh : n < twoTo 64 := by
      have hgreatest : n ≤ twoTo 64 - 1 := h.2
      omega
    rw [if_neg (by omega), FieldType.kept_wide hscalar haffinity hlow hhigh]

/-- A truth value comes back. -/
theorem FieldType.kept_bool {b : Bool} (hscalar : t.scalar = .bool)
    (haffinity : t.affinity = .integer) : t.kept (.bool b) = .ok (.bool b) := by
  have hstore : (t.affinity.store (Cell.ofValue (Datum.bool b).toValue)).toValue =
      .int (if b then 1 else 0) := by
    rw [haffinity]
    rfl
  rw [FieldType.kept_of_store hstore rfl, hscalar]
  cases b <;> rfl

/-- A float comes back but for the sign of a zero. -/
theorem FieldType.kept_float {x : Double} (haffinity : t.affinity = .real)
    (h : t.scalar.Holds (.float x)) (hx : x.isNaN = false) :
    t.kept (.float x) = .ok (.float (if x.isZero then .zero false else x)) := by
  have hholds : t.scalar.Holds (.float (if x.isZero then .zero false else x)) := by
    split
    · cases hscalar : t.scalar with
      | single => exact (by decide : (Double.zero false).toSingle = .zero false)
      | double => trivial
      | _ => rw [hscalar] at h; exact h.elim
    · exact h
  refine FieldType.kept_of_toValue_eq (.inr hholds) ?_
  show (t.affinity.store (Cell.ofDouble x)).toValue = _
  rw [Cell.ofDouble, hx, if_neg Bool.false_ne_true, haffinity, Engine.Affinity.store_real]
  rfl

/-- A datetime comes back as its text leaves it. -/
theorem FieldType.kept_datetime {u : DateTime} (hscalar : t.scalar = .datetime)
    (haffinity : t.affinity = .text) : t.kept (.datetime u) = .ok (.datetime u.written) := by
  have hstore : (t.affinity.store (Cell.ofValue (Datum.datetime u).toValue)).toValue =
      .text u.text := by
    rw [haffinity]
    rfl
  rw [FieldType.kept_of_store hstore rfl, hscalar]
  show (readDateTime (.text u.text)).map Datum.datetime = _
  unfold readDateTime
  dsimp only
  rw [DateTime.ofText?_text]
  rfl

/-- A zero without its sign is the same number. -/
theorem Double.numericEq_unsigned {x : Double} (hx : x.isNaN = false) :
    (if x.isZero then Double.zero false else x).numericEq x = true := by
  split
  · next hzero =>
    have hmagnitude : x.magnitude = 0 := by
      unfold Double.isZero at hzero
      rw [Bool.and_eq_true, beq_iff_eq, beq_iff_eq, Double.exponentField_eq, Double.fraction_eq]
        at hzero
      omega
    have hword : x = .zero x.negative := by
      refine Double.eq_of_magnitude ?_ ?_
      · cases x.negative <;> decide
      · rw [hmagnitude]
        cases x.negative <;> decide
    rw [hword]
    cases x.negative <;> decide +kernel
  · simp [Double.numericEq, Double.compare?, hx]

/-- What comes back of a value: everything but a float's zero without its sign, a datetime cut to a
tenth of a microsecond, and nothing of an unsigned integer past signed 64 bits, which makes the
stored row one that cannot be read. -/
def Datum.returned : Datum → Except CoercionError Datum
  | .int n =>
    if n < twoTo 63 then .ok (.int n)
    else .error (.outOfRange (Double.ofInt n).text "i64")
  | .float x => .ok (.float (if x.isZero then .zero false else x))
  | .datetime u => .ok (.datetime u.truncated)
  | d => .ok d

/-- A float comes back as the same number. -/
theorem Datum.numericEq_returned {x : Double} (hx : x.isNaN = false) :
    ∃ y, (Datum.float x).returned = .ok (.float y) ∧ y.numericEq x = true :=
  ⟨_, rfl, Double.numericEq_unsigned hx⟩

theorem FieldType.kept_eq_returned (h : t.Holds d) (hnumber : ∀ x, d = .float x → x.isNaN = false)
    (hleap : ∀ u, d = .datetime u → u.inLeapSecond = false) : t.kept d = d.returned := by
  obtain ⟨hnull, rfl⟩ | hheld := h
  · refine FieldType.kept_of_toValue_eq (.inl ⟨hnull, rfl⟩) ?_
    show (t.affinity.store .null).toValue = .null
    cases t.affinity <;> rfl
  have haffinity := t.affinity_eq
  obtain ⟨k, n, hs, rfl, hn⟩ | ⟨e, c, hs, rfl⟩ | ⟨b, hs, rfl⟩ | ⟨x, hs, rfl⟩ | ⟨s, hs, rfl⟩ |
    ⟨bytes, hs, rfl⟩ | ⟨u, hs, rfl⟩ := ScalarType.holds_cases hheld
  · rw [hs] at haffinity
    exact FieldType.kept_int hs haffinity hn
  · rw [hs] at haffinity
    rw [FieldType.kept_int64 haffinity hheld (int64?_toInt c)]
    exact (if_pos c.toInt_lt).symm
  · rw [hs] at haffinity
    exact FieldType.kept_bool hs haffinity
  · have hreal : t.affinity = .real := by obtain hs | hs := hs <;> rw [haffinity, hs]
    exact FieldType.kept_float hreal hheld (hnumber x rfl)
  · refine FieldType.kept_of_toValue_eq (.inr hheld) ?_
    rw [haffinity, hs]
    rfl
  · refine FieldType.kept_of_toValue_eq (.inr hheld) ?_
    rw [haffinity, hs]
    rfl
  · rw [hs] at haffinity
    rw [FieldType.kept_datetime hs haffinity, DateTime.written_eq_truncated (hleap u rfl)]
    rfl

/-- What a field reads of its value in a row that a table has taken in. -/
theorem FieldType.insert_kept {table table' : StoredTable} {cells : List Cell} {number : Int}
    {i : Nat} {column : StoredColumn} (ht : table.NumbersIntegers)
    (hinsert : table.insert cells = .ok (table', number))
    (hcolumn : table.columns[i]? = some column) (haffinity : column.affinity = t.affinity)
    (hcell : cells[i]? = some (Cell.ofValue d.toValue))
    (hnull : table.numbered = some i → (Cell.ofValue d.toValue).isNull = false) :
    ∃ row, (number, row) ∈ table'.rows ∧
      row[i]?.map (fun c => t.read c.toValue) = some (t.kept d) := by
  obtain ⟨row, hrow, hstored⟩ := StoredTable.insert_stores ht hinsert hcolumn hcell hnull
  refine ⟨row, hrow, ?_⟩
  rw [hstored, haffinity, Option.map_some, FieldType.kept]

/-- **What a field reads of a value that its column has stored**, by itself or with the row that a
table takes in, after which the table is one that can take in the next. A float comes back as the
same number. -/
theorem FieldType.kept_eq (h : t.Holds d) (hnumber : ∀ x, d = .float x → x.isNaN = false)
    (hleap : ∀ u, d = .datetime u → u.inLeapSecond = false) :
    t.kept d = d.returned ∧
      (∀ x, d = .float x → ∃ y, d.returned = .ok (.float y) ∧ y.numericEq x = true) ∧
      ∀ {table table' : StoredTable} {cells : List Cell} {number : Int} {i : Nat}
        {column : StoredColumn}, table.NumbersIntegers →
        table.insert cells = .ok (table', number) → table.columns[i]? = some column →
        column.affinity = t.affinity → cells[i]? = some (Cell.ofValue d.toValue) →
        (table.numbered = some i → (Cell.ofValue d.toValue).isNull = false) →
        table'.NumbersIntegers ∧ ∃ row, (number, row) ∈ table'.rows ∧
          row[i]?.map (fun c => t.read c.toValue) = some d.returned := by
  have hkept := FieldType.kept_eq_returned h hnumber hleap
  refine ⟨hkept, fun x hd => ?_, fun ht hinsert hcolumn haffinity hcell hnull =>
    ⟨ht.insert hinsert, ?_⟩⟩
  · subst hd
    exact Datum.numericEq_returned (hnumber x rfl)
  · rw [← hkept]
    exact FieldType.insert_kept ht hinsert hcolumn haffinity hcell hnull

/-- The columns of a table that counts things by number. -/
def countColumns : List Engine.ColumnDefinition :=
  [{ name := "id", type := "integer", primaryKey := true }, { name := "count", type := "integer" }]

/-- The least unsigned integer past signed 64 bits is stored and cannot be read. -/
theorem FieldType.kept_past_int64 :
    let t : FieldType := ⟨.int .uint64, false⟩
    let unread : Except CoercionError Datum := .error (.outOfRange "9223372036854776000" "i64")
    t.Holds (.int (twoTo 63)) ∧ t.kept (.int (twoTo 63)) = unread ∧
      ∃ table table' number row, StoredTable.define "Counts" countColumns none = .ok table ∧
        table.insert [.int 1, Cell.ofValue (Datum.int (twoTo 63)).toValue] = .ok (table', number) ∧
        (number, row) ∈ table'.rows ∧ row[1]?.map (fun c => t.read c.toValue) = some unread := by
  have hheld : IntKind.uint64.Holds (twoTo 63) := by decide
  have hholds : FieldType.Holds ⟨.int .uint64, false⟩ (.int (twoTo 63)) := .inr hheld
  have hreturned : (Datum.int (twoTo 63)).returned =
      .error (.outOfRange "9223372036854776000" "i64") := by decide +kernel
  obtain ⟨hkept, -, hrows⟩ :=
    FieldType.kept_eq hholds (fun _ h => nomatch h) (fun _ h => nomatch h)
  obtain ⟨table, htable⟩ := exists_of_isOk
    (show (StoredTable.define "Counts" countColumns none).isOk = true by decide +kernel)
  have hinsert : (StoredTable.define "Counts" countColumns none >>= fun table =>
      table.insert [.int 1, Cell.ofValue (Datum.int (twoTo 63)).toValue]).isOk = true := by
    decide +kernel
  have hcolumn : (StoredTable.define "Counts" countColumns none).toOption.bind
      (fun table => table.columns[1]?) = some ⟨"count", .integer, false⟩ := by decide +kernel
  have hnumbered : (StoredTable.define "Counts" countColumns none).toOption.bind
      StoredTable.numbered = some 0 := by decide +kernel
  rw [htable] at hinsert hcolumn hnumbered
  obtain ⟨⟨table', number⟩, hinsert⟩ := exists_of_isOk hinsert
  obtain ⟨-, row, hrow, hread⟩ := hrows (StoredTable.numbersIntegers_of_define htable) hinsert
    hcolumn rfl rfl (fun h => nomatch hnumbered.symm.trans h)
  exact ⟨hholds, hkept.trans hreturned, table, table', number, row, htable, hinsert, hrow,
    hread.trans (congrArg some hreturned)⟩

end EntityMapper
