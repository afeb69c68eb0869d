import EntityMapper.Value

/-!
# Field types

A mapped field has a type of its own, narrower than the values of a column. A `Datum` is a value
of such a type; `Datum.toValue` is what is stored for it and `FieldType.read` is what a stored
value means to it. An exact match is taken as it is; anything else goes through one conversion
policy: numbers widen, whole floats and numeric texts are integers, 0 and 1 are truth values.
-/

namespace EntityMapper

/-! ## Types -/

/-- The integer types, by width and sign. -/
inductive IntKind
  | int8
  | int16
  | int32
  | int64
  | uint8
  | uint16
  | uint32
  | uint64
deriving DecidableEq, Repr, Inhabited

namespace IntKind

/-- The name of an integer type in messages. -/
def name : IntKind → String
  | .int8 => "i8"
  | .int16 => "i16"
  | .int32 => "i32"
  | .int64 => "i64"
  | .uint8 => "u8"
  | .uint16 => "u16"
  | .uint32 => "u32"
  | .uint64 => "u64"

/-- All integer types. -/
def all : List IntKind := [.int8, .int16, .int32, .int64, .uint8, .uint16, .uint32, .uint64]

/-- The least integer of a type. -/
def least : IntKind → Int
  | .int8 => -twoTo 7
  | .int16 => -twoTo 15
  | .int32 => -twoTo 31
  | .int64 => -twoTo 63
  | _ => 0

/-- The greatest integer of a type. -/
def greatest : IntKind → Int
  | .int8 => twoTo 7 - 1
  | .int16 => twoTo 15 - 1
  | .int32 => twoTo 31 - 1
  | .int64 => twoTo 63 - 1
  | .uint8 => twoTo 8 - 1
  | .uint16 => twoTo 16 - 1
  | .uint32 => twoTo 32 - 1
  | .uint64 => twoTo 64 - 1

/-- Whether an integer belongs to a type. -/
def Holds (k : IntKind) (n : Int) : Prop := k.least ≤ n ∧ n ≤ k.greatest

instance (k : IntKind) (n : Int) : Decidable (k.Holds n) := inferInstanceAs (Decidable (_ ∧ _))

end IntKind

/-- A closed set of named states, each stored as its integer code. -/
structure Enumeration where
  name : String
  codes : List Int64
deriving DecidableEq, Inhabited

/-- The type of a field without its nullability. -/
inductive ScalarType
  | int (k : IntKind)
  | single
  | double
  | bool
  | text
  | blob
  | datetime
  | enumeration (e : Enumeration)
deriving DecidableEq, Inhabited

/-- The kind of value that a type is declared as. -/
def ScalarType.valueType : ScalarType → ValueType
  | .int _ => .int
  | .single => .float
  | .double => .float
  | .bool => .bool
  | .text => .text
  | .blob => .blob
  | .datetime => .datetime
  | .enumeration _ => .int

/-- The type of a field: a scalar type, possibly with room for no value at all. -/
structure FieldType where
  scalar : ScalarType
  nullable : Bool := false
deriving DecidableEq, Inhabited

/-- The kind of value that a field is declared as. -/
def FieldType.valueType (t : FieldType) : ValueType := t.scalar.valueType

/-! ## Values of a field -/

/-- A value of a field. -/
inductive Datum
  | absent
  | bool (b : Bool)
  | int (n : Int)
  | float (x : Double)
  | text (s : String)
  | blob (bytes : List UInt8)
  | datetime (t : DateTime)
deriving DecidableEq, Inhabited

/-- The value stored for a field's value; an integer too large for a column travels as text. -/
def Datum.toValue : Datum → Value
  | .absent => .null
  | .bool b => .bool b
  | .int n => (int64? n).elim (.text (intText n)) .int
  | .float x => .float x
  | .text s => .text s
  | .blob bytes => .blob bytes
  | .datetime t => .datetime t

/-- Whether a field's value belongs to a scalar type. -/
def ScalarType.Holds : ScalarType → Datum → Prop
  | .int k, .int n => k.Holds n
  | .single, .float x => x.toSingle = x
  | .double, .float _ => True
  | .bool, .bool _ => True
  | .text, .text _ => True
  | .blob, .blob _ => True
  | .datetime, .datetime _ => True
  | .enumeration e, .int n => ∃ c ∈ e.codes, c.toInt = n
  | _, _ => False

/-- Whether a field's value belongs to the type of a field. -/
def FieldType.Holds (t : FieldType) (d : Datum) : Prop :=
  (t.nullable = true ∧ d = .absent) ∨ t.scalar.Holds d

/-- The value that a type starts with: nothing where that is allowed, else zero, the empty text, the
start of 1970 or the first state. -/
def FieldType.default (t : FieldType) : Datum :=
  if t.nullable then .absent
  else match t.scalar with
    | .int _ => .int 0
    | .single => .float (.zero false)
    | .double => .float (.zero false)
    | .bool => .bool false
    | .text => .text ""
    | .blob => .blob []
    | .datetime => .datetime .epoch
    | .enumeration e => .int (e.codes.head?.elim 0 Int64.toInt)

/-! ## Why a value means nothing to a type -/

/-- Why a value has no meaning for a type. -/
inductive CoercionError
  | unexpectedNull (target : ValueType)
  | mismatch (found target : ValueType)
  | outOfRange (value : String) (target : String)
  | unreadable (text : String) (target : ValueType)
deriving DecidableEq, Inhabited

/-- The kind of a failed conversion. -/
def CoercionError.name : CoercionError → String
  | .unexpectedNull _ => "UnexpectedNull"
  | .mismatch .. => "Mismatch"
  | .outOfRange .. => "OutOfRange"
  | .unreadable .. => "Parse"

/-- The wording of a failed conversion. -/
def CoercionError.message : CoercionError → String
  | .unexpectedNull target => s!"null cannot be assigned to a non-nullable {target.name}"
  | .mismatch found target => s!"{found.name} cannot be converted to {target.name}"
  | .outOfRange value target => s!"value {value} is out of range for {target}"
  | .unreadable text target => s!"text '{text}' cannot be parsed as {target.name}"

/-- Whether the value was null where none may be. -/
def CoercionError.isNull : CoercionError → Bool
  | .unexpectedNull _ => true
  | _ => false

/-! ## Reading a value -/

/-- The integer that a float is, if it is whole and fits into 64 bits. -/
def readWholeFloat (x : Double) : Except CoercionError Int64 :=
  match x.toInt?.bind int64? with
  | some n => .ok n
  | none => .error (.outOfRange x.text "i64")

/-- A value as a 64-bit integer. A text is first taken as an integer and then as a float. -/
def readInt64 : Value → Except CoercionError Int64
  | .int n => .ok n
  | .bool b => .ok (if b then 1 else 0)
  | .float x => readWholeFloat x
  | .text s =>
    let cs := trim s.toList
    match (readInteger cs).bind int64? with
    | some n => .ok n
    | none =>
      match Double.ofChars? cs with
      | some x => readWholeFloat x
      | none => .error (.unreadable s .int)
  | .null => .error (.unexpectedNull .int)
  | v => .error (.mismatch v.type .int)

/-- A text of an unsigned 64-bit integer: an optional plus sign and digits. -/
def readUnsigned (cs : List Char) : Option Nat :=
  match cs with
  | '+' :: ds => (readNatural ds).filter (· < twoTo 64)
  | ds => (readNatural ds).filter (· < twoTo 64)

/-- A value as an integer of a type: through 64 bits, then checked against the bounds. -/
def IntKind.readThroughInt64 (k : IntKind) (v : Value) : Except CoercionError Int := do
  let n := (← readInt64 v).toInt
  if k.Holds n then return n else throw (.outOfRange (intText n) k.name)

/-- A value as an integer of a type. The widest unsigned type first reads a text on its own, since
it reaches past 64-bit integers. -/
def IntKind.read (k : IntKind) (v : Value) : Except CoercionError Int :=
  match k, v with
  | .uint64, .text s =>
    match readUnsigned (trim s.toList) with
    | some n => .ok n
    | none => k.readThroughInt64 v
  | _, _ => k.readThroughInt64 v

/-- A value as a float. -/
def readDouble : Value → Except CoercionError Double
  | .float x => .ok x
  | .int n => .ok (.ofInt n.toInt)
  | .bool b => .ok (.ofInt (if b then 1 else 0))
  | .text s =>
    match Double.ofChars? (trim s.toList) with
    | some x => .ok x
    | none => .error (.unreadable s .float)
  | .null => .error (.unexpectedNull .float)
  | v => .error (.mismatch v.type .float)

/-- A value as a truth value: any integer but zero is true, a text is `true`, `false`, `1` or `0`. -/
def readBool : Value → Except CoercionError Bool
  | .bool b => .ok b
  | .int n => .ok (n != 0)
  | .text s =>
    let word := String.ofList ((trim s.toList).map Char.toLower)
    if word = "true" ∨ word = "1" then .ok true
    else if word = "false" ∨ word = "0" then .ok false
    else .error (.unreadable s .bool)
  | .null => .error (.unexpectedNull .bool)
  | v => .error (.mismatch v.type .bool)

/-- A value as text: bytes have to be UTF-8, other values are displayed. -/
def readText : Value → Except CoercionError String
  | .text s => .ok s
  | .blob bytes =>
    match utf8Text? bytes with
    | some s => .ok s
    | none => .error (.mismatch .blob .text)
  | .null => .error (.unexpectedNull .text)
  | v => .ok v.display

/-- A value as bytes: a text gives its UTF-8 bytes. -/
def readBlob : Value → Except CoercionError (List UInt8)
  | .blob bytes => .ok bytes
  | .text s => .ok (utf8Bytes s)
  | .null => .error (.unexpectedNull .blob)
  | v => .error (.mismatch v.type .blob)

/-- A value as a datetime. -/
def readDateTime : Value → Except CoercionError DateTime
  | .datetime t => .ok t
  | .text s =>
    match DateTime.ofText? s with
    | some t => .ok t
    | none => .error (.unreadable s .datetime)
  | .null => .error (.unexpectedNull .datetime)
  | v => .error (.mismatch v.type .datetime)

/-- A value as the code of a state. -/
def Enumeration.read (e : Enumeration) (v : Value) : Except CoercionError Int := do
  let n ← readInt64 v
  if n ∈ e.codes then return n.toInt else throw (.outOfRange (intText n.toInt) e.name)

/-- What a value means to a scalar type. -/
def ScalarType.read (t : ScalarType) (v : Value) : Except CoercionError Datum :=
  match t with
  | .int k => (k.read v).map .int
  | .single => (readDouble v).map fun x => .float x.toSingle
  | .double => (readDouble v).map .float
  | .bool => (readBool v).map .bool
  | .text => (readText v).map .text
  | .blob => (readBlob v).map .blob
  | .datetime => (readDateTime v).map .datetime
  | .enumeration e => (e.read v).map .int

/-- What a value means to a field: null is no value where that is allowed. -/
def FieldType.read (t : FieldType) (v : Value) : Except CoercionError Datum :=
  match t.nullable, v with
  | true, .null => .ok .absent
  | _, v => t.scalar.read v

end EntityMapper
