/-!
# JSON documents

Documents as they are read: members keep their order and may repeat a name. Numbers are told from
other values and nothing more, for no setting is a number. A string may hold escapes that stand for
no character, half of a surrogate pair being one; such a string is no text.
-/

namespace EntityMapper

/-- A part of a string: a character, or a unit of UTF-16 that was written as an escape. -/
inductive StringPart
  | plain (c : Char)
  | unit (n : Nat)
deriving DecidableEq, Repr

/-- The characters of a string, if all of its parts stand for some. -/
def StringPart.characters? : List StringPart → Option (List Char)
  | [] => some []
  | .plain c :: r => (characters? r).map (c :: ·)
  | .unit high :: r =>
    if 0xd800 ≤ high ∧ high < 0xdc00 then
      match r with
      | .unit low :: s =>
        if 0xdc00 ≤ low ∧ low < 0xe000 then
          (characters? s).map (Char.ofNat (0x10000 + (high - 0xd800) * 0x400 + (low - 0xdc00)) :: ·)
        else none
      | _ => none
    else if 0xdc00 ≤ high ∧ high < 0xe000 then none
    else (characters? r).map (Char.ofNat high :: ·)

/-- A document. -/
inductive Document
  | null
  | bool (b : Bool)
  | number
  | string (parts : List StringPart)
  | array (items : List Document)
  | object (members : List (List StringPart × Document))
deriving Inhabited

namespace Document

/-- The text that parts of a string stand for. -/
def textOf? (parts : List StringPart) : Option String :=
  (StringPart.characters? parts).map String.ofList

/-- The text of a string. -/
def text? : Document → Option String
  | .string parts => textOf? parts
  | _ => none

/-- The truth value that a document is. -/
def bool? : Document → Option Bool
  | .bool b => some b
  | _ => none

end Document

end EntityMapper
