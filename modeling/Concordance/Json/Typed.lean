import Concordance.Json.Number
import Concordance.Json.Skip

/-!
Reading values of known types. A record may be given as an object, in any order and with members that
are not its own, or as the list of its fields in order.
-/

namespace Concordance.Json

namespace Reader

/-- Fails because what comes next is not what is expected. -/
def wrongType {α : Type} (expected : String) : Reader α := placed do
  match ← peek with
  | none => failNext .expectedValue
  | some b =>
    if b = 110 then do pass; word (ascii "ull"); reject (.invalidType .null expected)
    else if b = 116 then do
      pass; word (ascii "rue"); reject (.invalidType (.boolean true) expected)
    else if b = 102 then do
      pass; word (ascii "alse"); reject (.invalidType (.boolean false) expected)
    else if b = 45 then do
      pass; reject (.invalidType (← number false).found expected)
    else if isDigit b then do reject (.invalidType (← number true).found expected)
    else if b = 34 then do pass; reject (.invalidType (.string (← quoted)) expected)
    else if b = 91 then reject (.invalidType .sequence expected)
    else if b = 123 then reject (.invalidType .map expected)
    else failNext .expectedValue

/-- A natural number that `accept` takes. -/
def natural {α : Type} (expected : String) (accept : UInt64 → Option α) : Reader α := placed do
  let visit (n : Number) : Reader α := match n with
    | .natural v => match accept v with
      | some a => pure a
      | none => reject (.invalidValue n.found expected)
    | .negative _ => reject (.invalidValue n.found expected)
    | .float _ => reject (.invalidType n.found expected)
  match ← blanks with
  | none => failNext .endInValue
  | some b =>
    if b = 45 then do pass; visit (← number false)
    else if isDigit b then do visit (← number true)
    else wrongType expected

/-- A 64-bit word. -/
def word64 : Reader UInt64 := natural "u64" some

/-- A 64-bit word that counts something. -/
def count64 : Reader UInt64 := natural "usize" some

/-- A 32-bit word. -/
def word32 : Reader UInt32 :=
  natural "u32" fun n => if n.toNat < 0x100000000 then some n.toUInt32 else none

def boolean : Reader Bool := placed do
  match ← blanks with
  | none => failNext .endInValue
  | some b =>
    if b = 116 then do pass; word (ascii "rue"); pure true
    else if b = 102 then do pass; word (ascii "alse"); pure false
    else wrongType "a boolean"

/-- A string that `accept` takes. -/
def stringAs {α : Type} (expected : String) (accept : String → Except Cause α) : Reader α :=
  placed do
    match ← blanks with
    | none => failNext .endInValue
    | some b =>
      if b = 34 then
        pass
        match accept (← quoted) with
        | .ok a => pure a
        | .error cause => reject cause
      else wrongType expected

def string : Reader String := stringAs "a string" .ok

/-- Nothing. -/
def unit : Reader Unit := placed do
  match ← blanks with
  | none => failNext .endInValue
  | some b => if b = 110 then do pass; word (ascii "ull") else wrongType "unit"

/-- Passes the colon after a key. -/
def colon : Reader Unit := do
  match ← blanks with
  | none => failNext .endInObject
  | some b => if b = 58 then pass else failNext .expectedColon

/-! ### Lists -/

/-- Whether a list has another item. -/
def hasItem (first : Bool) : Reader Bool := do
  match ← blanks with
  | none => failNext .endInList
  | some b =>
    if b = 93 then pure false
    else if first then pure true
    else if b = 44 then
      pass
      match ← blanks with
      | none => failNext .endInValue
      | some c => if c = 93 then failNext .trailingComma else pure true
    else failNext .expectedCommaInList

/-- Passes the end of a list. -/
def endList : Reader Unit := do
  match ← blanks with
  | none => failNext .endInList
  | some b =>
    if b = 93 then pass
    else if b = 44 then
      pass
      if (← blanks) = some 93 then failNext .trailingComma else failNext .trailingCharacters
    else failNext .trailingCharacters

/-- The items of a list after those read already. -/
def items {α : Type} (item : Reader α) : Nat → List α → Reader (List α)
  | 0, _ => failNext .endInList
  | fuel + 1, before => do
    if ← hasItem before.isEmpty then items item fuel ((← item) :: before)
    else pure before.reverse

/-- A list. -/
def list {α : Type} (item : Reader α) : Reader (List α) := placed do
  match ← blanks with
  | none => failNext .endInValue
  | some b =>
    if b = 91 then
      pass
      closing (do items item ((← left) + 1) []) endList
    else wrongType "a sequence"

/-! ### Choices -/

/-- The name of one of some choices. -/
def choiceName {α : Type} (choices : List (String × α)) : Reader α :=
  stringAs "variant identifier" fun name =>
    match choices.find? fun c => c.1 = name with
    | some c => .ok c.2
    | none => .error (.unknownVariant name (choices.map Prod.fst))

/-- One of some choices, by its name or by an object with its name as the only key and nothing in it. -/
def choice {α : Type} (choices : List (String × α)) : Reader α := do
  match ← blanks with
  | none => failNext .endInValue
  | some b =>
    if b = 34 then choiceName choices
    else if b = 123 then
      pass
      let a ← choiceName choices
      colon
      unit
      match ← blanks with
      | none => failHere .endInObject
      | some c => if c = 125 then do pass; pure a else failHere .expectedValue
    else failNext .expectedValue

end Reader

/-! ### Records -/

/-- A field of a record: how its value is read into a record that is being put together. -/
structure RecordField (α : Type) where
  name : String
  read : Reader (α → α)
  required : Bool := true

/-- How a record is read: from a blank record, field by field. -/
structure RecordForm (α : Type) where
  name : String
  blank : α
  fields : List (RecordField α)

namespace RecordForm

variable {α : Type}

/-- What a list that is too short was expected to be. -/
def ofLength (form : RecordForm α) : String :=
  "struct " ++ form.name ++ " with " ++ toString form.fields.length ++
    (if form.fields.length = 1 then " element" else " elements")

/-- The fields of a record given as a list, from the `i`-th on. -/
def readItems (form : RecordForm α) (i : Nat) : List (RecordField α) → α → Reader α
  | [], a => pure a
  | f :: rest, a => do
    if ← Reader.hasItem (i = 0) then
      let set ← f.read
      form.readItems (i + 1) rest (set a)
    else if f.required then Reader.reject (.invalidLength i form.ofLength)
    else form.readItems (i + 1) rest a

/-- Whether an object has another member; its key's opening quote comes next then. -/
def hasMember (first : Bool) : Reader Bool := do
  match ← Reader.blanks with
  | none => Reader.failNext .endInObject
  | some b =>
    if b = 125 then pure false
    else if first then
      if b = 34 then pure true else Reader.failNext .expectedKey
    else if b = 44 then
      Reader.pass
      match ← Reader.blanks with
      | none => Reader.failNext .endInValue
      | some c =>
        if c = 34 then pure true
        else if c = 125 then Reader.failNext .trailingComma
        else Reader.failNext .expectedKey
    else Reader.failNext .expectedCommaInObject

/-- Passes the end of an object. -/
def endObject : Reader Unit := do
  match ← Reader.blanks with
  | none => Reader.failNext .endInObject
  | some b =>
    if b = 125 then Reader.pass
    else if b = 44 then Reader.failNext .trailingComma
    else Reader.failNext .trailingCharacters

/-- A record all of whose members have been read, if it has the fields it must have. -/
def finish (form : RecordForm α) (seen : List String) (a : α) : Reader α :=
  match form.fields.find? fun f => f.required && !seen.contains f.name with
  | none => pure a
  | some f => Reader.reject (.missingField f.name)

/-- The members of an object, after those whose names are given. -/
def readMembers (form : RecordForm α) : Nat → Bool → List String → α → Reader α
  | 0, _, _, _ => Reader.failNext .endInObject
  | fuel + 1, first, seen, a => do
    if ← hasMember first then
      Reader.pass
      let key ← Reader.quoted
      match form.fields.find? fun f => f.name = key with
      | none =>
        Reader.colon
        Reader.skip
        form.readMembers fuel false seen a
      | some f =>
        if seen.contains key then Reader.reject (.duplicateField key)
        else
          Reader.colon
          let set ← f.read
          form.readMembers fuel false (key :: seen) (set a)
    else form.finish seen a

/-- A record. -/
def reader (form : RecordForm α) : Reader α := Reader.placed do
  match ← Reader.blanks with
  | none => Reader.failNext .endInValue
  | some b =>
    if b = 91 then
      Reader.pass
      Reader.closing (form.readItems 0 form.fields form.blank) Reader.endList
    else if b = 123 then
      Reader.pass
      Reader.closing (do form.readMembers ((← Reader.left) + 1) true [] form.blank) endObject
    else Reader.wrongType ("struct " ++ form.name)

end RecordForm

/-- The end of the text, but for white space. -/
def Reader.endOfText : Reader Unit := do
  if (← Reader.blanks).isSome then Reader.failNext .trailingCharacters

/-- Reads a text that holds one value. -/
def Reader.readBytes {α : Type} (r : Reader α) (bytes : List UInt8) : Except ReadError α :=
  match (do let a ← r; Reader.endOfText; pure a : Reader α) bytes with
  | .ok a _ => .ok a
  | .error f _ => .error (f.inText bytes)

/-- Reads a text that holds one value. -/
def Reader.read {α : Type} (r : Reader α) (text : String) : Except ReadError α :=
  r.readBytes text.toUTF8.toList

end Concordance.Json
