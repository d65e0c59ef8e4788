import Concordance.Json.Fault

/-!
Readers take what they read off the front of a list of bytes. What is left is known also after a
failure, since a fault can be placed only when the reading of the value around it has ended.
-/

namespace Concordance.Json

abbrev Reader := EStateM Fault (List UInt8)

namespace Reader

/-! ### Failing -/

/-- Fails where the reader stands. -/
def failHere {α : Type} (cause : Cause) : Reader α := fun rest => .error ⟨cause, rest.length⟩ rest

/-- Fails at the byte that comes next. -/
def failNext {α : Type} (cause : Cause) : Reader α :=
  fun rest => .error ⟨cause, some (rest.length - 1)⟩ rest

/-- Fails, and leaves it to the value around to say where. -/
def reject {α : Type} (cause : Cause) : Reader α := fun rest => .error ⟨cause, none⟩ rest

/-- Places a fault of the reader that has no place yet where it stopped. -/
def placed {α : Type} (r : Reader α) : Reader α := fun rest =>
  match r rest with
  | .ok a rest => .ok a rest
  | .error f rest => .error ⟨f.cause, f.left.getD rest.length⟩ rest

/-- Reads what closes a value even if reading the value failed. -/
def closing {α : Type} (r : Reader α) (stop : Reader Unit) : Reader α := fun rest =>
  match r rest with
  | .ok a rest => match stop rest with
    | .ok _ rest => .ok a rest
    | .error f rest => .error f rest
  | .error f rest => match stop rest with
    | .ok _ rest | .error _ rest => .error f rest

/-! ### Bytes -/

/-- The byte that comes next. -/
def peek : Reader (Option UInt8) := fun rest => .ok rest.head? rest

/-- Passes a byte. -/
def pass : Reader Unit := fun rest => .ok () rest.tail

/-- The byte that comes next, which is passed. -/
def take : Reader (Option UInt8) := fun rest => .ok rest.head? rest.tail

/-- The number of bytes left. -/
def left : Reader Nat := fun rest => .ok rest.length rest

def isBlank (b : UInt8) : Bool := b = 32 || b = 10 || b = 9 || b = 13

def isDigit (b : UInt8) : Bool := 48 ≤ b && b ≤ 57

def digitValue (b : UInt8) : Nat := (b - 48).toNat

/-- Passes white space, and tells which byte comes next. -/
def blanks : Reader (Option UInt8) := fun rest =>
  let rest := rest.dropWhile isBlank
  .ok rest.head? rest

/-- Passes digits. -/
def digits : Reader (List UInt8) := fun rest => .ok (rest.takeWhile isDigit) (rest.dropWhile isDigit)

/-- The bytes of an ASCII text. -/
def ascii (s : String) : List UInt8 := s.toList.map fun c => c.toUInt8

/-- Passes the rest of a word. -/
def word : List UInt8 → Reader Unit
  | [] => pure ()
  | b :: bs => do
    match ← take with
    | none => failHere .endInValue
    | some c => if c = b then word bs else failHere .expectedWord

/-! ### Strings -/

def hexValue (b : UInt8) : Option Nat :=
  if isDigit b then some (digitValue b)
  else if 97 ≤ b && b ≤ 102 then some ((b - 97).toNat + 10)
  else if 65 ≤ b && b ≤ 70 then some ((b - 65).toNat + 10)
  else none

/-- The number that four digits write. -/
def hexNumber (bs : List UInt8) : Option Nat :=
  bs.foldl (fun n b => n.bind fun n => (hexValue b).map fun d => 16 * n + d) (some 0)

/-- The number of an escape in hexadecimal digits. -/
def hexEscape : Reader Nat := fun rest =>
  if rest.length < 4 then failHere .endInString []
  else match hexNumber (rest.take 4) with
    | some n => .ok n (rest.drop 4)
    | none => failHere .invalidEscape (rest.drop 4)

/-- The bytes of a code point. -/
def codePoint (n : Nat) : List UInt8 := String.utf8EncodeChar (Char.ofNat n)

/-- What stands between the halves of a surrogate pair. -/
def pairMark (b : UInt8) : Reader Unit := do
  match ← take with
  | none => failHere .endInString
  | some c => if c = b then pure () else failHere .endOfEscape

/-- A code point in hexadecimal digits, or a pair of surrogates for one. -/
def unicodeEscape : Reader (List UInt8) := do
  let first ← hexEscape
  if 0xdc00 ≤ first ∧ first ≤ 0xdfff then failHere .loneSurrogate
  else if first < 0xd800 ∨ 0xdbff < first then pure (codePoint first)
  else
    pairMark 92
    pairMark 117
    let second ← hexEscape
    if second < 0xdc00 ∨ 0xdfff < second then failHere .loneSurrogate
    else pure (codePoint (0x10000 + (first - 0xd800) * 0x400 + (second - 0xdc00)))

/-- What a letter after a backslash stands for. -/
def letterEscape (b : UInt8) : Option UInt8 :=
  if b = 34 || b = 92 || b = 47 then some b
  else if b = 98 then some 8
  else if b = 102 then some 12
  else if b = 110 then some 10
  else if b = 114 then some 13
  else if b = 116 then some 9
  else none

/-- The bytes that stand for what follows a backslash. -/
def escape : Reader (List UInt8) := do
  match ← take with
  | none => failHere .endInString
  | some b =>
    if b = 117 then unicodeEscape
    else match letterEscape b with
      | some c => pure [c]
      | none => failHere .invalidEscape

/-- The next bytes of a string; none at its closing quote, which is left. -/
def piece : Reader (Option (List UInt8)) := do
  match ← peek with
  | none => failHere .endInString
  | some b =>
    if b = 34 then pure none
    else
      pass
      if b = 92 then some <$> escape
      else if b < 32 then failHere .controlCharacter
      else pure (some [b])

/-- The bytes of a string up to its closing quote, after those read already. The first number bounds
the pieces. -/
def pieces : Nat → List UInt8 → Reader (List UInt8)
  | 0, _ => failHere .endInString
  | fuel + 1, before => do
    match ← piece with
    | none => pure before.reverse
    | some bytes => pieces fuel (bytes.reverse ++ before)

/-- A string whose opening quote has been passed. -/
def quoted : Reader String := do
  let bytes ← pieces ((← left) + 1) []
  match String.fromUTF8? ⟨bytes.toArray⟩ with
  | some s => do pass; pure s
  | none => failHere .invalidCodePoint

end Reader

end Concordance.Json
