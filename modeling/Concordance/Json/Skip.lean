import Concordance.Json.Reader

/-!
Skipping a value whose content does not matter. Its nesting may be of any depth, so the brackets that
are open are kept in a list.
-/

namespace Concordance.Json.Reader

/-- What a value that is being skipped is inside of. -/
inductive Frame where
  | list
  | object
deriving DecidableEq, Repr, Inhabited

namespace Frame

def closer : Frame → UInt8
  | list => 93
  | object => 125

def wantsComma : Frame → Cause
  | list => .expectedCommaInList
  | object => .expectedCommaInObject

def tooShort : Frame → Cause
  | list => .endInList
  | object => .endInObject

end Frame

/-- Skips what a backslash begins. -/
def skipEscape : Reader Unit := do
  match ← take with
  | none => failHere .endInString
  | some b =>
    if b = 117 then discard hexEscape
    else if (letterEscape b).isSome then pure ()
    else failHere .invalidEscape

/-- Skips a string whose opening quote has been passed. -/
def skipString : Nat → Reader Unit
  | 0 => failHere .endInString
  | fuel + 1 => do
    match ← peek with
    | none => failHere .endInString
    | some b =>
      if b < 32 then failHere .controlCharacter
      else
        pass
        if b = 34 then pure ()
        else
          if b = 92 then skipEscape
          skipString fuel

/-- Skips the exponent of a number. -/
def skipExponent : Reader Unit := do
  pass
  let sign ← peek
  if sign = some 43 ∨ sign = some 45 then pass
  match ← take with
  | none => failHere .invalidNumber
  | some b => if isDigit b then discard digits else failHere .invalidNumber

/-- Skips a number whose sign has been passed. -/
def skipNumber : Reader Unit := do
  match ← take with
  | none => failHere .invalidNumber
  | some b =>
    if !isDigit b then failHere .invalidNumber
    else
      if b = 48 then
        if (← peek).any isDigit then failNext .invalidNumber
      else discard digits
      if (← peek) = some 46 then
        pass
        if (← digits).isEmpty then failNext .invalidNumber
      let next ← peek
      if next = some 101 ∨ next = some 69 then skipExponent

/-- Skips the key of a member and the colon after it. -/
def skipKey : Reader Unit := do
  match ← blanks with
  | none => failHere .endInObject
  | some b =>
    if b ≠ 34 then failNext .expectedKey
    else
      pass
      skipString ((← left) + 1)
      match ← blanks with
      | none => failHere .endInObject
      | some c => if c = 58 then pass else failNext .expectedColon

/-- Skips the key that the next value of a frame has, if it has one. -/
def skipLabel : Frame → Reader Unit
  | .list => pure ()
  | .object => skipKey

/-- Skips a value that is no list and no object; tells which of those begins instead. -/
def skipScalar : Reader (Option Frame) := do
  match ← blanks with
  | none => failHere .endInValue
  | some b =>
    if b = 110 then do pass; word (ascii "ull"); pure none
    else if b = 116 then do pass; word (ascii "rue"); pure none
    else if b = 102 then do pass; word (ascii "alse"); pure none
    else if b = 45 then do pass; skipNumber; pure none
    else if isDigit b then do skipNumber; pure none
    else if b = 34 then do pass; skipString ((← left) + 1); pure none
    else if b = 91 then do pass; pure (some .list)
    else if b = 123 then do pass; pure (some .object)
    else failNext .expectedValue

mutual

/-- Skips a value and then what is left of the frames around it. -/
def skipWithin : Nat → List Frame → Reader Unit
  | 0, _ => failHere .endInValue
  | fuel + 1, frames => do
    match ← skipScalar with
    | none => skipAfter fuel frames
    | some frame =>
      match ← blanks with
      | none => failHere frame.tooShort
      | some b =>
        if b = frame.closer then do pass; skipAfter fuel frames
        else do skipLabel frame; skipWithin fuel (frame :: frames)

/-- Skips what is left of some frames after a value in the first of them. -/
def skipAfter : Nat → List Frame → Reader Unit
  | _, [] => pure ()
  | 0, _ => failHere .endInValue
  | fuel + 1, frame :: frames => do
    match ← blanks with
    | none => failHere frame.tooShort
    | some b =>
      if b = frame.closer then do pass; skipAfter fuel frames
      else if b = 44 then do pass; skipLabel frame; skipWithin fuel (frame :: frames)
      else failNext frame.wantsComma

end

/-- Skips a value. -/
def skip : Reader Unit := do skipWithin (2 * (← left) + 2) []

end Concordance.Json.Reader
