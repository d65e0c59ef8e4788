/-!
Glob patterns for paths. `?` is a byte and `*` any bytes within a name, `**` between slashes is any
number of names, brackets hold a class, braces hold alternatives, and a backslash takes what follows as
it is. A pattern is a list of tokens, and a path matches if the tokens use up all of its bytes.
-/

namespace Concordance

/-- What a pattern cannot be. -/
inductive GlobError where
  | unclosedAlternatives
  | unopenedAlternatives
  | danglingEscape
  | invalidRange (low high : Char)
deriving DecidableEq, Repr

inductive GlobToken where
  | literal (c : Char)
  /-- One byte of a name. -/
  | one
  /-- Any bytes of a name. -/
  | star
  /-- Any names before a slash, or nothing. -/
  | deepFirst
  /-- A slash and all that follows. -/
  | deepLast
  /-- A slash, with any names after it up to another. -/
  | deepBetween
  | oneOf (negated : Bool) (ranges : List (Char × Char))
  | alternatives (branches : List (List GlobToken))

namespace GlobToken

instance : Inhabited GlobToken := ⟨star⟩

def isSeparator (c : Char) : Bool := c = '/'

end GlobToken

/-! ### Reading patterns -/

/-- A pattern while it is being read. The branches that are open are kept innermost and last first, each
with its tokens in reverse; for each brace that is open it is kept how many branches were open before. -/
structure GlobReader where
  rest : List Char
  previous : Option Char := none
  current : Option Char := none
  branches : List (List GlobToken) := [[]]
  braces : List Nat := []
  /-- A bracket without its partner was met; from there on brackets are ordinary. -/
  unclosed : Bool := false

namespace GlobReader

open GlobToken

/-- Passes a character. -/
def bump (r : GlobReader) : GlobReader :=
  { r with rest := r.rest.tail, previous := r.current, current := r.rest.head? }

def push (r : GlobReader) (t : GlobToken) : GlobReader :=
  match r.branches with
  | [] => { r with branches := [[t]] }
  | b :: more => { r with branches := (t :: b) :: more }

/-- The reader without its last token, which is told. -/
def pop (r : GlobReader) : Option GlobToken × GlobReader :=
  match r.branches with
  | (t :: b) :: more => (some t, { r with branches := b :: more })
  | _ => (none, r)

def hasTokens (r : GlobReader) : Bool :=
  match r.branches with
  | (_ :: _) :: _ => true
  | _ => false

def pushStars (r : GlobReader) : GlobReader := (r.push .star).push .star

/-- Reads a second star at the start of a branch. -/
def leadingStars (r : GlobReader) : GlobReader :=
  if r.rest.head?.all isSeparator then (r.push .deepFirst).bump else r.pushStars

/-- Puts what stands for `**` after a slash in place of the slash. -/
def deepen (r : GlobReader) (last : Bool) : GlobReader :=
  match r.pop with
  | (some .deepFirst, r) => r.push .deepFirst
  | (some .deepLast, r) => r.push .deepLast
  | (_, r) => r.push (if last then .deepLast else .deepBetween)

/-- Reads what follows a star. -/
def star (r : GlobReader) : GlobReader :=
  let before := r.previous
  if r.rest.head? ≠ some '*' then r.push .star
  else
    let r := r.bump
    if !r.hasTokens then r.leadingStars
    else if !before.any isSeparator && (r.branches.length ≤ 1 || !before.any fun c => c = ',' || c = '\x7b')
    then r.pushStars
    else match r.rest.head? with
      | none => r.bump.deepen true
      | some c =>
        if (c = ',' || c = '\x7d') && 2 ≤ r.branches.length then r.deepen true
        else if isSeparator c then r.bump.deepen false
        else r.pushStars

/-- Ranges with the last one reaching up to a character. -/
def extendLast (ranges : List (Char × Char)) (c : Char) : Except GlobError (List (Char × Char)) :=
  match ranges with
  | [] => .ok [(c, c)]
  | (low, _) :: more => if c < low then .error (.invalidRange low c) else .ok ((low, c) :: more)

/-- The class that follows a bracket, with its ranges last first, and how many characters it takes;
nothing if it does not end. -/
def classRanges (taken : Nat) (first inRange : Bool) (ranges : List (Char × Char)) :
    List Char → Except GlobError (Option (List (Char × Char) × Nat))
  | [] => .ok none
  | c :: rest =>
    if c = ']' && !first then
      .ok (some (if inRange then ('-', '-') :: ranges else ranges, taken + 1))
    else if c = ']' then classRanges (taken + 1) false inRange ((']', ']') :: ranges) rest
    else if c = '-' && first then classRanges (taken + 1) false inRange (('-', '-') :: ranges) rest
    else if c = '-' && !inRange then classRanges (taken + 1) false true ranges rest
    else if inRange then
      match extendLast ranges c with
      | .ok ranges => classRanges (taken + 1) false false ranges rest
      | .error e => .error e
    else classRanges (taken + 1) false false ((c, c) :: ranges) rest

/-- Passes some characters. -/
def bumps : Nat → GlobReader → GlobReader
  | 0, r => r
  | n + 1, r => bumps n r.bump

/-- Reads what follows a bracket. -/
def bracket (r : GlobReader) : Except GlobError GlobReader := do
  let negated := r.rest.head? = some '!' || r.rest.head? = some '^'
  let body := if negated then r.rest.tail else r.rest
  match ← classRanges (if negated then 1 else 0) true false [] body with
  | some (ranges, taken) => pure ((bumps taken r).push (.oneOf negated ranges.reverse))
  | none => pure { r.push (.literal '[') with unclosed := true }

/-- Reads a character that has been passed, and what belongs to it. -/
def step (r : GlobReader) (c : Char) : Except GlobError GlobReader :=
  match c with
  | '?' => .ok (r.push .one)
  | '*' => .ok r.star
  | '\x7b' => .ok { r with braces := r.branches.length :: r.braces, branches := [] :: r.branches }
  | '\x7d' => match r.braces with
    | [] => .error .unopenedAlternatives
    | before :: braces =>
      let inside := r.branches.take (r.branches.length - before)
      let outside := r.branches.drop (r.branches.length - before)
      .ok ({ r with braces := braces, branches := outside }.push
        (.alternatives (inside.reverse.map List.reverse)))
  | ',' => .ok (if r.braces.isEmpty then r.push (.literal ',')
      else { r with branches := [] :: r.branches })
  | '\\' => match r.rest with
    | [] => .error .danglingEscape
    | d :: _ => .ok (r.bump.push (.literal d))
  | '[' => if r.unclosed then .ok (r.push (.literal '[')) else r.bracket
  | c => .ok (r.push (.literal c))

/-- Reads to the end of the pattern. The first number bounds the steps. -/
def readAll : Nat → GlobReader → Except GlobError GlobReader
  | 0, r => .ok r
  | fuel + 1, r => match r.rest with
    | [] => .ok r
    | c :: _ => do
      let r ← r.bump.step c
      readAll fuel r

end GlobReader

/-- A glob pattern. -/
structure Glob where
  tokens : List GlobToken

namespace Glob

/-- Reads a pattern. -/
def read (text : List Char) : Except GlobError Glob := do
  let r ← GlobReader.readAll (text.length + 1) { rest := text }
  match r.branches with
  | [tokens] => pure ⟨tokens.reverse⟩
  | _ => .error .unclosedAlternatives

end Glob

/-! ### Classes of bytes -/

/-- The bytes of a character. -/
def charBytes (c : Char) : List UInt8 := String.utf8EncodeChar c

/-- The bytes that a class stands for, as ranges. A class is one of bytes: of a range whose ends take
several bytes, only the last byte of the one and the first of the other span a range. -/
def byteRanges : List (Char × Char) → List (UInt8 × UInt8)
  | [] => []
  | (low, high) :: rest =>
    let single (b : UInt8) := (b, b)
    let these :=
      if low = high then (charBytes low).map single
      else
        ((charBytes low).dropLast).map single ++
          [((charBytes low).getLastD 0, (charBytes high).headD 0)] ++
          (charBytes high).tail.map single
    these ++ byteRanges rest

/-! ### Matching -/

namespace GlobToken

def slash : UInt8 := 47

/-- Any bytes, then `next`. -/
def anyThen (next : List UInt8 → Bool) : List UInt8 → Bool
  | [] => next []
  | b :: rest => next (b :: rest) || anyThen next rest

/-- Any bytes of a name, then `next`. -/
def starThen (next : List UInt8 → Bool) : List UInt8 → Bool
  | [] => next []
  | b :: rest => next (b :: rest) || (b ≠ slash && starThen next rest)

/-- Any bytes that end with a slash, then `next`. -/
def namesThen (next : List UInt8 → Bool) : List UInt8 → Bool
  | [] => false
  | b :: rest => (b = slash && next rest) || namesThen next rest

/-- The given bytes, then `next`. -/
def bytesThen (next : List UInt8 → Bool) : List UInt8 → List UInt8 → Bool
  | [], bs => next bs
  | _ :: _, [] => false
  | a :: as, b :: bs => a = b && bytesThen next as bs

/-- One byte with a property, then `next`. -/
def byteThen (p : UInt8 → Bool) (next : List UInt8 → Bool) : List UInt8 → Bool
  | [] => false
  | b :: rest => p b && next rest

mutual

/-- Whether a token can stand for nothing only. -/
def isVoid : GlobToken → Bool
  | .alternatives branches => areVoid branches
  | _ => false

/-- Whether all tokens of a branch can stand for nothing only. -/
def isVoidBranch : List GlobToken → Bool
  | [] => true
  | t :: rest => t.isVoid && isVoidBranch rest

def areVoid : List (List GlobToken) → Bool
  | [] => true
  | b :: rest => isVoidBranch b && areVoid rest

end

mutual

/-- Whether a token takes bytes off the front such that `next` takes the rest. -/
def accepts (next : List UInt8 → Bool) : GlobToken → List UInt8 → Bool
  | .literal c, bs => bytesThen next (charBytes c) bs
  | .one, bs => byteThen (· ≠ slash) next bs
  | .star, bs => starThen next bs
  | .deepFirst, bs => next bs || namesThen next bs
  | .deepLast, bs => byteThen (· = slash) (anyThen next) bs
  | .deepBetween, bs => byteThen (· = slash) (fun bs => next bs || namesThen next bs) bs
  | .oneOf negated ranges, bs =>
    byteThen (fun b => (byteRanges ranges).any (fun r => r.1 ≤ b && b ≤ r.2) != negated) next bs
  | .alternatives branches, bs => (areVoid branches && next bs) || anyAccepts next branches bs

/-- Whether the tokens of a branch take bytes off the front such that `next` takes the rest. -/
def allAccept (next : List UInt8 → Bool) : List GlobToken → List UInt8 → Bool
  | [], bs => next bs
  | t :: rest, bs => accepts (fun bs => allAccept next rest bs) t bs

/-- Whether one of the branches that do not stand for nothing does so. -/
def anyAccepts (next : List UInt8 → Bool) : List (List GlobToken) → List UInt8 → Bool
  | [], _ => false
  | b :: rest, bs => (!isVoidBranch b && allAccept next b bs) || anyAccepts next rest bs

end

mutual

/-- Whether the classes in a token can be told in bytes. -/
def isSound : GlobToken → Bool
  | .oneOf _ ranges => (byteRanges ranges).all fun r => r.1 ≤ r.2
  | .alternatives branches => areSound branches
  | _ => true

def isSoundBranch : List GlobToken → Bool
  | [] => true
  | t :: rest => t.isSound && isSoundBranch rest

def areSound : List (List GlobToken) → Bool
  | [] => true
  | b :: rest => isSoundBranch b && areSound rest

end

end GlobToken

namespace Glob

/-- Whether the classes of a pattern can be told in bytes. -/
def isSound (g : Glob) : Bool := GlobToken.isSoundBranch g.tokens

/-- Whether a path matches. A pattern of `**` alone matches every path. -/
def matchesBytes (g : Glob) (path : List UInt8) : Bool :=
  match g.tokens with
  | [.deepFirst] => true
  | tokens => GlobToken.allAccept List.isEmpty tokens path

end Glob

end Concordance
