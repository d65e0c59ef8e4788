import Concordance.Workspace.Glob

/-!
Ignore files. Each line is a rule: a pattern with a verdict on the paths below the file's folder that
match it. The last rule of a file that matches decides, the file in the nearest folder comes before
those further up, and of the kinds of ignore files the first that has something to say counts.
-/

namespace Concordance

/-- What a rule says of a path that it matches. -/
inductive Verdict where
  | ignored
  | allowed
deriving DecidableEq, Repr, Inhabited

structure IgnoreRule where
  glob : Glob
  verdict : Verdict
  /-- The rule is about folders only. -/
  onlyFolders : Bool

namespace IgnoreRule

/-! ### Reading -/

/-- White space of any script. -/
def isBlank (c : Char) : Bool :=
  let n := c.toNat
  (9 ≤ n && n ≤ 13) || n = 0x20 || n = 0x85 || n = 0xa0 || n = 0x1680 || (0x2000 ≤ n && n ≤ 0x200a) ||
    n = 0x2028 || n = 0x2029 || n = 0x202f || n = 0x205f || n = 0x3000

/-- A line without the white space at its end, unless a backslash holds its last blank. -/
def trimmed (line : List Char) : List Char :=
  if ['\\', ' '].isSuffixOf line then line else (line.reverse.dropWhile isBlank).reverse

/-- A pattern that is anchored to the folder if it has a slash in it, and matches at any depth if not. -/
def anchored (absolute : Bool) (pattern : List Char) : List Char :=
  if absolute || pattern.contains '/' || pattern = ['*', '*'] then pattern
  else ['*', '*', '/'] ++ pattern

/-- A pattern that ends with `/**` is about what is inside, so one more name has to follow. -/
def inside (pattern : List Char) : List Char :=
  if ['/', '*', '*'].isSuffixOf pattern then pattern ++ ['/', '*'] else pattern

/-- A pattern without the slash at its end and the backslash that may stand before it, if it has one. -/
def withoutSlash? (pattern : List Char) : Option (List Char) :=
  match pattern.reverse with
  | '/' :: '\\' :: rest | '/' :: rest => some rest.reverse
  | _ => none

/-- The rule that a line writes; blank lines, remarks and malformed patterns write none. -/
def ofLine? (line : List Char) : Option IgnoreRule :=
  let line := trimmed line
  if line.isEmpty || line.head? = some '#' then none
  else
    let (verdict, absolute, pattern) : Verdict × Bool × List Char := match line with
      | '\\' :: '!' :: rest => (.ignored, false, '!' :: rest)
      | '\\' :: '#' :: rest => (.ignored, false, '#' :: rest)
      | '!' :: '/' :: rest => (.allowed, true, rest)
      | '!' :: rest => (.allowed, false, rest)
      | '/' :: rest => (.ignored, true, rest)
      | line => (.ignored, false, line)
    let (onlyFolders, pattern) := match withoutSlash? pattern with
      | some p => (true, p)
      | none => (false, pattern)
    match Glob.read (inside (anchored absolute pattern)) with
    | .ok glob => some { glob, verdict, onlyFolders }
    | .error _ => none

/-- The lines of a file. A return before a line break belongs to the break. -/
def lines : List UInt8 → List (List UInt8)
  | [] => []
  | b :: rest =>
    if b = 10 then [] :: lines rest
    else if b = 13 && rest.head? = some 10 then lines rest
    else match lines rest with
      | [] => [[b]]
      | line :: more => (b :: line) :: more

/-- The lines as texts, up to the first that is no text. -/
def texts : List (List UInt8) → List (List Char)
  | [] => []
  | line :: rest => match String.fromUTF8? ⟨line.toArray⟩ with
    | some s => s.toList :: texts rest
    | none => []

/-- Lines without the marks of byte order that the first may begin with. -/
def unmarked : List (List Char) → List (List Char)
  | [] => []
  | line :: rest => line.dropWhile (· = '\ufeff') :: rest

/-- The rules of a file. A class that cannot be told in bytes spoils the whole file. -/
def ofFile (content : ByteArray) : List IgnoreRule :=
  let rules := (unmarked (texts (lines content.toList))).filterMap ofLine?
  if rules.all fun r => r.glob.isSound then rules else []

/-! ### Deciding -/

/-- The bytes of a path. -/
def pathBytes (path : List String) : List UInt8 := ("/".intercalate path).toUTF8.toList

def applies (r : IgnoreRule) (path : List String) (folder : Bool) : Bool :=
  (!r.onlyFolders || folder) && r.glob.matchesBytes (pathBytes path)

/-- What the rules of a file say of a path below its folder. -/
def decide? (rules : List IgnoreRule) (path : List String) (folder : Bool) : Option Verdict :=
  (rules.reverse.find? fun r => r.applies path folder).map fun r => r.verdict

end IgnoreRule

/-- The rules in the ignore files of one folder, which is `depth` names below the top. -/
structure IgnoreLayer where
  depth : Nat
  plain : List IgnoreRule
  git : List IgnoreRule
  exclude : List IgnoreRule

namespace IgnoreLayer

/-- What the nearest folder that says something says of a path. -/
def firstVerdict (layers : List IgnoreLayer) (rules : IgnoreLayer → List IgnoreRule)
    (path : List String) (folder : Bool) : Option Verdict :=
  layers.findSome? fun l => IgnoreRule.decide? (rules l) (path.drop l.depth) folder

/-- What the ignore files of some folders, nearest first, say of a path from the top. -/
def verdict? (layers : List IgnoreLayer) (path : List String) (folder : Bool) : Option Verdict :=
  (firstVerdict layers plain path folder).or
    ((firstVerdict layers git path folder).or (firstVerdict layers exclude path folder))

end IgnoreLayer

end Concordance
