/-!
Paths as texts: a path is cut at its slashes, and empty pieces and inner dots do not count.
-/

namespace Concordance.Path

/-- One step of a path. -/
inductive Component where
  /-- A leading slash. -/
  | root
  /-- A leading dot. -/
  | here
  /-- Two dots. -/
  | up
  | name (text : String)
deriving DecidableEq, Repr, Inhabited

/-- The pieces between slashes. -/
def pieces : List Char → List (List Char)
  | [] => [[]]
  | c :: rest =>
    if c = '/' then [] :: pieces rest
    else match pieces rest with
      | p :: ps => (c :: p) :: ps
      | [] => [[c]]

/-- What a piece stands for after the first one. -/
def ofPiece : List Char → Option Component
  | [] => none
  | ['.'] => none
  | ['.', '.'] => some .up
  | p => some (.name (String.ofList p))

/-- What the first piece stands for. -/
def ofFirstPiece : List Char → Option Component
  | [] => none
  | ['.'] => some .here
  | p => ofPiece p

/-- The steps of a path. -/
def components (path : String) : List Component :=
  match path.toList with
  | '/' :: rest => .root :: (pieces rest).filterMap ofPiece
  | cs => match pieces cs with
    | p :: ps => (ofFirstPiece p).toList ++ ps.filterMap ofPiece
    | [] => []

/-- Whether a piece says nothing about where the path leads. -/
def isIdle (piece : List Char) : Bool := piece = [] || piece = ['.']

/-- Whether a path ends with a slash or a dot, or is empty: it can only lead to a folder. -/
def endsIdle (path : String) : Bool := (pieces path.toList).getLast?.any isIdle

/-- Whether a path ends with a dot, but for slashes after it. -/
def endsHere (path : String) : Bool := (pieces path.toList).reverse.find? (· ≠ []) = some ['.']

/-- What is left of some pieces after steps with the given texts. -/
def afterSteps : List (List Char) → List (List Char) → Option (List (List Char))
  | [], pieces => some pieces
  | _ :: _, [] => none
  | s :: steps, p :: pieces =>
    if isIdle p then afterSteps (s :: steps) pieces
    else if p = s then afterSteps steps pieces
    else none

/-- The rest of an absolute path below another, as it is written, but for idle pieces at its ends. -/
def below? (root path : String) : Option String :=
  match root.toList, path.toList with
  | '/' :: root, '/' :: path =>
    (afterSteps ((pieces root).filter fun p => !isIdle p) (pieces path)).map fun rest =>
      let rest := ((rest.dropWhile isIdle).reverse.dropWhile isIdle).reverse
      String.ofList (['/'].intercalate rest)
  | _, _ => none

/-- The name a path ends with, if it ends with one. -/
def fileName? (path : String) : Option String :=
  match (components path).getLast? with
  | some (.name n) => some n
  | _ => none

/-- The part of a name after its last dot, if the dot is not the first character. -/
def extensionOf (name : String) : Option String :=
  let cs := name.toList
  let after := (cs.reverse.takeWhile (· ≠ '.')).reverse
  let before := cs.length - after.length
  if before ≤ 1 then none else some (String.ofList after)

/-- The extension of the name that a path ends with. -/
def extension? (path : String) : Option String := (fileName? path).bind extensionOf

/-- Equal but for the case of ASCII letters. -/
def eqIgnoreCase (a b : String) : Bool := a.toList.map Char.toLower == b.toList.map Char.toLower

/-- Whether a path has one of the extensions. -/
def hasExtension (extensions : List String) (path : String) : Bool :=
  (extension? path).any fun e => extensions.any fun wanted => eqIgnoreCase wanted e

end Concordance.Path
