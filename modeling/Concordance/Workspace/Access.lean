import Concordance.Text.Path
import Concordance.Workspace.Ignore
import Concordance.Workspace.Tree

/-!
Getting at the files of a workspace by path, the way a file system does it: links are followed, up to
a limit, and a path that leads nowhere fails with the reason.

A workspace is a root in a whole file system. The root is told by the names on the way to it, of which any
may be a link, and relative paths are taken from it.
-/

namespace Concordance

/-- Why a path cannot be read, written or entered. -/
inductive IoError where
  | notFound
  | alreadyExists
  | notDirectory
  | isDirectory
  | nameTooLong
  | tooManyLinks
  /-- A path with a NUL character in it. -/
  | nulInPath
  /-- The root of a workspace is no folder. -/
  | noWorkspace (root : String)
deriving DecidableEq, Repr

def IoError.message : IoError → String
  | notFound => "No such file or directory (os error 2)"
  | alreadyExists => "File exists (os error 17)"
  | notDirectory => "Not a directory (os error 20)"
  | isDirectory => "Is a directory (os error 21)"
  | nameTooLong => "File name too long (os error 36)"
  | tooManyLinks => "Too many levels of symbolic links (os error 40)"
  | nulInPath => "file name contained an unexpected NUL byte"
  | noWorkspace root => "workspace root " ++ root ++ " is not a directory"

structure Workspace where
  /-- The whole file system, from its top folder. -/
  top : Tree
  /-- The names on the way from the top to the root. -/
  root : List String
  /-- What the ignore rules that the user has for version control everywhere say of a path from the top,
  which is a folder or not. -/
  excludes : List String → Bool → Option Verdict := fun _ _ => none

namespace Workspace

instance : Inhabited Workspace := ⟨{ top := .empty, root := [] }⟩

/-- The workspace of a root right below the top, with nothing beside it. -/
def ofRoot (name : String) (root : Tree) : Workspace := { top := .folder [(name, root)], root := [name] }

/-- The name of the root. -/
def name (w : Workspace) : String := w.root.getLastD ""

/-- The same files with another root. -/
def rerooted (w : Workspace) (root : List String) : Workspace := { w with root }

/-! ### Following paths -/

/-- How many links are followed on one path. -/
def linkLimit : Nat := 40

/-- The longest name, in bytes. -/
def nameLimit : Nat := 255

/-- The steps of a link's target. One that ends with a slash or a dot leads to a folder. -/
def linkSteps (target : String) : List Path.Component :=
  Path.components target ++ if Path.endsIdle target then [.here] else []

/-- The place where some steps lead from a folder, as names from the top; the first number bounds the
links on the way. If it may be `fresh`, the last name need not be there yet. Steps are taken from folders
only. An absolute path begins at the top again, and the target of a link can be one. -/
def follow (top : Tree) (fresh : Bool) (links : Nat) (here : List String) :
    List Path.Component → Except IoError (List String)
  | [] => .ok here
  | .root :: rest =>
    if (top.find? here).any Tree.isFolder then follow top fresh links [] rest
    else .error .notDirectory
  | .here :: rest =>
    if (top.find? here).any Tree.isFolder then follow top fresh links here rest
    else .error .notDirectory
  | .up :: rest =>
    if (top.find? here).any Tree.isFolder then follow top fresh links here.dropLast rest
    else .error .notDirectory
  | .name n :: rest => match top.find? here with
    | some (.folder children) =>
      if nameLimit < n.utf8ByteSize then .error .nameTooLong
      else match children.lookup n with
        | none => if fresh && rest.isEmpty then .ok (here ++ [n]) else .error .notFound
        | some (.link target) => match links with
          | 0 => .error .tooManyLinks
          | links + 1 => follow top fresh links here (linkSteps target ++ rest)
        | some _ => follow top fresh links (here ++ [n]) rest
    | _ => .error .notDirectory
termination_by steps => (links, steps.length)

/-- The steps of a path from the top. -/
def steps (w : Workspace) (path : List Path.Component) : List Path.Component :=
  match path with
  | .root :: _ => path
  | _ => w.root.map .name ++ path

/-- The place of a path. -/
def locate (w : Workspace) (path : List Path.Component) : Except IoError (List String) :=
  follow w.top false linkLimit [] (w.steps path)

/-- What stands at a path, all links followed. -/
def lookup (w : Workspace) (path : List Path.Component) : Except IoError Tree := do
  let place ← w.locate path
  match w.top.find? place with
  | some t => .ok t
  | none => .error .notFound

/-- What stands at the root, all links followed. -/
def root? (w : Workspace) : Option Tree := (w.lookup []).toOption

/-- The place of the root, if it is there. -/
def place (w : Workspace) : List String := (w.locate []).toOption.getD []

def isFolder (w : Workspace) (path : List Path.Component) : Bool :=
  match w.lookup path with
  | .ok t => t.isFolder
  | .error _ => false

/-- The bytes of the file at a path. -/
def bytesAt (w : Workspace) (path : List Path.Component) : Except IoError ByteArray := do
  match ← w.lookup path with
  | .file content | .device content => .ok content
  | .folder _ | .link _ => .error .isDirectory

/-- Whether a path as it is written can lead anywhere: it must not be empty or have a NUL character in it. -/
def checkPath (path : String) : Except IoError Unit :=
  if path.contains '\x00' then .error .nulInPath
  else if path.isEmpty then .error .notFound
  else .ok ()

/-- The bytes of the file at a path as it is written, where one with a slash or a dot at its end leads to
folders only. -/
def read (w : Workspace) (path : String) : Except IoError ByteArray := do
  checkPath path
  let content ← w.bytesAt (Path.components path)
  if Path.endsIdle path then .error .notDirectory else .ok content

/-! ### Writing -/

/-- The workspace with something new at a place. -/
def placed (w : Workspace) (place : List String) (new : Tree) : Workspace :=
  { w with top := w.top.place new place }

/-- The place of a file to be written at a path, in a folder that is there. -/
def destination (w : Workspace) (path : List Path.Component) : Except IoError (List String) :=
  follow w.top true linkLimit [] (w.steps path)

/-- Makes a folder at a path. -/
def makeFolder (w : Workspace) (path : List Path.Component) : Except IoError Workspace :=
  match path.getLast? with
  | some (.name n) => do
    let folder ← w.locate path.dropLast
    match w.top.find? folder with
    | some (.folder children) =>
      if nameLimit < n.utf8ByteSize then .error .nameTooLong
      else if (children.lookup n).isSome then .error .alreadyExists
      else .ok (w.placed (folder ++ [n]) .empty)
    | _ => .error .notDirectory
  | _ => do
    let _ ← w.locate path
    .error .alreadyExists

/-- Makes a folder, or leaves alone the one that is there. -/
def ensureFolder (w : Workspace) (path : List Path.Component) : Except IoError Workspace :=
  match w.makeFolder path with
  | .ok w => .ok w
  | .error e => if w.isFolder path then .ok w else .error e

/-- Makes a folder and all folders above it. The first number bounds the folders above. -/
def makeFolders (w : Workspace) : Nat → List Path.Component → Except IoError Workspace
  | 0, path => w.ensureFolder path
  | n + 1, path =>
    match w.makeFolder path with
    | .ok w => .ok w
    | .error .notFound => do
      let w ← w.makeFolders n path.dropLast
      w.ensureFolder path
    | .error e => if w.isFolder path then .ok w else .error e

/-- Makes the folders above a path. There are none above the top. -/
def makeParents (w : Workspace) (path : List Path.Component) : Except IoError Workspace :=
  match path with
  | [] | [.root] => .ok w
  | _ => w.makeFolders path.length path.dropLast

/-- Writes to what is at a place. A device takes what is written and forgets it. -/
def write (w : Workspace) (place : List String) (content : ByteArray) : Except IoError Workspace :=
  match w.top.find? place with
  | some (.folder _) => .error .isDirectory
  | some (.device _) => .ok w
  | _ => .ok (w.placed place (.file content))

/-- Writes a file at a path, making the folders above it first. A path with a slash at its end asks for a
folder; one with a dot there asks for a folder that is there already. -/
def save (w : Workspace) (path : String) (content : ByteArray) : Except IoError Workspace := do
  checkPath path
  let steps := Path.components path
  let w ← w.makeParents steps
  if Path.endsHere path then
    let there ← w.lookup steps
    .error (if there.isFolder then .isDirectory else .notDirectory)
  else if Path.endsIdle path then .error .isDirectory
  else
    let place ← w.destination steps
    w.write place content

end Workspace

end Concordance
