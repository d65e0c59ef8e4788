import Concordance.Settings.Basic
import Concordance.Symbols.FileId
import Concordance.Workspace.Access

/-!
Finding the sources of a workspace. They are the regular files at or below the root that have an
extension of sources and are not too large, less those that are passed over: names that begin with a
dot, unless an ignore file allows them; what ignore files tell to ignore; and folders that are excluded
by name. What is inside a folder that is passed over is not looked at.

Ignore files count in every folder from the top of the file system down, those above the root too. The
rules that the user has for version control everywhere come last.
-/

namespace Concordance.Workspace

/-! ### Ignore files -/

/-- The rules in an ignore file, if it can be read. -/
def rulesAt (w : Workspace) (folder names : List String) : List IgnoreRule :=
  match w.bytesAt ((folder ++ names).map .name) with
  | .ok content => IgnoreRule.ofFile content
  | .error _ => []

/-- The rules in the ignore files of a folder, which is at that depth. Those for version control count only
if asked for. -/
def layerAt (w : Workspace) (git : Bool) (depth : Nat) (folder : List String) : IgnoreLayer where
  depth := depth
  plain := w.rulesAt folder [".ignore"]
  git := if git then w.rulesAt folder [".gitignore"] else []
  exclude := if git then w.rulesAt folder [".git", "info", "exclude"] else []

/-- The ignore files of a folder at or below the root. -/
def layerBelow (w : Workspace) (git : Bool) (folder : List String) : IgnoreLayer :=
  w.layerAt git (w.place.length + folder.length) folder

/-- The ignore files of the folders above the place of the root, nearest first. -/
def layersAbove (w : Workspace) (git : Bool) : List IgnoreLayer :=
  (List.range w.place.length).reverse.map fun n => (w.rerooted (w.place.take n)).layerAt git n []

/-- What ignore files and the rules of the user say of a path below the root. -/
def verdict? (w : Workspace) (s : Settings) (layers : List IgnoreLayer) (path : List String) (folder : Bool) :
    Option Verdict :=
  (IgnoreLayer.verdict? layers (w.place ++ path) folder).or
    (if s.respectGitignore then w.excludes (w.root ++ path) folder else none)

/-! ### The walk -/

/-- Whether a name is one that is not shown. -/
def isHidden (name : String) : Bool := name.startsWith "."

/-- Whether what stands at a path below the root is passed over. -/
def isPassedOver (w : Workspace) (s : Settings) (layers : List IgnoreLayer) (path : List String) (name : String)
    (folder : Bool) : Bool :=
  (match w.verdict? s layers path folder with
    | some .ignored => true
    | some .allowed => false
    | none => isHidden name) ||
  (folder && s.excludes name)

/-- Whether a file of that name and content is a source. -/
def isSourceFile (s : Settings) (name : String) (content : ByteArray) : Bool :=
  s.isSource name && content.size ≤ s.maxFileSize.toNat

mutual

/-- The sources at or below a path that is not passed over, whose name is given. The layers are those
of the folders above. -/
def sourcesAt (w : Workspace) (s : Settings) (layers : List IgnoreLayer) (path : List String)
    (name : String) : Tree → List (List String)
  | .file content => if isSourceFile s name content then [path] else []
  | .device _ | .link _ => []
  | .folder children =>
    sourcesAmong w s (w.layerBelow s.respectGitignore path :: layers) path children

/-- The sources at or below the children of a folder. -/
def sourcesAmong (w : Workspace) (s : Settings) (layers : List IgnoreLayer) (path : List String) :
    List (String × Tree) → List (List String)
  | [] => []
  | (name, t) :: rest =>
    let here := path ++ [name]
    (if w.isPassedOver s layers here name t.isFolder then []
      else sourcesAt w s layers here name t) ++
    sourcesAmong w s layers path rest

end

/-- The sources of a workspace, as paths from its root, in the order of their names. A link at the root is
followed, others are not. -/
def discover (w : Workspace) (s : Settings) : List (List String) :=
  match w.root? with
  | none => []
  | some root =>
    (sourcesAt w s (w.layersAbove s.respectGitignore) [] w.name root).mergeSort fun a b => (compare a b).isLE

/-! ### Paths from the root -/

/-- The text of a path from the root. -/
def pathText (path : List String) : String := "/".intercalate path

/-- What a source is called: its path from the root, whichever way its separators are written. Names are
texts, so each path has one; what a source is called whose path has none is left out. -/
def sourceId (path : List String) : FileId := .ofPath (pathText path)

/-- The text of the file at a path of names from the root. -/
def text? (w : Workspace) (path : List String) : Option String :=
  match w.bytesAt (path.map .name) with
  | .ok content => String.fromUTF8? content
  | .error _ => none

/-- The part of a path below a root, with forward slashes; nothing if it is not below the root. -/
def relative? (root path : String) : Option String :=
  (Path.below? root path).map fun p => (FileId.ofPath p).text

end Concordance.Workspace
