import Concordance.Java.Cursor
import Concordance.Service.Builder
import Concordance.Text.Path

/-!
The summary of a syntax tree, and the builder for Java sources. A name is declared where it is the name
of a declaration, and every other identifier is a reference. The tree is walked once, and the nodes that
name a declaration are marked before the walk comes to them.
-/

namespace Concordance.Java

namespace Node

/-- The first child with the role of a name. -/
def name? (n : Node) : Option Node := n.children.find? fun c => c.role = some .name

def declarators (n : Node) : List Node := n.children.filter fun c => c.role = some .declarator

end Node

/-! ### Names of packages -/

/-- The texts of the identifiers met first on the way down from a node, in order. -/
def segments (source : String) (name : Node) : List String :=
  ((Cursor.atRoot name).walk (fun n => n.kind ≠ .identifier) (fun c texts =>
    if c.node.kind = .identifier then Tree.textOf source c.node :: texts else texts) []).reverse

/-- The package that a declaration names, whatever stands between its segments. -/
def packageName? (source : String) (declaration : Node) : Option String :=
  (declaration.children.find? fun c =>
    c.info.named && (c.kind = .scopedIdentifier || c.kind = .identifier)).map
    fun name => String.intercalate "." (segments source name)

/-! ### Declarations -/

def typeKind? : Kind → Option TypeKind
  | .classDeclaration => some .classType
  | .interfaceDeclaration => some .interfaceType
  | .enumDeclaration => some .enumType
  | .recordDeclaration => some .recordType
  | .annotationTypeDeclaration => some .annotationType
  | _ => none

/-- Whether a parameter is one of a record itself, which makes it a field. -/
def isRecordComponent (c : Cursor) : Bool :=
  c.parent?.map Node.kind = some .formalParameters &&
    c.grandparent?.map Node.kind = some .recordDeclaration

/-- A summary on its way. -/
structure Extraction where
  summary : Summary := .empty
  /-- The ids of the nodes that name a declaration. -/
  marked : Std.ExtTreeSet Nat := ∅

namespace Extraction

variable (source : String)

def declare (e : Extraction) (name : Node) : Extraction where
  summary := e.summary.declare (Tree.textOf source name)
  marked := e.marked.insert name.id

/-- Declares the name of a node, if it has one. -/
def recordNamed (e : Extraction) (n : Node) : Extraction :=
  match n.name? with
  | some name => e.declare source name
  | none => e

/-- Declares a type; at the top of a source its kind is recorded too. -/
def recordType (e : Extraction) (c : Cursor) : Extraction :=
  match c.node.name? with
  | some name =>
    let e := e.declare source name
    match typeKind? c.node.kind with
    | some kind =>
      if c.parent?.map Node.kind = some .program then
        { e with summary := e.summary.addType ⟨Tree.textOf source name, kind⟩ }
      else e
    | none => e
  | none => e

def recordDeclarators (e : Extraction) (n : Node) : Extraction :=
  n.declarators.foldl (recordNamed source) e

def recordPackage (e : Extraction) (n : Node) : Extraction :=
  match packageName? source n with
  | some package => { e with summary := e.summary.withPackage package }
  | none => e

/-- Refers to a name that is not marked. -/
def recordUse (e : Extraction) (n : Node) : Extraction :=
  if e.marked.contains n.id then e
  else { e with summary := e.summary.refer (Tree.textOf source n) }

/-- What a node adds. -/
def visit (c : Cursor) (e : Extraction) : Extraction :=
  match c.node.kind with
  | .packageDeclaration => e.recordPackage source c.node
  | .classDeclaration | .interfaceDeclaration | .enumDeclaration | .recordDeclaration
  | .annotationTypeDeclaration => e.recordType source c
  | .methodDeclaration | .constructorDeclaration | .compactConstructorDeclaration
  | .annotationElementDeclaration | .enumConstant => e.recordNamed source c.node
  | .fieldDeclaration | .constantDeclaration => e.recordDeclarators source c.node
  | .formalParameter => if isRecordComponent c then e.recordNamed source c.node else e
  | .identifier | .typeIdentifier => e.recordUse source c.node
  | _ => e

end Extraction

/-- The summary of a tree. Nothing inside a package declaration is visited. -/
def summarize (t : Tree) : Summary :=
  ((Cursor.atRoot t.root).walk (fun n => n.kind ≠ .packageDeclaration) (Extraction.visit t.source)
    {}).summary

/-! ### Errors -/

/-- The first error or missing node from the cursor on, each node before its children. Nodes without
errors below them are passed over. -/
def findError (c : Cursor) : Option Node :=
  if c.node.isError || c.node.isMissing then some c.node
  else match _h : c.next? c.node.hasError with
    | some after => findError after
    | none => none
termination_by c.remaining
decreasing_by exact Cursor.remaining_of_next? _h

def firstError? (t : Tree) : Option Node := findError (.atRoot t.root)

/-! ### The builder -/

/-- The result for a file whose source reads as `t`. -/
def resultOf (file : FileId) (t : Tree) : BuildResult :=
  match firstError? t with
  | none => .ok (summarize t)
  | some n => .error (.malformed file ("unexpected syntax at line " ++ toString (n.info.row + 1))
      (summarize t))

/-- Builds summaries with a parser, for the files that have one of the extensions. -/
def buildWith (parse : String → Option Tree) (extensions : List String) (file : FileId)
    (source : String) : BuildResult :=
  if !Path.hasExtension extensions file.text then .error (.unsupported file)
  else match parse source with
    | none => .error (.parser "Parser returned no tree")
    | some t => resultOf file t

/-- The builder for Java sources. -/
def build (extensions : List String) (file : FileId) (source : String) : BuildResult :=
  buildWith parse extensions file source

end Concordance.Java
