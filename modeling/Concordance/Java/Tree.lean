import Concordance.Parse.Parser
import Concordance.Java.Grammar

/-!
The syntax tree of a Java source: the nodes that show, with their kind, their role in the parent and
their place in the text.
-/

namespace Concordance.Java

/-- What a node is. The kinds that matter for a summary have a name here. -/
inductive Kind where
  | program
  | packageDeclaration
  | scopedIdentifier
  | identifier
  | typeIdentifier
  | classDeclaration
  | interfaceDeclaration
  | enumDeclaration
  | recordDeclaration
  | annotationTypeDeclaration
  | methodDeclaration
  | constructorDeclaration
  | compactConstructorDeclaration
  | annotationElementDeclaration
  | enumConstant
  | fieldDeclaration
  | constantDeclaration
  | formalParameters
  | formalParameter
  | error
  | other (name : String)
deriving DecidableEq, Repr, Inhabited

/-- The role of a node in its parent. -/
inductive Role where
  | name
  | declarator
  | other (name : String)
deriving DecidableEq, Repr, Inhabited

/-- What a node shows of itself. -/
structure Info where
  /-- Tells the node from the others of its tree. -/
  id : Nat := 0
  kind : Kind
  /-- The node has a kind of its own and is not just a piece of text. -/
  named : Bool := true
  role : Option Role := none
  /-- The bytes before the node and before its end. -/
  start : Nat := 0
  stop : Nat := 0
  /-- The line breaks before the node. -/
  row : Nat := 0
  missing : Bool := false
  /-- An error or a missing token is in the node. -/
  hasError : Bool := false
deriving DecidableEq, Repr, Inhabited

inductive Node where
  | mk (info : Info) (children : List Node)
deriving Inhabited

namespace Node

def info : Node → Info
  | mk i _ => i

def children : Node → List Node
  | mk _ cs => cs

def id (n : Node) : Nat := n.info.id

def kind (n : Node) : Kind := n.info.kind

def role (n : Node) : Option Role := n.info.role

def isError (n : Node) : Bool := n.kind = .error

def isMissing (n : Node) : Bool := n.info.missing

def hasError (n : Node) : Bool := n.info.hasError

end Node

/-- A source with its syntax tree. -/
structure Tree where
  source : String
  root : Node
deriving Inhabited

namespace Tree

/-- The text of a node. -/
def textOf (source : String) (n : Node) : String :=
  String.Pos.Raw.extract source ⟨n.info.start⟩ ⟨n.info.stop⟩

def text (t : Tree) (n : Node) : String := textOf t.source n

end Tree

/-! ### From the parser's trees -/

def Kind.ofName : String → Kind
  | "program" => .program
  | "package_declaration" => .packageDeclaration
  | "scoped_identifier" => .scopedIdentifier
  | "identifier" => .identifier
  | "type_identifier" => .typeIdentifier
  | "class_declaration" => .classDeclaration
  | "interface_declaration" => .interfaceDeclaration
  | "enum_declaration" => .enumDeclaration
  | "record_declaration" => .recordDeclaration
  | "annotation_type_declaration" => .annotationTypeDeclaration
  | "method_declaration" => .methodDeclaration
  | "constructor_declaration" => .constructorDeclaration
  | "compact_constructor_declaration" => .compactConstructorDeclaration
  | "annotation_type_element_declaration" => .annotationElementDeclaration
  | "enum_constant" => .enumConstant
  | "field_declaration" => .fieldDeclaration
  | "constant_declaration" => .constantDeclaration
  | "formal_parameters" => .formalParameters
  | "formal_parameter" => .formalParameter
  | name => .other name

def Role.ofName : String → Role
  | "name" => .name
  | "declarator" => .declarator
  | role => .other role

/-- Kinds and roles by the numbers of a table. -/
structure Naming where
  table : Lr.Table
  tokenKinds : Array Kind
  ruleKinds : Array Kind
  /-- For each layout the kinds that children show as. -/
  shownAs : Array (Array (Option Kind))
  /-- For each layout the roles of children. -/
  roles : Array (List (Nat × Role))

def Naming.ofTable (t : Lr.Table) : Naming where
  table := t
  tokenKinds := t.tokens.map fun f => Kind.ofName f.name
  ruleKinds := t.rules.map fun f => Kind.ofName (f.shownAs.getD f.name)
  shownAs := t.layouts.map fun l => (l.names.map fun n => n.map Kind.ofName).toArray
  roles := t.layouts.map fun l => l.roles.map fun (i, r) => (i, Role.ofName r)

namespace Naming

/-- A child on its way into the tree: the kind its parent gives it and its role. -/
structure Pending where
  tree : Parse.Tree
  shownAs : Option Kind
  role : Option Role
deriving Inhabited

def shows (n : Naming) (p : Pending) : Bool := p.shownAs.isSome || Parse.shows n.table p.tree.label

/-- The label stands for a kind of its own. -/
def named (n : Naming) : Parse.Label → Bool
  | .token i => (n.table.tokens.getD i default).visibility = .named
  | .rule _ | .error | .skipped => true

/-- The children of a node. Those of a hidden node take its role where they have none. -/
def expand (n : Naming) (p : Pending) : List Pending := Id.run do
  let names := n.shownAs.getD p.tree.info.layout #[]
  let roles := n.roles.getD p.tree.info.layout []
  let inherited := if n.shows p then none else p.role
  let mut index := 0
  let mut out : List Pending := []
  for c in p.tree.children do
    if c.info.extra then out := ⟨c, none, none⟩ :: out
    else
      let shownAs := if c.label = .token 0 then none else names.getD index none
      out := ⟨c, shownAs, (roles.lookup index).orElse fun _ => inherited⟩ :: out
      index := index + 1
  return out.reverse

def infoOf (n : Naming) (input : Parse.Input) (id : Nat) (p : Pending) : Info :=
  let i := p.tree.info
  let kind := p.shownAs.getD (match i.label with
    | .token t => n.tokenKinds.getD t .error
    | .rule r => n.ruleKinds.getD r .error
    | .error | .skipped => .error)
  { id, kind, named := p.shownAs.isSome || n.named i.label, role := p.role
    start := input.offset i.start, stop := input.offset i.stop
    row := input.row i.start, missing := i.missing, hasError := i.cost > 0 }

/-- A node whose children are being worked on. -/
structure Frame where
  info : Info
  todo : List Pending
  done : List Node

/-- One step: the topmost node takes its next child, under the given id, or is complete. -/
def step (n : Naming) (input : Parse.Input) (id : Nat) : Frame → List Frame → List Frame ⊕ Node
  | ⟨info, [], done⟩, above =>
    let node := Node.mk info done.reverse
    match above with
    | [] => .inr node
    | f :: rest => .inl ({ f with done := node :: f.done } :: rest)
  | ⟨info, p :: todo, done⟩, above =>
    if n.shows p then .inl (⟨n.infoOf input id p, n.expand p, []⟩ :: ⟨info, todo, done⟩ :: above)
    else .inl (⟨info, n.expand p ++ todo, done⟩ :: above)

/-- The node that the frames come to, where ids from `id` on are free. The first number bounds the
steps. -/
def assemble (n : Naming) (input : Parse.Input) : Nat → Nat → List Frame → Node
  | 0, _, _ | _, _, [] => default
  | steps + 1, id, f :: above =>
    match n.step input id f above with
    | .inr node => node
    | .inl frames => n.assemble input steps (id + 1) frames

/-- The tree of the nodes that show. It is built without recursion, since sources nest deep. -/
def node (n : Naming) (input : Parse.Input) (tree : Parse.Tree) : Node :=
  let root : Pending := ⟨tree, none, none⟩
  n.assemble input (2 * tree.info.nodes + 2) 1 [⟨n.infoOf input 0 root, n.expand root, []⟩]

end Naming

/-! ### Reading a source -/

/-- The table of the grammar. -/
def table : Lr.Table := Lr.Table.ofGrammar grammar 1000000

def naming : Naming := Naming.ofTable table

/-- Reads a source. -/
def parse (source : String) : Option Tree :=
  let input := Parse.Input.ofString table.scanner.classes source
  (Parse.parse table input).map fun t => ⟨source, naming.node input t⟩

end Concordance.Java
