import Concordance.Lr.Table

/-!
The trees that a parser builds while it reads: every node knows where it stands in the text and how
costly the repairs below it are.
-/

namespace Concordance.Parse

open Grammar Lr

/-! ### The text -/

/-- A text cut into characters, with what the parser asks about each place between two of them. -/
structure Input where
  /-- The class of each character. -/
  classes : Array Nat
  /-- The bytes before each place. -/
  offsets : Array Nat
  /-- The line breaks before each place. -/
  rows : Array Nat
  /-- A mark of byte order stands first. -/
  marked : Bool
deriving Inhabited

namespace Input

def ofString (classes : Lexer.Classes) (text : String) : Input := Id.run do
  let ascii := (Array.range 128).map classes.classOf
  let mut cs : Array Nat := Array.mkEmpty text.utf8ByteSize
  let mut offsets : Array Nat := (Array.mkEmpty (text.utf8ByteSize + 1)).push 0
  let mut rows : Array Nat := (Array.mkEmpty (text.utf8ByteSize + 1)).push 0
  let mut offset := 0
  let mut row := 0
  let mut marked := false
  for c in text.toList do
    if offset = 0 && c.toNat = 0xFEFF then marked := true
    let code := c.toNat
    cs := cs.push (if code < 128 then ascii.getD code 0 else classes.classOf code)
    offset := offset + c.utf8Size
    if c = '\n' then row := row + 1
    offsets := offsets.push offset
    rows := rows.push row
  return ⟨cs, offsets, rows, marked⟩

def length (i : Input) : Nat := i.classes.size

def offset (i : Input) (place : Nat) : Nat := i.offsets.getD place 0

def row (i : Input) (place : Nat) : Nat := i.rows.getD place 0

/-- The bytes between two places. -/
def bytes (i : Input) (start stop : Nat) : Nat := i.offset stop - i.offset start

/-- The line breaks between two places. -/
def breaks (i : Input) (start stop : Nat) : Nat := i.row stop - i.row start

end Input

/-! ### Trees -/

/-- What a node is. -/
inductive Label where
  | token (i : Nat)
  | rule (i : Nat)
  /-- Text that fits nowhere, or a repaired stretch. -/
  | error
  /-- A stretch still being skipped. -/
  | skipped
deriving DecidableEq, Repr, Inhabited

/-- The order of labels: tokens, rules, skipped stretches, errors. -/
def Label.rank : Label → Nat × Nat
  | .token i => (0, i)
  | .rule i => (1, i)
  | .skipped => (2, 0)
  | .error => (3, 0)

structure Info where
  label : Label
  /-- The node's text with the blanks before it starts at `outer`, without them at `start`. -/
  outer : Nat
  start : Nat
  stop : Nat
  /-- It may stand anywhere. -/
  extra : Bool := false
  /-- It was put in by repair. -/
  missing : Bool := false
  /-- It was scanned as the word and could be a keyword. -/
  keyword : Bool := false
  cost : Nat := 0
  /-- The children that show, those of hidden children included. -/
  visibleChildren : Nat := 0
  visibleBelow : Nat := 0
  dynamic : Int := 0
  layout : Nat := 0
  /-- The state in which a token was scanned. -/
  state : Nat := 0
  /-- The nodes of the tree. -/
  nodes : Nat := 1
deriving Inhabited

inductive Tree where
  | node (info : Info) (children : Array Tree)
deriving Inhabited

namespace Tree

def info : Tree → Info
  | node i _ => i

def children : Tree → Array Tree
  | node _ cs => cs

def mapInfo (f : Info → Info) : Tree → Tree
  | node i cs => node (f i) cs

def label (t : Tree) : Label := t.info.label

def isError (t : Tree) : Bool := t.label = .error

end Tree

/-! ### Costs of repair -/

namespace Cost

def recovery : Nat := 500
def missing : Nat := 110
def skippedTree : Nat := 100
def skippedChar : Nat := 1
def skippedLine : Nat := 30

/-- The difference at which the dearer of two versions is given up. -/
def apart : Nat := 18 * skippedTree

end Cost

/-- Whether nodes of a label show in the finished tree. -/
def shows (t : Table) : Label → Bool
  | .token i => match (t.tokens.getD i default).visibility with
    | .named | .anonymous => true
    | .hidden | .run => false
  | .rule i =>
    let form := t.rules.getD i default
    form.shownAs.isSome || form.visibility = .named
  | .error => true
  | .skipped => false

namespace Tree

/-- A token scanned at `outer`. The end of the text may stand anywhere. -/
def leaf (label : Label) (outer start stop state : Nat) (keyword : Bool) : Tree :=
  node { label, outer, start, stop, state, keyword, extra := label = .token 0 } #[]

/-- A token that repair puts in at a place. -/
def absent (token place : Nat) : Tree :=
  node { label := .token token, outer := place, start := place, stop := place, missing := true
         cost := Cost.missing + Cost.recovery } #[]

/-- A node over children; `place` is where it stands when there are none. -/
def nodeOver (t : Table) (input : Input) (place : Nat) (label : Label) (layout : Nat)
    (children : Array Tree) : Tree := Id.run do
  let names := (t.layouts.getD layout Layout.plain).names
  let inError := label = .error || label = .skipped
  let mut info : Info :=
    { label, layout
      outer := match children[0]? with
        | some c => c.info.outer
        | none => place
      start := match children[0]? with
        | some c => c.info.start
        | none => place
      stop := match children.back? with
        | some c => c.info.stop
        | none => place }
  let mut index := 0
  for c in children do
    let ci := c.info
    let count := c.children.size
    let childShows := shows t ci.label
    if ci.label ≠ .skipped then info := { info with cost := info.cost + ci.cost }
    if inError && !ci.extra && !(ci.label = .error && count = 0) then
      if childShows then info := { info with cost := info.cost + Cost.skippedTree }
      else if count > 0 then
        info := { info with cost := info.cost + Cost.skippedTree * ci.visibleChildren }
    let renamed := !ci.extra && ci.label ≠ .token 0 && (names.getD index none).isSome
    let shown := renamed || childShows
    info := { info with
      dynamic := info.dynamic + ci.dynamic
      nodes := info.nodes + ci.nodes
      visibleBelow := info.visibleBelow + ci.visibleBelow + (if shown then 1 else 0)
      visibleChildren := info.visibleChildren +
        (if shown then 1 else if count > 0 then ci.visibleChildren else 0) }
    if !ci.extra then index := index + 1
  if inError then
    info := { info with
      cost := info.cost + Cost.recovery + Cost.skippedChar * input.bytes info.start info.stop +
        Cost.skippedLine * input.breaks info.start info.stop }
  return node info children

/-- Compares two trees by label and number of children, nodes above before nodes below and left before
right. -/
def order (a b : Tree) : Ordering := Id.run do
  let mut todo : List (Tree × Tree) := [(a, b)]
  for _ in [0:a.info.nodes + 1] do
    match todo with
    | [] => return .eq
    | (x, y) :: rest =>
      let rx := x.label.rank
      let ry := y.label.rank
      let c := (compare rx.1 ry.1).then ((compare rx.2 ry.2).then
        (compare x.children.size y.children.size))
      if c ≠ .eq then return c
      todo := (x.children.zip y.children).foldr (fun p acc => p :: acc) rest
  return .eq

/-- Whether the second of two trees for one stretch of text is the better one. -/
def prefersSecond (a b : Tree) : Bool :=
  if b.info.cost ≠ a.info.cost then b.info.cost < a.info.cost
  else if b.info.dynamic ≠ a.info.dynamic then b.info.dynamic > a.info.dynamic
  else if a.info.cost > 0 then true
  else order a b = .gt

end Tree

end Concordance.Parse
