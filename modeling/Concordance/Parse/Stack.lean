import Concordance.Parse.Tree

/-!
The stack of a parser that keeps several readings of a text at once. Readings share what they have in
common: a cell holds a state and links to the cells below it, one for each way of getting there.
-/

namespace Concordance.Parse

/-- A way down from a cell, over a tree or over a break. -/
structure Link where
  below : Nat
  tree : Option Tree
deriving Inhabited

structure Cell where
  state : Nat
  place : Nat
  links : Array Link
  cost : Nat
  /-- The nodes below that show, broken stretches included. -/
  count : Nat
  dynamic : Int
deriving Inhabited

/-- A state on the way down when an error was met. -/
structure Landmark where
  place : Nat
  depth : Nat
  state : Nat
deriving Inhabited

inductive Status where
  | active
  /-- It waits with the token it could not take. -/
  | paused (lookahead : Tree)
  | halted
deriving Inhabited

/-- One reading: its topmost cell and what it remembers of its last error. -/
structure Version where
  top : Nat
  landmarks : Option (Array Landmark) := none
  countAtError : Nat := 0
  status : Status := .active
deriving Inhabited

structure Stack where
  cells : Array Cell
  versions : Array Version
deriving Inhabited

/-- Trees popped off a version, from the lowest to the topmost, and the version left. -/
structure Slice where
  trees : List Tree
  version : Nat
deriving Inhabited

namespace Stack

/-- The greatest number of links of a cell. -/
def maxLinks : Nat := 8

/-- The greatest number of ways followed at once. -/
def maxWays : Nat := 64

def start : Stack := ⟨#[⟨1, 0, #[], 0, 0, 0⟩], #[{ top := 0 }]⟩

def size (s : Stack) : Nat := s.versions.size

def version (s : Stack) (v : Nat) : Version := s.versions.getD v default

def cell (s : Stack) (c : Nat) : Cell := s.cells.getD c default

def top (s : Stack) (v : Nat) : Cell := s.cell (s.version v).top

def state (s : Stack) (v : Nat) : Nat := (s.top v).state

def place (s : Stack) (v : Nat) : Nat := (s.top v).place

def isActive (s : Stack) (v : Nat) : Bool := match (s.version v).status with
  | .active => true
  | _ => false

def isPaused (s : Stack) (v : Nat) : Bool := match (s.version v).status with
  | .paused _ => true
  | _ => false

def isHalted (s : Stack) (v : Nat) : Bool := match (s.version v).status with
  | .halted => true
  | _ => false

def modify (s : Stack) (v : Nat) (f : Version → Version) : Stack :=
  { s with versions := s.versions.modify v f }

def remove (s : Stack) (v : Nat) : Stack :=
  { s with versions := s.versions.eraseIdxIfInBounds v }

def halt (s : Stack) (v : Nat) : Stack := s.modify v fun h => { h with status := .halted }

/-- What a tree adds to the count of a cell. -/
def countOf (shows : Label → Bool) (t : Tree) : Nat :=
  t.info.visibleBelow + (if shows t.label then 1 else 0) + (if t.label = .skipped then 1 else 0)

/-- Puts a tree, or a break, on top of a version. -/
def push (shows : Label → Bool) (s : Stack) (v : Nat) (tree : Option Tree) (state : Nat) : Stack :=
  let below := (s.version v).top
  let b := s.cell below
  let new : Cell := match tree with
    | some t =>
      { state, links := #[⟨below, tree⟩], place := t.info.stop, cost := b.cost + t.info.cost
        count := b.count + countOf shows t, dynamic := b.dynamic + t.info.dynamic }
    | none => { b with state, links := #[⟨below, none⟩] }
  let n := s.cells.size
  let s := { s with cells := s.cells.push new }
  s.modify v fun h =>
    { h with top := n, countAtError := if tree.isNone then new.count else h.countAtError }

/-- Makes a second version with the same top. -/
def copy (s : Stack) (v : Nat) : Nat × Stack :=
  (s.size, { s with versions := s.versions.push { s.version v with landmarks := none } })

/-- Moves version `v` to the place of version `w`, which is dropped. -/
def replace (s : Stack) (v w : Nat) : Stack :=
  if v = w then s else
  let source := s.version v
  let target := s.version w
  let moved := { source with landmarks := source.landmarks.orElse fun _ => target.landmarks }
  (s.modify w fun _ => moved).remove v

def swap (s : Stack) (v w : Nat) : Stack :=
  let a := s.version v
  let b := s.version w
  (s.modify v fun _ => b).modify w fun _ => a

/-! ### Merging -/

/-- Whether one of two trees over the same cell can stand for both. -/
def sameTree (input : Input) (a b : Option Tree) : Bool := match a, b with
  | none, none => true
  | some x, some y =>
    let i := x.info
    let j := y.info
    i.label = j.label && ((i.cost > 0 && j.cost > 0) ||
      (input.bytes i.outer i.start = input.bytes j.outer j.start &&
        input.bytes i.start i.stop = input.bytes j.start j.stop &&
        x.children.size = y.children.size && i.extra == j.extra))
  | _, _ => false

/-- What a tree, or a break, adds to the dynamic preference of a cell. -/
def dynamicOf : Option Tree → Int
  | some t => t.info.dynamic
  | none => 0

/-- How a new link goes together with those that a cell has. -/
inductive Junction where
  /-- One of them does as well. -/
  | covered
  /-- It is better than one of them. -/
  | better (i : Nat)
  /-- One of them is like it, and the cells below the two can be joined. -/
  | below (cell : Nat)
  | apart

def mergeable (a b : Cell) : Bool := a.state = b.state && a.place = b.place && a.cost = b.cost

/-- How a new link goes together with the link `i` of a cell, if the two are alike. -/
def junction? (input : Input) (s : Stack) (link : Link) (i : Nat) (own : Link) : Option Junction :=
  if !sameTree input own.tree link.tree then none
  else if own.below = link.below then
    some (if dynamicOf link.tree > dynamicOf own.tree then .better i else .covered)
  else if mergeable (s.cell own.below) (s.cell link.below) then some (.below own.below)
  else none

def junction (input : Input) (s : Stack) (c : Nat) (link : Link) : Junction :=
  ((s.cell c).links.toList.zipIdx.findSome? fun (own, i) => junction? input s link i own).getD .apart

def modifyCell (s : Stack) (c : Nat) (f : Cell → Cell) : Stack :=
  { s with cells := s.cells.modify c f }

/-- The cell with one more link if it has room; `count` and `dynamic` are what the way over it adds up
to. -/
def Cell.withLink (link : Link) (count : Nat) (dynamic : Int) (x : Cell) : Cell :=
  if x.links.size < maxLinks then
    { x with
      links := x.links.push link
      count := max x.count count
      dynamic := max x.dynamic dynamic }
  else x

/-- Adds links to cells, joining those that cannot be told apart. The first number bounds the steps. -/
def addLinks (shows : Label → Bool) (input : Input) : Nat → List (Nat × Link) → Stack → Stack
  | 0, _, s => s
  | _, [], s => s
  | fuel + 1, (c, link) :: rest, s =>
    if link.below = c then addLinks shows input fuel rest s
    else
      let b := s.cell link.below
      let dynamic := b.dynamic + dynamicOf link.tree
      match junction input s c link with
      | .covered => addLinks shows input fuel rest s
      | .better i =>
        addLinks shows input fuel rest (s.modifyCell c fun x =>
          { x with links := x.links.modify i fun l => { l with tree := link.tree }, dynamic })
      | .below cell =>
        addLinks shows input fuel (b.links.toList.map (fun k => (cell, k)) ++ rest)
          (s.modifyCell c fun x => { x with dynamic := max x.dynamic dynamic })
      | .apart =>
        let count := match link.tree with
          | some t => b.count + countOf shows t
          | none => b.count
        addLinks shows input fuel rest (s.modifyCell c (Cell.withLink link count dynamic))

/-- A bound on the steps that merging takes. -/
def mergeSteps (s : Stack) : Nat := (s.cells.size + 1) * maxLinks * maxLinks

def canMerge (s : Stack) (v w : Nat) : Bool :=
  let a := s.top v
  let b := s.top w
  s.isActive v && s.isActive w && mergeable a b

/-- Merges version `w` into version `v` if they stand in the same state at the same place. -/
def merge (shows : Label → Bool) (input : Input) (s : Stack) (v w : Nat) : Bool × Stack :=
  if !s.canMerge v w then (false, s) else
  let c := (s.version v).top
  let links := (s.top w).links.toList.map fun l => (c, l)
  let s := addLinks shows input s.mergeSteps links s
  let s := if (s.cell c).state = 0 then
      s.modify v fun h => { h with countAtError := (s.cell c).count }
    else s
  (true, s.remove w)

/-! ### Going down -/

/-- A way followed down from a version. -/
structure Way where
  cell : Nat
  trees : List Tree
  /-- The trees met, those that may stand anywhere not counted. -/
  count : Nat
deriving Inhabited

/-- Files the trees of a way with the slices that reached the same cell, or under a new version. -/
def addSlice (s : Stack) (origin cell : Nat) (trees : List Tree) (slices : Array Slice) :
    Stack × Array Slice := Id.run do
  for k in [0:slices.size] do
    let i := slices.size - 1 - k
    let v := (slices.getD i default).version
    if (s.version v).top = cell then
      return (s, slices.insertIdx! (i + 1) ⟨trees, v⟩)
  let old := s.version origin
  let new : Version := { top := cell, countAtError := old.countAtError }
  return ({ s with versions := s.versions.push new }, slices.push ⟨trees, s.versions.size⟩)

/-- Follows all ways down from a version. At each cell `visit` tells whether to pop there and whether
to stop there. -/
def descend {σ : Type} (s : Stack) (v : Nat) (keep : Bool) (init : σ)
    (visit : σ → Way → Cell → σ × Bool × Bool) : Stack × Array Slice × σ := Id.run do
  let mut s := s
  let mut slices : Array Slice := #[]
  let mut acc := init
  let mut ways : Array Way := #[⟨(s.version v).top, [], 0⟩]
  for _ in [0:s.cells.size + 1] do
    if ways.isEmpty then break
    let mut i := 0
    let mut size := ways.size
    for _ in [0:ways.size] do
      if i ≥ size then break
      let way := ways.getD i default
      let cell := s.cell way.cell
      let (acc', pop, stop) := visit acc way cell
      acc := acc'
      if pop then
        let (s', slices') := addSlice s v way.cell way.trees slices
        s := s'
        slices := slices'
      if stop || cell.links.isEmpty then
        ways := ways.eraseIdxIfInBounds i
        size := size - 1
      else
        let follow (l : Link) : Way := match l.tree with
          | some t =>
            { cell := l.below, trees := if keep then t :: way.trees else way.trees
              count := if t.info.extra then way.count else way.count + 1 }
          | none => { cell := l.below, trees := way.trees, count := way.count + 1 }
        for j in [1:cell.links.size] do
          if ways.size < maxWays then ways := ways.push (follow (cell.links.getD j default))
        ways := ways.set! i (follow (cell.links.getD 0 default))
        i := i + 1
  return (s, slices, acc)

/-- Pops `count` trees, along every way. -/
def popCount (s : Stack) (v count : Nat) : Stack × Array Slice :=
  let (s, slices, _) := s.descend v true () fun _ way _ =>
    ((), way.count == count, way.count == count)
  (s, slices)

/-- Pops everything, along every way. -/
def popAll (s : Stack) (v : Nat) : Stack × Array Slice :=
  let (s, slices, _) := s.descend v true () fun _ _ cell => ((), cell.links.isEmpty, false)
  (s, slices)

/-- Pops an error on top of a version, if there is one. -/
def popError (s : Stack) (v : Nat) : Stack × Option Tree :=
  let isError (l : Link) : Bool := match l.tree with
    | some t => t.isError
    | none => false
  if !(s.top v).links.any isError then (s, none) else
  let (s, slices, _) := s.descend v true false fun found way _ =>
    match way.trees.getLast? with
    | some t => if !found && t.isError then (true, true, true) else (found, false, true)
    | none => (found, false, false)
  match slices[0]? with
  | some slice => (s.replace slice.version v, slice.trees.head?)
  | none => (s, none)

/-- Notes the states down to a depth below a version. -/
def noteLandmarks (s : Stack) (v depth : Nat) : Stack :=
  let (s, _, marks) := s.descend v false (#[] : Array Landmark) fun marks way cell =>
    if way.count > depth then (marks, false, true)
    else if (marks.toList.reverse.takeWhile fun m => m.depth ≥ way.count).any fun m =>
        m.depth = way.count && m.state = cell.state then (marks, false, false)
    else (marks.push ⟨cell.place, way.count, cell.state⟩, false, false)
  s.modify v fun h => { h with landmarks := some marks }

/-! ### How a version fares -/

def cost (s : Stack) (v : Nat) : Nat :=
  let cell := s.top v
  let broken := cell.state = 0 && match cell.links[0]? with
    | some l => l.tree.isNone
    | none => false
  cell.cost + if s.isPaused v || broken then Cost.recovery else 0

/-- The nodes that show since the last error. A count that fell below the noted one is noted anew. -/
def countSinceError (s : Stack) (v : Nat) : Nat × Stack :=
  let count := (s.top v).count
  let noted := (s.version v).countAtError
  if count < noted then (0, s.modify v fun h => { h with countAtError := count })
  else (count - noted, s)

end Stack

end Concordance.Parse
