import Concordance.Java.Tree

/-!
A cursor in a syntax tree: the node it stands at and the way back up. Trees are walked with a cursor and
without recursion, since sources nest deep.
-/

namespace Concordance.Java

namespace Node

mutual

/-- The number of nodes of a tree. -/
def size : Node → Nat
  | mk _ children => sizeAll children + 1

def sizeAll : List Node → Nat
  | [] => 0
  | n :: rest => n.size + sizeAll rest

end

theorem size_eq (n : Node) : n.size = sizeAll n.children + 1 := by
  cases n with
  | mk info nodes => rw [size, children]

theorem size_pos (n : Node) : 0 < n.size := by
  rw [size_eq]
  exact Nat.succ_pos _

end Node

structure Cursor where
  node : Node
  /-- The siblings after the node. -/
  right : List Node
  /-- The nodes above, the nearest first, each with its siblings after it. -/
  above : List (Node × List Node)

namespace Cursor

def atRoot (root : Node) : Cursor := ⟨root, [], []⟩

def parent? (c : Cursor) : Option Node := c.above.head?.map Prod.fst

def grandparent? (c : Cursor) : Option Node := c.above.tail.head?.map Prod.fst

/-- The place of a child with the given siblings after it. -/
def child (c : Cursor) (n : Node) (right : List Node) : Cursor := ⟨n, right, (c.node, c.right) :: c.above⟩

def firstChild? (c : Cursor) : Option Cursor :=
  match c.node.children with
  | [] => none
  | n :: right => some (c.child n right)

/-- The nearest sibling after a node or after one of the nodes above it. -/
def climb : List Node → List (Node × List Node) → Option Cursor
  | n :: right, above => some ⟨n, right, above⟩
  | [], (_, right) :: above => climb right above
  | [], [] => none

/-- The next node that is not below this one. -/
def advance? (c : Cursor) : Option Cursor := climb c.right c.above

/-- The next node, each before its children; these are left out unless the cursor descends. -/
def next? (c : Cursor) (descend : Bool) : Option Cursor :=
  match if descend then c.firstChild? else none with
  | some child => some child
  | none => c.advance?

/-! ### Walks end -/

/-- The number of nodes above and after that are still to be visited. -/
def remainingAbove : List (Node × List Node) → Nat
  | [] => 0
  | (_, right) :: above => Node.sizeAll right + remainingAbove above

/-- The number of nodes that are still to be visited. -/
def remaining (c : Cursor) : Nat := c.node.size + Node.sizeAll c.right + remainingAbove c.above

theorem remaining_of_climb {right : List Node} {above : List (Node × List Node)} {c : Cursor}
    (h : climb right above = some c) : c.remaining = Node.sizeAll right + remainingAbove above := by
  fun_induction climb right above with
  | case1 above n right =>
    cases h
    simp [remaining, Node.sizeAll]
  | case2 above p right ih => simpa [Node.sizeAll, remainingAbove] using ih h
  | case3 => cases h

theorem remaining_of_firstChild? {c child : Cursor} (h : c.firstChild? = some child) :
    child.remaining < c.remaining := by
  simp only [firstChild?] at h
  split at h
  · cases h
  · next n right hchildren =>
    cases h
    simp only [child, remaining, remainingAbove, Node.size_eq c.node, hchildren, Node.sizeAll]
    omega

theorem remaining_of_next? {c after : Cursor} {descend : Bool} (h : c.next? descend = some after) :
    after.remaining < c.remaining := by
  simp only [next?] at h
  split at h
  · next child hchild =>
    cases h
    split at hchild
    · exact remaining_of_firstChild? hchild
    · cases hchild
  · rw [remaining_of_climb h]
    have := c.node.size_pos
    simp only [remaining]
    omega

/-! ### Walks -/

variable {σ : Type}

/-- Visits the nodes from the cursor on. -/
def walk (descends : Node → Bool) (visit : Cursor → σ → σ) (c : Cursor) (s : σ) : σ :=
  match _h : c.next? (descends c.node) with
  | some after => walk descends visit after (visit c s)
  | none => visit c s
termination_by c.remaining
decreasing_by exact remaining_of_next? _h

end Cursor

end Concordance.Java
