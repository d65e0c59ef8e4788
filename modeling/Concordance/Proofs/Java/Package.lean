import Mathlib
import Concordance.Proofs.Java.Faults
import Concordance.Proofs.Java.Names

/-!
How the name of a package is read. Its segments are the identifiers of the name that are in no other identifier, in
the order of the source, whatever stands between them. The walk does not leave the name: it may as well be made with a
cursor of the whole source that stops where it comes back to the node that it began at.
-/

namespace Concordance.Java

variable {descends : Node → Bool} {source : String}

namespace Cursor

/-! ### All places in order -/

/-- All places of a tree, each before those below it. -/
def everywhere (root : Node) : List Cursor := inOrder (fun _ => true) root [] []

/-- No identifier is above the place. -/
def isUncovered (c : Cursor) : Bool := c.ancestors.all fun a => a.node.kind ≠ .identifier

theorem mem_everywhere_iff {root : Node} {c : Cursor} : c ∈ everywhere root ↔ c.In root := by
  rw [everywhere, ← trail_atRoot, mem_trail_iff]
  exact ⟨Open.isIn, fun h => ⟨h, fun _ _ => rfl⟩⟩

theorem map_node_everywhere (root : Node) : (everywhere root).map node = root.subtree := map_node_inOrder root [] []

mutual

theorem placesAbove_subset_inOrder (n : Node) (right : List Node) (above : List (Node × List Node)) :
    ∀ x ∈ inOrder descends n right above, placesAbove above ⊆ x.ancestors := by
  cases n with
  | mk info children =>
    rw [inOrder]
    refine List.forall_mem_cons.mpr ⟨List.Subset.refl _, ?_⟩
    split
    · exact fun x hx a ha =>
        placesAbove_subset_inOrderAll children ((.mk info children, right) :: above) x hx (List.mem_cons_of_mem _ ha)
    · exact nofun

theorem placesAbove_subset_inOrderAll (nodes : List Node) (above : List (Node × List Node)) :
    ∀ x ∈ inOrderAll descends nodes above, placesAbove above ⊆ x.ancestors := by
  cases nodes with
  | nil => exact nofun
  | cons n right =>
    rw [inOrderAll]
    exact fun x hx => (List.mem_append.mp hx).elim (placesAbove_subset_inOrder n right above x)
      (placesAbove_subset_inOrderAll right above x)

end

mutual

theorem inOrder_eq_filter : ∀ (n : Node) (right : List Node) (above : List (Node × List Node)),
    (placesAbove above).all (fun a => descends a.node) = true →
    inOrder descends n right above =
      (inOrder (fun _ => true) n right above).filter fun x => x.ancestors.all fun a => descends a.node
  | .mk info children, right, above, h => by
    have hhere : (Cursor.ancestors ⟨.mk info children, right, above⟩).all (fun a => descends a.node) = true := h
    rw [inOrder, inOrder, if_pos rfl, List.filter_cons, if_pos hhere]
    refine congrArg _ ?_
    split
    · next hdescends =>
      refine inOrderAll_eq_filter children _ (List.all_cons.trans ?_)
      rw [hdescends, h]
      rfl
    · next hdescends =>
      -- All places further down have this one above them.
      refine (List.filter_eq_nil_iff.mpr fun x hx hall => hdescends ?_).symm
      exact List.all_eq_true.mp hall _ (placesAbove_subset_inOrderAll _ _ x hx List.mem_cons_self)

theorem inOrderAll_eq_filter : ∀ (nodes : List Node) (above : List (Node × List Node)),
    (placesAbove above).all (fun a => descends a.node) = true →
    inOrderAll descends nodes above =
      (inOrderAll (fun _ => true) nodes above).filter fun x => x.ancestors.all fun a => descends a.node
  | [], _, _ => rfl
  | n :: right, above, h => by
    rw [inOrderAll, inOrderAll, List.filter_append, inOrder_eq_filter n right above h,
      inOrderAll_eq_filter right above h]

end

/-- A walk from the root leaves out just the places that a node above closes off. -/
theorem trail_eq_filter (root : Node) :
    (atRoot root).trail descends = (everywhere root).filter fun c => c.ancestors.all fun a => descends a.node :=
  (trail_atRoot root).trans (inOrder_eq_filter root [] [] rfl)

/-! ### Moves -/

/-- A move of a walk, if it is not over. -/
def move (descends : Node → Bool) (c : Option Cursor) : Option Cursor := c.bind fun c => c.next? (descends c.node)

/-- A walk comes to its places one by one, and then it is over. -/
theorem iterate_move (c : Cursor) (moves : Nat) : (move descends)^[moves] (some c) = (c.trail descends)[moves]? := by
  induction c using walkInduction descends generalizing moves with
  | move c x h ih =>
    rw [trail_of_some h]
    cases moves with
    | zero => rfl
    | succ moves =>
      rw [Function.iterate_succ_apply, List.getElem?_cons_succ, ← ih]
      exact congrArg _ h
  | stop c h =>
    rw [trail_of_none h]
    cases moves with
    | zero => rfl
    | succ moves =>
      have hover : move descends (some c) = none := h
      rw [Function.iterate_succ_apply, hover, List.getElem?_cons_succ, List.getElem?_nil]
      exact Function.iterate_fixed rfl moves

/-! ### Walks that stay below a node -/

/-- The nearest sibling after a node or after one of the nodes above it, unless the climb comes to the node with the
given id first. -/
def climbUnder (top : Nat) (n : Node) : List Node → List (Node × List Node) → Option Cursor
  | m :: right, above => if n.id = top then none else some ⟨m, right, above⟩
  | [], (p, right) :: above => if n.id = top then none else climbUnder top p right above
  | [], [] => none

/-- The next node, each before its children, for a walk that began at the node with the given id. -/
def nextUnder? (top : Nat) (c : Cursor) (descend : Bool) : Option Cursor :=
  match if descend then c.firstChild? else none with
  | some child => some child
  | none => climbUnder top c.node c.right c.above

/-- A move of such a walk, if it is not over. -/
def moveUnder (top : Nat) (descends : Node → Bool) (c : Option Cursor) : Option Cursor :=
  c.bind fun c => c.nextUnder? top (descends c.node)

/-- Puts a place of the tree of the node at `p` below `p`. -/
def putUnder (p : Cursor) (n : Node) (right : List Node) : List (Node × List Node) → Cursor
  | [] => ⟨n, p.right, p.above⟩
  | (m, after) :: above => (putUnder p m after above).child n right

/-- The place of the whole tree that a place in the tree of the node at `p` is. -/
def under (p c : Cursor) : Cursor := putUnder p c.node c.right c.above

variable {root : Node} {p c : Cursor}

theorem under_atRoot (p : Cursor) : p.under (atRoot p.node) = p := rfl

@[simp] theorem under_child (p c : Cursor) (n : Node) (right : List Node) :
    p.under (c.child n right) = (p.under c).child n right := rfl

@[simp] theorem node_under (p c : Cursor) : (p.under c).node = c.node := by
  obtain ⟨n, right, above⟩ := c
  cases above <;> rfl

theorem In.under (hp : p.In root) (hc : c.In p.node) : (p.under c).In root := by
  induction hc with
  | top => exact hp
  | @child c n left right _ hchildren ih => exact ih.child ((congrArg _ (node_under p c)).trans hchildren)

theorem length_above_under (p : Cursor) (n : Node) (right : List Node) (above : List (Node × List Node)) :
    (p.under ⟨n, right, above⟩).above.length = above.length + p.above.length := by
  induction above generalizing n right with
  | nil => exact (Nat.zero_add _).symm
  | cons m above ih =>
    have hparent := ih m.1 m.2
    simp only [Cursor.under, putUnder, Cursor.child, List.length_cons] at hparent ⊢
    omega

/-- Only the node that the walk began at has its id. -/
theorem id_ne_of_under (distinct : root.DistinctIds) (hp : p.In root) {n : Node} {right : List Node}
    (hc : (c.child n right).In p.node) : n.id ≠ p.node.id := by
  intro hid
  -- With the id of `p` the place would be `p`, and there is more above it than above `p`.
  have hsame : p.under (c.child n right) = p := (hp.under hc).eq_of_id distinct hp hid
  have hlength := length_above_under p n right ((c.node, c.right) :: c.above)
  have habove : (p.under (c.child n right)).above.length = p.above.length := congrArg _ (congrArg _ hsame)
  simp only [Cursor.child, List.length_cons] at hlength habove
  omega

/-- A climb in the whole tree that ends at the node is a climb in the tree of the node. -/
theorem climbUnder_under (distinct : root.DistinctIds) (hp : p.In root) (hc : c.In p.node) :
    climbUnder p.node.id (p.under c).node (p.under c).right (p.under c).above = c.advance?.map p.under := by
  induction hc with
  | top =>
    -- Here the id ends the climb; in the tree of the node there is nothing above.
    rw [under_atRoot]
    obtain ⟨n, right, above⟩ := p
    fun_cases climbUnder n.id n right above <;> first | rfl | contradiction
  | @child c n left right hc hchildren ih =>
    have hne := id_ne_of_under distinct hp (hc.child hchildren)
    rw [under_child]
    cases right with
    | nil => exact (if_neg hne).trans ih
    | cons m right => exact if_neg hne

theorem nextUnder?_under (distinct : root.DistinctIds) (hp : p.In root) (hc : c.In p.node) (descend : Bool) :
    (p.under c).nextUnder? p.node.id descend = (c.next? descend).map p.under := by
  have hclimb := climbUnder_under distinct hp hc
  have hchild : (p.under c).firstChild? = c.firstChild?.map p.under := by
    rw [firstChild?, firstChild?, node_under]
    cases c.node.children <;> rfl
  rw [nextUnder?, next?, hclimb, hchild]
  cases descend with
  | false => rfl
  | true => cases c.firstChild? <;> rfl

/-- Move by move, the walk that stays below a node is the walk in the tree of the node. -/
theorem iterate_moveUnder (distinct : root.DistinctIds) (hp : p.In root) (hc : Open descends p.node c) (moves : Nat) :
    (moveUnder p.node.id descends)^[moves] (some (p.under c)) =
      ((move descends)^[moves] (some c)).map p.under := by
  induction moves generalizing c with
  | zero => rfl
  | succ moves ih =>
    have hstep : moveUnder p.node.id descends (some (p.under c)) = (c.next? (descends c.node)).map p.under := by
      rw [moveUnder, Option.bind_some, node_under, nextUnder?_under distinct hp hc.isIn]
    have hmove : move descends (some c) = c.next? (descends c.node) := rfl
    rw [Function.iterate_succ_apply, Function.iterate_succ_apply, hstep, hmove]
    cases h : c.next? (descends c.node) with
    | none => rw [Option.map_none, Function.iterate_fixed rfl, Function.iterate_fixed rfl, Option.map_none]
    | some x => exact ih (hc.next? h)

/-! ### Names of packages -/

/-- The identifiers of a name that are in no other identifier, in order. -/
def outermost (name : Node) : List Cursor :=
  (everywhere name).filter fun c => c.isUncovered && c.node.kind = .identifier

theorem mem_outermost_iff {name : Node} :
    c ∈ outermost name ↔ c.In name ∧ c.node.kind = .identifier ∧ ∀ a ∈ c.ancestors, a.node.kind ≠ .identifier := by
  rw [outermost, List.mem_filter, mem_everywhere_iff, Bool.and_eq_true, isUncovered, List.all_eq_true]
  simp only [decide_eq_true_eq]
  exact and_congr_right fun _ => and_comm

/-- A name as it is recorded. -/
def dotted (source : String) (name : Node) : String :=
  String.intercalate "." ((outermost name).map fun c => Tree.textOf source c.node)

theorem trail_of_name (name : Node) :
    (atRoot name).trail (fun n => n.kind ≠ .identifier) = (everywhere name).filter isUncovered :=
  trail_eq_filter name

theorem outermost_eq (name : Node) :
    outermost name =
      ((atRoot name).trail fun n => n.kind ≠ .identifier).filter fun c => c.node.kind = .identifier := by
  rw [trail_of_name, List.filter_filter, outermost]
  simp only [Bool.and_comm]

end Cursor

open Cursor

theorem segments_eq_outermost (source : String) (name : Node) :
    segments source name = (outermost name).map fun c => Tree.textOf source c.node := by
  rw [segments_eq, Node.identifiers, ← map_node_trail, List.filter_map, List.map_map, outermost_eq]
  rfl

/-- A walk in the whole tree that stays below a name goes through the places that no identifier is above. -/
theorem map_node_moveUnder {root : Node} {p : Cursor} (distinct : root.DistinctIds) (hp : p.In root) (moves : Nat) :
    ((moveUnder p.node.id fun n => n.kind ≠ .identifier)^[moves] (some p)).map node =
      (((everywhere p.node).filter isUncovered).map node)[moves]? := by
  have hopen : Open (fun n => n.kind ≠ .identifier) p.node (atRoot p.node) := ⟨.top, nofun⟩
  have hwalk := iterate_moveUnder distinct hp hopen moves
  rw [under_atRoot, iterate_move, trail_of_name] at hwalk
  rw [hwalk, Option.map_map, List.getElem?_map]
  exact congrFun (congrArg _ (funext fun c => node_under p c)) _

/-- A package declaration is recorded under the outermost identifiers of the first of its children that can be a name,
in order and with dots between them. Nothing else of the declaration matters. The walk goes through the places of the
name that no identifier is above, and then it is over, also when it is made in the whole source by a cursor that stops
where it comes back to the name. -/
theorem package_in_order (source : String) (declaration name : Node)
    (isPackage : declaration.kind = .packageDeclaration) (first : declaration.packageNode? = some name) :
    (∀ (c : Cursor) (e : Extraction), c.node = declaration →
      e.visit source c = { e with summary := e.summary.withPackage (dotted source name) }) ∧
    (∀ c, c ∈ outermost name ↔
      c.In name ∧ c.node.kind = .identifier ∧ ∀ a ∈ c.ancestors, a.node.kind ≠ .identifier) ∧
    (everywhere name).map node = name.subtree ∧
    ∀ (root : Node) (p : Cursor), root.DistinctIds → p.In root → p.node = name →
      (∀ moves, ((moveUnder name.id fun n => n.kind ≠ .identifier)^[moves] (some p)).map node =
        (((everywhere name).filter isUncovered).map node)[moves]?) ∧
      (moveUnder name.id fun n => n.kind ≠ .identifier)^[name.subtree.length] (some p) = none := by
  have hpackage : packageName? source declaration = some (dotted source name) := by
    rw [packageName?_eq isPackage, Node.package?, if_pos isPackage, first, Option.map_some, ← segments_eq,
      segments_eq_outermost, dotted]
  refine ⟨fun c e hc => ?_, fun _ => mem_outermost_iff, map_node_everywhere name, ?_⟩
  · rw [Extraction.visit, hc, isPackage]
    simp only [Extraction.recordPackage, hpackage]
  · rintro root p distinct hp rfl
    have hmoves := map_node_moveUnder distinct hp
    refine ⟨hmoves, Option.map_eq_none_iff.mp ((hmoves _).trans (List.getElem?_eq_none ?_))⟩
    rw [List.length_map, ← map_node_everywhere, List.length_map]
    exact List.length_filter_le ..

/-- The name of the package in `@Old package org./* old */demo . app; // now`. -/
def commentedName : Node :=
  .mk { id := 14, kind := .scopedIdentifier, start := 13, stop := 36 } [
    .mk { id := 15, kind := .scopedIdentifier, role := some (.other "scope"), start := 13, stop := 30 } [
      .mk { id := 16, kind := .identifier, role := some (.other "scope"), start := 13, stop := 16 } [],
      .mk { id := 18, kind := .other ".", named := false, start := 16, stop := 17 } [],
      .mk { id := 20, kind := .other "block_comment", start := 17, stop := 26 } [],
      .mk { id := 22, kind := .identifier, role := some .name, start := 26, stop := 30 } []],
    .mk { id := 25, kind := .other ".", named := false, start := 31, stop := 32 } [],
    .mk { id := 27, kind := .identifier, role := some .name, start := 33, stop := 36 } []]

/-- The declaration, with the annotation before the name. -/
def commentedDeclaration : Node :=
  .mk { id := 4, kind := .packageDeclaration, stop := 37 } [
    .mk { id := 6, kind := .other "marker_annotation", stop := 4 } [
      .mk { id := 7, kind := .other "@", named := false, stop := 1 } [],
      .mk { id := 9, kind := .identifier, role := some .name, start := 1, stop := 4 } []],
    .mk { id := 12, kind := .other "package", named := false, start := 5, stop := 12 } [],
    commentedName,
    .mk { id := 30, kind := .other ";", named := false, start := 36, stop := 37 } []]

/-- The tree of the whole source. -/
def commentedTree : Tree where
  source := "@Old package org./* old */demo . app; // now"
  root :=
    .mk { id := 0, kind := .program, stop := 44 } [
      commentedDeclaration,
      .mk { id := 33, kind := .other "line_comment", start := 38, stop := 44 } []]

/-- The comment between the segments is passed over, and what is around the name is not looked at. -/
theorem package_in_order_commented :
    commentedDeclaration.packageNode? = some commentedName ∧
    commentedTree.root.DistinctIds ∧
    (Extraction.visit commentedTree.source (.child (atRoot commentedTree.root) commentedDeclaration [])
      {}).summary.package = "org.demo.app" ∧
    ∃ p : Cursor, p.In commentedTree.root ∧ p.node = commentedName ∧
      (moveUnder 14 fun n => n.kind ≠ .identifier)^[8] (some p) = none := by
  have hname : commentedDeclaration.packageNode? = some commentedName := rfl
  have hdistinct : commentedTree.root.DistinctIds := by decide
  obtain ⟨hvisit, -, -, hwalk⟩ := package_in_order commentedTree.source commentedDeclaration commentedName rfl hname
  have hchildren : commentedTree.root.children = [] ++ commentedDeclaration :: commentedTree.root.children.drop 1 := rfl
  have hnext : commentedDeclaration.children =
    commentedDeclaration.children.take 2 ++ commentedName :: commentedDeclaration.children.drop 3 := rfl
  have hp := (In.top.child hchildren).child hnext
  refine ⟨hname, hdistinct, ?_, _, hp, rfl, (hwalk _ _ hdistinct hp rfl).2⟩
  rw [hvisit _ _ rfl]
  cbv

end Concordance.Java
