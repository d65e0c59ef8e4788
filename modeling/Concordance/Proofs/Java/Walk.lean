import Concordance.Java.Cursor
import Mathlib.Data.List.Nodup

/-!
The places of a tree and the walks over it. A walk visits a node before the nodes below it, it comes to
every place that no node above closes off, and it comes there once.
-/

namespace Concordance.Java

variable {σ : Type} {descends : Node → Bool}

/-! ### Nodes in order -/

namespace Node

mutual

/-- The nodes of a tree, each before its children; these are left out where a node is not descended
into. -/
def preorder (descends : Node → Bool) : Node → List Node
  | mk info children =>
    mk info children :: if descends (mk info children) then preorderAll descends children else []

def preorderAll (descends : Node → Bool) : List Node → List Node
  | [] => []
  | n :: rest => n.preorder descends ++ preorderAll descends rest

end

theorem preorder_eq (n : Node) :
    n.preorder descends = n :: if descends n then preorderAll descends n.children else [] := by
  cases n with
  | mk info nodes => rw [preorder, children]

/-- The ids of all nodes. -/
def ids (n : Node) : List Nat := (n.preorder fun _ => true).map id

/-- No two nodes have the same id. -/
def DistinctIds (root : Node) : Prop := root.ids.Nodup

instance (root : Node) : Decidable root.DistinctIds := inferInstanceAs (Decidable root.ids.Nodup)

end Node

namespace Cursor

/-! ### Places -/

/-- The places of a tree. -/
inductive In (root : Node) : Cursor → Prop where
  | top : In root (.atRoot root)
  | child {c : Cursor} {n : Node} {left right : List Node} :
      In root c → c.node.children = left ++ n :: right → In root (c.child n right)

def placesAbove : List (Node × List Node) → List Cursor
  | [] => []
  | (n, right) :: above => ⟨n, right, above⟩ :: placesAbove above

/-- The places above, the nearest first. -/
def ancestors (c : Cursor) : List Cursor := placesAbove c.above

@[simp] theorem node_child (c : Cursor) (n : Node) (right : List Node) : (c.child n right).node = n := rfl

@[simp] theorem parent?_child (c : Cursor) (n : Node) (right : List Node) :
    (c.child n right).parent? = some c.node := rfl

@[simp] theorem ancestors_atRoot (root : Node) : (atRoot root).ancestors = [] := rfl

@[simp] theorem ancestors_child (c : Cursor) (n : Node) (right : List Node) :
    (c.child n right).ancestors = c :: c.ancestors := rfl

theorem ancestors_subset {c a : Cursor} (ha : a ∈ c.ancestors) : a.ancestors ⊆ c.ancestors := by
  obtain ⟨node, right, above⟩ := c
  induction above generalizing node right with
  | nil => cases ha
  | cons p above ih =>
    rcases List.mem_cons.mp ha with rfl | ha
    · exact List.subset_cons_self _ _
    · exact fun b hb => List.mem_cons_of_mem _ (ih p.1 p.2 ha hb)

/-- The places of siblings. -/
def places : List Node → List (Node × List Node) → List Cursor
  | [], _ => []
  | n :: right, above => ⟨n, right, above⟩ :: places right above

def afterAbove : List (Node × List Node) → List Cursor
  | [] => []
  | (_, right) :: above => places right above ++ afterAbove above

/-- The places where a walk goes on when it has left a node: the siblings after the node and after
those above it. -/
def after (c : Cursor) : List Cursor := places c.right c.above ++ afterAbove c.above

theorem after_child (c : Cursor) (n : Node) (right : List Node) :
    (c.child n right).after = places right ((c.node, c.right) :: c.above) ++ c.after := rfl

theorem mem_places (left : List Node) (n : Node) (right : List Node) (above : List (Node × List Node)) :
    ⟨n, right, above⟩ ∈ places (left ++ n :: right) above := by
  induction left with
  | nil => exact List.mem_cons_self
  | cons m left ih => exact List.mem_cons_of_mem _ ih

/-! ### Single moves -/

theorem climb_eq_some {right : List Node} {above : List (Node × List Node)} {x : Cursor}
    (h : climb right above = some x) : places right above ++ afterAbove above = x :: x.after := by
  fun_induction climb right above with
  | case1 above n right =>
    cases h
    rfl
  | case2 above p right ih => exact ih h
  | case3 => cases h

theorem climb_eq_none {right : List Node} {above : List (Node × List Node)}
    (h : climb right above = none) : places right above ++ afterAbove above = [] := by
  fun_induction climb right above with
  | case1 above n right => cases h
  | case2 above p right ih => exact ih h
  | case3 => rfl

/-- A cursor moves to the first child or leaves the node. -/
theorem next?_eq_some {c x : Cursor} {descend : Bool} (h : c.next? descend = some x) :
    (∃ n right, descend = true ∧ c.node.children = n :: right ∧ x = c.child n right) ∨
      ((descend = true → c.node.children = []) ∧ c.after = x :: x.after) := by
  simp only [next?, firstChild?] at h
  cases hchildren : c.node.children with
  | nil =>
    have h : c.advance? = some x := by cases descend <;> simpa [hchildren] using h
    exact .inr ⟨fun _ => rfl, climb_eq_some h⟩
  | cons n right =>
    cases descend with
    | false =>
      have h : c.advance? = some x := by simpa using h
      exact .inr ⟨fun hfalse => absurd hfalse Bool.false_ne_true, climb_eq_some h⟩
    | true => exact .inl ⟨n, right, rfl, rfl, by simpa [hchildren] using h.symm⟩

theorem next?_eq_none {c : Cursor} {descend : Bool} (h : c.next? descend = none) :
    (descend = true → c.node.children = []) ∧ c.after = [] := by
  simp only [next?, firstChild?] at h
  cases hchildren : c.node.children with
  | nil =>
    have h : c.advance? = none := by cases descend <;> simpa [hchildren] using h
    exact ⟨fun _ => rfl, climb_eq_none h⟩
  | cons n right =>
    cases descend with
    | false =>
      have h : c.advance? = none := by simpa using h
      exact ⟨fun hfalse => absurd hfalse Bool.false_ne_true, climb_eq_none h⟩
    | true => simp [hchildren] at h

theorem ancestors_of_mem_places {right : List Node} {above : List (Node × List Node)} {x : Cursor}
    (hx : x ∈ places right above) : x.ancestors = placesAbove above := by
  induction right with
  | nil => cases hx
  | cons n right ih =>
    rcases List.mem_cons.mp hx with rfl | hx
    · rfl
    · exact ih hx

theorem ancestors_of_mem_afterAbove {above : List (Node × List Node)} {x : Cursor}
    (hx : x ∈ afterAbove above) : x.ancestors ⊆ placesAbove above := by
  induction above with
  | nil => cases hx
  | cons p above ih =>
    rcases List.mem_append.mp hx with hx | hx
    · rw [ancestors_of_mem_places hx]
      exact List.subset_cons_self _ _
    · exact fun a ha => List.mem_cons_of_mem _ (ih hx ha)

/-- The places above those that come after a node are above the node too. -/
theorem ancestors_of_mem_after {c x : Cursor} (hx : x ∈ c.after) : x.ancestors ⊆ c.ancestors := by
  rcases List.mem_append.mp hx with hx | hx
  · rw [ancestors_of_mem_places hx]
    exact List.Subset.refl _
  · exact ancestors_of_mem_afterAbove hx

theorem ancestors_of_next? {c x : Cursor} {descend : Bool} (h : c.next? descend = some x) :
    x.ancestors ⊆ c :: c.ancestors := by
  obtain ⟨n, right, -, -, rfl⟩ | ⟨-, hafter⟩ := next?_eq_some h
  · exact List.Subset.refl _
  · have hx : x ∈ c.after := hafter ▸ List.mem_cons_self
    exact fun a ha => List.mem_cons_of_mem _ (ancestors_of_mem_after hx ha)

/-! ### Places are closed under moves -/

variable {root : Node}

theorem In.ancestor {c a : Cursor} (hc : In root c) (ha : a ∈ c.ancestors) : In root a := by
  induction hc with
  | top => cases ha
  | @child c n left right hc _ ih =>
    rw [ancestors_child] at ha
    rcases List.mem_cons.mp ha with rfl | ha
    · exact hc
    · exact ih ha

theorem In.sibling {n m : Node} {right : List Node} {above : List (Node × List Node)}
    (hc : In root ⟨n, m :: right, above⟩) : In root ⟨m, right, above⟩ := by
  cases hc with
  | @child c _ left _ hc hchildren =>
    have hchildren : c.node.children = (left ++ [n]) ++ m :: right := by
      rw [hchildren, List.append_assoc]
      rfl
    exact hc.child hchildren

theorem In.of_mem_places {n : Node} {right : List Node} {above : List (Node × List Node)} {x : Cursor}
    (hc : In root ⟨n, right, above⟩) (hx : x ∈ places right above) : In root x := by
  induction right generalizing n with
  | nil => cases hx
  | cons m right ih =>
    rcases List.mem_cons.mp hx with rfl | hx
    · exact hc.sibling
    · exact ih hc.sibling hx

theorem In.of_mem_afterAbove {n : Node} {right : List Node} {above : List (Node × List Node)}
    {x : Cursor} (hc : In root ⟨n, right, above⟩) (hx : x ∈ afterAbove above) : In root x := by
  induction above generalizing n right with
  | nil => cases hx
  | cons p above ih =>
    have hp : In root ⟨p.1, p.2, above⟩ := hc.ancestor List.mem_cons_self
    rcases List.mem_append.mp hx with hx | hx
    · exact hp.of_mem_places hx
    · exact ih hp hx

theorem In.of_mem_after {c x : Cursor} (hc : In root c) (hx : x ∈ c.after) : In root x := by
  rcases List.mem_append.mp hx with hx | hx
  · exact hc.of_mem_places hx
  · exact hc.of_mem_afterAbove hx

/-- The places of a tree that no node above closes off. -/
structure Open (descends : Node → Bool) (root : Node) (c : Cursor) : Prop where
  isIn : In root c
  descends : ∀ a ∈ c.ancestors, descends a.node = true

theorem Open.next? {c x : Cursor} (hc : Open descends root c)
    (h : c.next? (descends c.node) = some x) : Open descends root x := by
  obtain ⟨n, right, hdescends, hchildren, rfl⟩ | ⟨-, hafter⟩ := next?_eq_some h
  · have hchildren : c.node.children = [] ++ n :: right := hchildren
    refine ⟨hc.isIn.child hchildren, fun a ha => ?_⟩
    rcases List.mem_cons.mp ha with rfl | ha
    · exact hdescends
    · exact hc.descends a ha
  · have hx : x ∈ c.after := hafter ▸ List.mem_cons_self
    exact ⟨hc.isIn.of_mem_after hx, fun a ha => hc.descends a (ancestors_of_mem_after hx ha)⟩

/-! ### Whole walks -/

/-- The places that a walk visits, in order. -/
def trail (descends : Node → Bool) (c : Cursor) : List Cursor :=
  c :: match _h : c.next? (descends c.node) with
    | some x => trail descends x
    | none => []
termination_by c.remaining
decreasing_by exact remaining_of_next? _h

theorem trail_of_some {c x : Cursor} (h : c.next? (descends c.node) = some x) :
    c.trail descends = c :: x.trail descends := by
  rw [trail]
  split
  · next y hy =>
    cases hy.symm.trans h
    rfl
  · next hnone => cases hnone.symm.trans h

theorem mem_trail (c : Cursor) : c ∈ c.trail descends := by
  rw [trail]
  exact List.mem_cons_self

theorem trail_of_none {c : Cursor} (h : c.next? (descends c.node) = none) :
    c.trail descends = [c] := by
  rw [trail]
  split
  · next y hy => cases hy.symm.trans h
  · rfl

/-- Induction on the rest of a walk. -/
theorem walkInduction (descends : Node → Bool) {P : Cursor → Prop}
    (move : ∀ c x, c.next? (descends c.node) = some x → P x → P c)
    (stop : ∀ c, c.next? (descends c.node) = none → P c) (c : Cursor) : P c :=
  match h : c.next? (descends c.node) with
  | some x => move c x h (walkInduction descends move stop x)
  | none => stop c h
termination_by c.remaining
decreasing_by exact remaining_of_next? h

theorem walk_eq_foldl (visit : Cursor → σ → σ) (c : Cursor) (s : σ) :
    c.walk descends visit s = (c.trail descends).foldl (fun s c => visit c s) s := by
  fun_induction walk descends visit c s with
  | case1 c s x h ih => rw [trail_of_some h, List.foldl_cons, ih]
  | case2 c s h => rw [trail_of_none h, List.foldl_cons, List.foldl_nil]

/-- A walk comes to every place where it can go on. -/
theorem after_subset_trail (c : Cursor) : c.after ⊆ c.trail descends := by
  -- A move down adds places to go on at, a move away takes the first of them.
  induction c using walkInduction descends with
  | move c x h ih =>
    rw [trail_of_some h]
    obtain ⟨n, right, -, -, rfl⟩ | ⟨-, hafter⟩ := next?_eq_some h
    · exact fun y hy => List.mem_cons_of_mem _ (ih (List.mem_append_right _ hy))
    · rw [hafter]
      exact List.cons_subset.mpr ⟨List.mem_cons_of_mem _ (mem_trail x), fun y hy => List.mem_cons_of_mem _ (ih hy)⟩
  | stop c h =>
    rw [(next?_eq_none h).2]
    exact List.nil_subset _

theorem child_mem_trail {c : Cursor} {n : Node} {left right : List Node}
    (hdescends : descends c.node = true) (hchildren : c.node.children = left ++ n :: right) :
    c.child n right ∈ c.trail descends := by
  cases h : c.next? (descends c.node) with
  | none => simp [(next?_eq_none h).1 hdescends] at hchildren
  | some x =>
    rw [trail_of_some h]
    obtain ⟨m, rest, -, hfirst, rfl⟩ | ⟨hnil, -⟩ := next?_eq_some h
    · have hmem : c.child n right ∈ places (m :: rest) ((c.node, c.right) :: c.above) := by
        rw [← hfirst, hchildren]
        exact mem_places ..
      rcases List.mem_cons.mp hmem with heq | hmem
      · rw [heq]
        exact List.mem_cons_of_mem _ (mem_trail _)
      · exact List.mem_cons_of_mem _ (after_subset_trail _ (List.mem_append_left _ hmem))
    · simp [hnil hdescends] at hchildren

theorem trail_subset {c x : Cursor} (hx : x ∈ c.trail descends) : x.trail descends ⊆ c.trail descends := by
  induction c using walkInduction descends with
  | move c y h ih =>
    rw [trail_of_some h] at hx ⊢
    rcases List.mem_cons.mp hx with rfl | hx
    · rw [trail_of_some h]
      exact List.Subset.refl _
    · exact fun z hz => List.mem_cons_of_mem _ (ih hx hz)
  | stop c h =>
    rw [trail_of_none h, List.mem_singleton] at hx
    rw [hx]
    exact List.Subset.refl _

theorem Open.of_mem_trail {c x : Cursor} (hc : Open descends root c) (hx : x ∈ c.trail descends) :
    Open descends root x := by
  induction c using walkInduction descends with
  | move c y h ih =>
    rw [trail_of_some h] at hx
    rcases List.mem_cons.mp hx with rfl | hx
    · exact hc
    · exact ih (hc.next? h) hx
  | stop c h =>
    rw [trail_of_none h, List.mem_singleton] at hx
    exact hx ▸ hc

theorem Open.mem_trail {c : Cursor} (hc : Open descends root c) :
    c ∈ (atRoot root).trail descends := by
  obtain ⟨hin, hdescends⟩ := hc
  induction hin with
  | top => exact Cursor.mem_trail _
  | @child c n left right _ hchildren ih =>
    rw [ancestors_child] at hdescends
    exact trail_subset (ih fun a ha => hdescends a (List.mem_cons_of_mem _ ha))
      (child_mem_trail (hdescends c List.mem_cons_self) hchildren)

/-- A walk from the root visits the places that no node above closes off. -/
theorem mem_trail_iff {c : Cursor} : c ∈ (atRoot root).trail descends ↔ Open descends root c :=
  ⟨Open.of_mem_trail ⟨.top, nofun⟩, Open.mem_trail⟩

/-- A node is visited after the nodes above it. -/
theorem ancestors_visited {c x : Cursor} {before later : List Cursor}
    (h : c.trail descends = before ++ x :: later) : x.ancestors ⊆ before ++ c.ancestors := by
  induction c using walkInduction descends generalizing before with
  | move c y hnext ih =>
    rw [trail_of_some hnext] at h
    cases before with
    | nil =>
      cases h
      exact List.Subset.refl _
    | cons b before =>
      obtain ⟨rfl, hrest⟩ := List.cons.inj h
      intro a ha
      rcases List.mem_append.mp (ih hrest ha) with ha | ha
      · exact List.mem_append_left _ (List.mem_cons_of_mem _ ha)
      · rcases List.mem_cons.mp (ancestors_of_next? hnext ha) with rfl | ha
        · exact List.mem_append_left _ List.mem_cons_self
        · exact List.mem_append_right _ ha
  | stop c hnext =>
    rw [trail_of_none hnext] at h
    cases before with
    | nil =>
      cases h
      exact List.Subset.refl _
    | cons b before => simp at h

/-! ### Places in order -/

mutual

/-- The places of a tree that stands at a place, each before those below it. There are none below a node
that is not descended into. -/
def inOrder (descends : Node → Bool) : Node → List Node → List (Node × List Node) → List Cursor
  | .mk info children, right, above =>
    ⟨.mk info children, right, above⟩ ::
      if descends (.mk info children) then inOrderAll descends children ((.mk info children, right) :: above) else []

def inOrderAll (descends : Node → Bool) : List Node → List (Node × List Node) → List Cursor
  | [], _ => []
  | n :: right, above => inOrder descends n right above ++ inOrderAll descends right above

end

theorem inOrder_eq (n : Node) (right : List Node) (above : List (Node × List Node)) :
    inOrder descends n right above =
      ⟨n, right, above⟩ :: if descends n then inOrderAll descends n.children ((n, right) :: above) else [] := by
  cases n with
  | mk info children => rw [inOrder, Node.children]

theorem inOrderAll_eq_flatMap (nodes : List Node) (above : List (Node × List Node)) :
    inOrderAll descends nodes above =
      (places nodes above).flatMap fun x => inOrder descends x.node x.right x.above := by
  induction nodes with
  | nil => rfl
  | cons n right ih => rw [inOrderAll, ih, places, List.flatMap_cons]

/-- A walk goes through the places below the node that it begins at, and then on to where it leaves the node. -/
theorem trail_eq (c : Cursor) :
    c.trail descends =
      inOrder descends c.node c.right c.above ++
        c.after.flatMap fun x => inOrder descends x.node x.right x.above := by
  induction c using walkInduction descends with
  | move c x h ih =>
    rw [trail_of_some h, ih, inOrder_eq c.node]
    obtain ⟨n, right, hdescends, hchildren, rfl⟩ | ⟨hnil, hafter⟩ := next?_eq_some h
    · rw [after_child, List.flatMap_append, ← inOrderAll_eq_flatMap, if_pos hdescends, hchildren, inOrderAll,
        List.cons_append, List.append_assoc]
      rfl
    · rw [hafter, List.flatMap_cons]
      split
      · next hdescends => rw [hnil hdescends, inOrderAll, List.singleton_append]
      · rw [List.singleton_append]
  | stop c h =>
    obtain ⟨hnil, hafter⟩ := next?_eq_none h
    rw [trail_of_none h, hafter, inOrder_eq c.node]
    split
    · next hdescends => rw [hnil hdescends, inOrderAll]; rfl
    · rfl

theorem trail_atRoot (root : Node) : (atRoot root).trail descends = inOrder descends root [] [] :=
  (trail_eq _).trans (List.append_nil _)

mutual

theorem map_node_inOrder : ∀ (n : Node) (right : List Node) (above : List (Node × List Node)),
    (inOrder descends n right above).map node = n.preorder descends
  | .mk info children, right, above => by
    rw [inOrder, Node.preorder, List.map_cons]
    refine congrArg _ ?_
    split
    · exact map_node_inOrderAll children _
    · rfl

theorem map_node_inOrderAll : ∀ (nodes : List Node) (above : List (Node × List Node)),
    (inOrderAll descends nodes above).map node = Node.preorderAll descends nodes
  | [], _ => rfl
  | n :: right, above => by
    rw [inOrderAll, Node.preorderAll, List.map_append, map_node_inOrder n right above, map_node_inOrderAll right above]

end

/-- A walk from the root visits the nodes in order. -/
theorem map_node_trail (root : Node) :
    ((atRoot root).trail descends).map node = root.preorder descends := by
  rw [trail_atRoot, map_node_inOrder]

/-- Where ids are distinct they tell places apart. -/
theorem In.eq_of_id {a b : Cursor} (distinct : root.DistinctIds) (ha : In root a) (hb : In root b)
    (h : a.node.id = b.node.id) : a = b := by
  have hnodup : (((atRoot root).trail fun _ => true).map fun c => c.node.id).Nodup := by
    have hids : ((atRoot root).trail fun _ => true).map (fun c => c.node.id) = root.ids := by
      rw [Node.ids, ← map_node_trail, List.map_map]
      rfl
    rw [hids]
    exact distinct
  have hvisited : ∀ {c}, In root c → c ∈ (atRoot root).trail fun _ => true :=
    fun hc => mem_trail_iff.mpr ⟨hc, fun _ _ => rfl⟩
  exact List.inj_on_of_nodup_map hnodup (hvisited ha) (hvisited hb) h

end Cursor

end Concordance.Java
