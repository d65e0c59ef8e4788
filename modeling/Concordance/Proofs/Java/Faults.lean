import Mathlib
import Concordance.Java.Summary
import Concordance.Proofs.Java.Walk

/-!
Which sources are accepted. The search for an error leaves out what is below a node without the error flag. If the flags
are right, there is no fault down there, so the search comes to the node that a search of the whole tree would find
first, and a source is accepted exactly if there is no fault in its tree.
-/

namespace Concordance.Java

namespace Node

/-- An error, or a token that is missing. -/
def isFault (n : Node) : Bool := n.isError || n.isMissing

/-- All nodes of a tree, each before those below it. -/
def subtree (n : Node) : List Node := n.preorder fun _ => true

/-- The flag of a node tells of the faults in it. A node that is a fault itself may do without: it is found anyway. -/
def Flagged (root : Node) : Prop :=
  ∀ n ∈ root.subtree, n.isFault = false → (∃ x ∈ n.subtree, x.isFault = true) → n.hasError = true

instance (root : Node) : Decidable root.Flagged := inferInstanceAs (Decidable (∀ n ∈ root.subtree,
  n.isFault = false → (∃ x ∈ n.subtree, x.isFault = true) → n.hasError = true))

variable {n root : Node} {nodes : List Node}

theorem subtree_eq (n : Node) : n.subtree = n :: preorderAll (fun _ => true) n.children := preorder_eq n

theorem mem_subtree_self : n ∈ n.subtree := by
  rw [subtree_eq]
  exact List.mem_cons_self

theorem subtree_subset_preorderAll (h : n ∈ nodes) : n.subtree ⊆ preorderAll (fun _ => true) nodes := by
  induction nodes with
  | nil => cases h
  | cons m rest ih =>
    intro x hx
    rcases List.mem_cons.mp h with rfl | h
    · exact List.mem_append_left _ hx
    · exact List.mem_append_right _ (ih h hx)

theorem Flagged.child (h : root.Flagged) (hn : n ∈ root.children) : n.Flagged := by
  intro x hx
  refine h x ?_
  rw [subtree_eq]
  exact List.mem_cons_of_mem _ (subtree_subset_preorderAll hn hx)

mutual

/-- Where the flags are right, nothing is found later for the nodes that are left out. -/
theorem find?_preorder_hasError : ∀ n : Node, n.Flagged →
    (n.preorder hasError).find? isFault = n.subtree.find? isFault
  | mk info children, h => by
    have hall := find?_preorderAll_hasError children fun n hn => h.child hn
    rw [subtree_eq, preorder_eq]
    cases hfault : (mk info children).isFault with
    | true => rw [List.find?_cons_of_pos hfault, List.find?_cons_of_pos hfault]
    | false =>
      have hsound : ¬(mk info children).isFault = true := by simp [hfault]
      rw [List.find?_cons_of_neg hsound, List.find?_cons_of_neg hsound]
      split
      · exact hall
      · next hflag =>
        rw [List.find?_nil, eq_comm, List.find?_eq_none]
        intro x hx hx'
        refine hflag (h _ mem_subtree_self hfault ⟨x, ?_, hx'⟩)
        rw [subtree_eq]
        exact List.mem_cons_of_mem _ hx

theorem find?_preorderAll_hasError : ∀ nodes : List Node, (∀ n ∈ nodes, n.Flagged) →
    (preorderAll hasError nodes).find? isFault = (preorderAll (fun _ => true) nodes).find? isFault
  | [], _ => rfl
  | n :: rest, h => by
    obtain ⟨hn, hrest⟩ := List.forall_mem_cons.mp h
    have hhere := find?_preorder_hasError n hn
    rw [subtree] at hhere
    rw [preorderAll, preorderAll, List.find?_append, List.find?_append, hhere, find?_preorderAll_hasError rest hrest]

end

end Node

/-- The search goes through the nodes of a walk that descends where there are errors. -/
theorem findError_eq (c : Cursor) : findError c = ((c.trail Node.hasError).map Cursor.node).find? Node.isFault := by
  fun_induction findError c with
  | case1 c h =>
    have hfault : c.node.isFault = true := h
    rw [Cursor.trail, List.map_cons, List.find?_cons_of_pos hfault]
  | case2 c h after hnext ih =>
    have hfault : ¬c.node.isFault = true := h
    rw [Cursor.trail_of_some hnext, List.map_cons, List.find?_cons_of_neg hfault, ih]
  | case3 c h hnext =>
    have hfault : ¬c.node.isFault = true := h
    rw [Cursor.trail_of_none hnext, List.map_singleton, List.find?_cons_of_neg hfault, List.find?_nil]

theorem firstError?_eq {t : Tree} (h : t.root.Flagged) : firstError? t = t.root.subtree.find? Node.isFault := by
  rw [firstError?, findError_eq, Cursor.map_node_trail]
  exact Node.find?_preorder_hasError t.root h

/-! ### Builds -/

section

variable {parse : String → Option Tree} {extensions : List String} {file : FileId} {source : String} {t : Tree}

theorem buildWith_of_clean (supported : Path.hasExtension extensions file.text = true)
    (read : parse source = some t) (h : firstError? t = none) :
    buildWith parse extensions file source = .ok (summarize t) := by
  rw [buildWith, supported, read]
  simp only [Bool.not_true, Bool.false_eq_true, if_false, resultOf, h]

theorem buildWith_of_broken {n : Node} (supported : Path.hasExtension extensions file.text = true)
    (read : parse source = some t) (h : firstError? t = some n) :
    buildWith parse extensions file source =
      .error (.malformed file ("unexpected syntax at line " ++ toString (n.info.row + 1)) (summarize t)) := by
  rw [buildWith, supported, read]
  simp only [Bool.not_true, Bool.false_eq_true, if_false, resultOf, h]

end

/-- In a tree whose flags are right, the first error is the first fault of all nodes. So a supported source is accepted
    exactly if there is no fault in its tree. Otherwise it is refused with the line of the first fault, the first line
    being 1, and with the summary that it would have been accepted with. -/
theorem accepted_iff_faultless (parse : String → Option Tree) (extensions : List String) (file : FileId)
    (supported : Path.hasExtension extensions file.text = true) (source : String) (t : Tree)
    (read : parse source = some t) (flagged : t.root.Flagged) :
    firstError? t = t.root.subtree.find? Node.isFault ∧
    (firstError? t = none ↔ ∀ n ∈ t.root.subtree, n.isFault = false) ∧
    (buildWith parse extensions file source = .ok (summarize t) ↔ ∀ n ∈ t.root.subtree, n.isFault = false) ∧
    ∀ before n after, t.root.subtree = before ++ n :: after → (∀ m ∈ before, m.isFault = false) → n.isFault = true →
      buildWith parse extensions file source =
        .error (.malformed file ("unexpected syntax at line " ++ toString (n.info.row + 1)) (summarize t)) := by
  have hfirst := firstError?_eq flagged
  have hnone : firstError? t = none ↔ ∀ n ∈ t.root.subtree, n.isFault = false := by
    rw [hfirst, List.find?_eq_none]
    simp only [Bool.not_eq_true]
  refine ⟨hfirst, hnone, ?_, ?_⟩
  · rw [← hnone]
    refine ⟨fun h => ?_, buildWith_of_clean supported read⟩
    cases herror : firstError? t with
    | none => rfl
    | some n => exact nomatch (buildWith_of_broken supported read herror).symm.trans h
  · intro before n after hsplit hbefore hfault
    refine buildWith_of_broken supported read (hfirst.trans (List.find?_eq_some_iff_append.mpr ?_))
    exact ⟨hfault, before, after, hsplit, fun m hm => by rw [hbefore m hm]; rfl⟩

/-- The tree of a source with a sound block, a block in which a semicolon is missing and a block with a stray sign. -/
def faultyTree : Tree where
  source := "\x7b\x7d\n\x7b int x \x7d\n\x7b # \x7d"
  root :=
    .mk { id := 0, kind := .program, stop := 18, hasError := true } [
      .mk { id := 4, kind := .other "block", stop := 2 } [
        .mk { id := 5, kind := .other "\x7b", named := false, stop := 1 } [],
        .mk { id := 7, kind := .other "\x7d", named := false, start := 1, stop := 2 } []],
      .mk { id := 11, kind := .other "block", start := 3, stop := 12, row := 1, hasError := true } [
        .mk { id := 12, kind := .other "\x7b", named := false, start := 3, stop := 4, row := 1 } [],
        .mk { id := 15, kind := .other "local_variable_declaration", start := 5, stop := 10, row := 1,
              hasError := true } [
          .mk { id := 18, kind := .other "integral_type", role := some (.other "type"), start := 5, stop := 8,
                row := 1 } [
            .mk { id := 19, kind := .other "int", named := false, start := 5, stop := 8, row := 1 } []],
          .mk { id := 23, kind := .other "variable_declarator", role := some .declarator, start := 9, stop := 10,
                row := 1 } [
            .mk { id := 25, kind := .identifier, role := some .name, start := 9, stop := 10, row := 1 } []],
          .mk { id := 28, kind := .other ";", named := false, start := 10, stop := 10, row := 1, missing := true,
                hasError := true } []],
        .mk { id := 31, kind := .other "\x7d", named := false, start := 11, stop := 12, row := 1 } []],
      .mk { id := 35, kind := .other "block", start := 13, stop := 18, row := 2, hasError := true } [
        .mk { id := 36, kind := .other "\x7b", named := false, start := 13, stop := 14, row := 2 } [],
        .mk { id := 38, kind := .error, start := 15, stop := 16, row := 2, hasError := true } [
          .mk { id := 40, kind := .error, start := 15, stop := 16, row := 2 } []],
        .mk { id := 43, kind := .other "\x7d", named := false, start := 17, stop := 18, row := 2 } []]]

/-- A parser for that source. -/
def parseFaulty (source : String) : Option Tree := if source = faultyTree.source then some faultyTree else none

/-- The missing semicolon is told of, not the sign after it. -/
theorem accepted_iff_faultless_missing :
    faultyTree.root.Flagged ∧
    buildWith parseFaulty ["java"] ⟨"A.java"⟩ faultyTree.source =
      .error (.malformed ⟨"A.java"⟩ "unexpected syntax at line 2" (summarize faultyTree)) := by
  have hflagged : faultyTree.root.Flagged := by decide
  have hread : parseFaulty faultyTree.source = some faultyTree := if_pos rfl
  obtain ⟨-, -, -, hrefused⟩ :=
    accepted_iff_faultless parseFaulty ["java"] ⟨"A.java"⟩ (by cbv) faultyTree.source faultyTree hread hflagged
  exact ⟨hflagged, hrefused (faultyTree.root.subtree.take 11) _ (faultyTree.root.subtree.drop 12) rfl (by decide) rfl⟩

end Concordance.Java
