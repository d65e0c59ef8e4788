import Concordance.Proofs.Java.Walk

/-!
The nodes of a tree that was read have ids of their own: an id is free until it is given to a node, and a
node keeps it.
-/

namespace Concordance.Java

namespace Node

def idsAll (nodes : List Node) : List Nat := (preorderAll (fun _ => true) nodes).map id

theorem idsAll_cons (n : Node) (nodes : List Node) : idsAll (n :: nodes) = n.ids ++ idsAll nodes := by
  rw [idsAll, preorderAll, List.map_append]
  rfl

theorem idsAll_append (a b : List Node) : idsAll (a ++ b) = idsAll a ++ idsAll b := by
  induction a with
  | nil => rfl
  | cons n rest ih => rw [List.cons_append, idsAll_cons, idsAll_cons, ih, List.append_assoc]

theorem idsAll_reverse (nodes : List Node) : (idsAll nodes.reverse).Perm (idsAll nodes) := by
  induction nodes with
  | nil => exact .nil
  | cons n rest ih =>
    rw [List.reverse_cons, idsAll_append, idsAll_cons, idsAll_cons]
    exact List.perm_append_comm.trans (((List.Perm.of_eq (List.append_nil _)).append ih))

end Node

namespace Naming

/-- The ids of the nodes of a frame so far. -/
def Frame.ids (f : Frame) : List Nat := f.info.id :: Node.idsAll f.done

def idsOf (frames : List Frame) : List Nat := frames.flatMap Frame.ids

theorem ids_complete (info : Info) (done : List Node) :
    (Node.mk info done.reverse).ids.Perm (Frame.ids ⟨info, [], done⟩) :=
  (Node.idsAll_reverse done).cons info.id

variable {n : Naming} {input : Parse.Input} {id : Nat} {f : Frame} {above : List Frame}

/-- A step gives the id to a new node or to none. -/
theorem step_inl {frames : List Frame} (h : n.step input id f above = .inl frames) :
    (idsOf frames).Perm (idsOf (f :: above)) ∨ (idsOf frames).Perm (id :: idsOf (f :: above)) := by
  obtain ⟨info, todo, done⟩ := f
  cases todo with
  | nil =>
    left
    cases above with
    | nil => cases h
    | cons g rest =>
      cases h
      have hg : (Frame.ids { g with done := .mk info done.reverse :: g.done }).Perm
          (Frame.ids ⟨info, [], done⟩ ++ g.ids) := by
        rw [Frame.ids, Node.idsAll_cons]
        exact List.perm_middle.symm.trans ((ids_complete info done).append_right g.ids)
      rw [idsOf, List.flatMap_cons, idsOf, List.flatMap_cons, List.flatMap_cons, ← List.append_assoc]
      exact hg.append_right _
  | cons p todo =>
    rw [step] at h
    split at h
    · cases h
      exact .inr (.refl _)
    · cases h
      exact .inl (.refl _)

theorem step_inr {node : Node} (h : n.step input id f above = .inr node) :
    node.ids.Perm (idsOf (f :: above)) := by
  obtain ⟨info, todo, done⟩ := f
  cases todo with
  | nil =>
    cases above with
    | nil =>
      cases h
      exact (ids_complete info done).trans (.of_eq (List.append_nil _).symm)
    | cons g rest => cases h
  | cons p todo =>
    rw [step] at h
    split at h <;> cases h

/-- Ids from `id` on are free, and no two nodes have the same. -/
structure Numbered (id : Nat) (frames : List Frame) : Prop where
  nodup : (idsOf frames).Nodup
  lt : ∀ i ∈ idsOf frames, i < id

theorem Numbered.step {frames : List Frame} (hn : Numbered id (f :: above))
    (h : n.step input id f above = .inl frames) : Numbered (id + 1) frames := by
  rcases step_inl h with hperm | hperm
  · exact ⟨hperm.nodup_iff.mpr hn.nodup, fun i hi => Nat.lt_succ_of_lt (hn.lt i (hperm.mem_iff.mp hi))⟩
  · have hfree : id ∉ idsOf (f :: above) := fun hi => Nat.lt_irrefl id (hn.lt id hi)
    refine ⟨hperm.nodup_iff.mpr (List.nodup_cons.mpr ⟨hfree, hn.nodup⟩), fun i hi => ?_⟩
    rcases List.mem_cons.mp (hperm.mem_iff.mp hi) with rfl | hi
    · exact Nat.lt_succ_self _
    · exact Nat.lt_succ_of_lt (hn.lt i hi)

theorem Numbered.distinctIds_assemble {frames : List Frame} {steps : Nat} (hn : Numbered id frames) :
    (n.assemble input steps id frames).DistinctIds := by
  induction steps generalizing id frames with
  | zero => exact List.nodup_singleton _
  | succ steps ih =>
    cases frames with
    | nil => exact List.nodup_singleton _
    | cons f above =>
      rw [assemble]
      split
      · next node h => exact (step_inr h).nodup_iff.mpr hn.nodup
      · next frames h => exact ih (hn.step h)

theorem distinctIds_node (n : Naming) (input : Parse.Input) (tree : Parse.Tree) :
    (n.node input tree).DistinctIds :=
  Numbered.distinctIds_assemble ⟨List.nodup_singleton _, fun _ hi => by
    rw [List.eq_of_mem_singleton hi]
    exact Nat.one_pos⟩

end Naming

/-- Every tree that is read has distinct ids. -/
theorem distinctIds_of_parse {source : String} {t : Tree} (h : parse source = some t) :
    t.root.DistinctIds := by
  obtain ⟨tree, -, rfl⟩ := Option.map_eq_some_iff.mp h
  exact Naming.distinctIds_node ..

end Concordance.Java
