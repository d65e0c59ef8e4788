import Std.Data.ExtTreeSet

/-! Lists that are folded, parted and sorted. What a fold gathers comes from the start or from one of the elements;
    what was parted by a test is as long as before; what was sorted is in order. -/

namespace Concordance

variable {α κ σ : Type}

theorem foldl_iff {f : σ → α → σ} {P : σ → Prop} {Q : α → Prop} (step : ∀ s a, P (f s a) ↔ P s ∨ Q a)
    (l : List α) (s : σ) : P (l.foldl f s) ↔ P s ∨ ∃ a ∈ l, Q a := by
  induction l generalizing s with
  | nil => simp
  | cons a rest ih => simp [ih, step, or_assoc]

/-- Where elements overwrite a value, the last that does so leaves it. -/
theorem foldl_getLast? {f : σ → α → σ} {g : σ → κ} {q : α → Option κ}
    (step : ∀ s a, g (f s a) = (q a).getD (g s)) (l : List α) (s : σ) :
    g (l.foldl f s) = (l.filterMap q).getLast?.getD (g s) := by
  induction l generalizing s with
  | nil => rfl
  | cons a rest ih =>
    rw [List.foldl_cons, ih, step, List.filterMap_cons]
    cases q a with
    | none => rfl
    | some v => rw [List.getLast?_cons, Option.getD_some, Option.getD_some]

theorem mem_foldl_insert [Ord κ] [Std.TransOrd κ] [Std.LawfulEqOrd κ] (key : α → κ) {l : List α}
    {keys : Std.ExtTreeSet κ} {k : κ} :
    k ∈ l.foldl (fun keys a => keys.insert (key a)) keys ↔ k ∈ keys ∨ ∃ a ∈ l, key a = k := by
  refine foldl_iff (P := fun keys => k ∈ keys) (fun keys a => ?_) l keys
  rw [Std.ExtTreeSet.mem_insert, Std.LawfulEqCmp.compare_eq_iff_eq]
  exact or_comm

theorem length_filter_add (p : α → Bool) (l : List α) :
    (l.filter p).length + (l.filter fun a => !p a).length = l.length := by
  have hsum := List.length_eq_countP_add_countP p (l := l)
  simp only [List.countP_eq_length_filter, Bool.not_eq_true, Bool.decide_eq_false] at hsum
  exact hsum.symm

/-- A list that was sorted is in order. -/
theorem pairwise_isLE_mergeSort {cmp : α → α → Ordering} [Std.TransCmp cmp] (l : List α) :
    (l.mergeSort fun a b => (cmp a b).isLE).Pairwise fun a b => (cmp a b).isLE = true := by
  refine List.pairwise_mergeSort (fun a b c => Std.TransCmp.isLE_trans) (fun a b => ?_) l
  have hswap : cmp b a = (cmp a b).swap := Std.OrientedCmp.eq_swap
  rw [hswap]
  cases cmp a b <;> rfl

end Concordance
