import Mathlib.Data.List.Basic
import Concordance.Workspace.Discovery

/-! Paths and the names that they are made of. A path is cut at its slashes only, so names without slashes come
    back as they were joined, and the last of them tells the extension. -/

namespace Concordance.Path

/-- A name that a folder can have a child under. -/
def IsName (name : String) : Prop := name ≠ "" ∧ name ≠ "." ∧ name ≠ ".." ∧ '/' ∉ name.toList

variable {name : String} {names : List String} {cs p : List Char}

/-! ### Pieces -/

theorem pieces_eq_splitOn (cs : List Char) : pieces cs = cs.splitOn '/' := by
  induction cs with
  | nil => rfl
  | cons c cs ih =>
    rw [pieces, ih, List.splitOn_cons_eq_if_modifyHead]
    simp only [beq_iff_eq]
    split
    · rfl
    · obtain ⟨p, ps, hp⟩ := List.exists_cons_of_ne_nil (List.splitOn_ne_nil '/' cs)
      rw [hp, List.modifyHead_cons]

theorem pieces_append_slash (cs rest : List Char) : pieces (cs ++ '/' :: rest) = pieces cs ++ pieces rest := by
  simp only [pieces_eq_splitOn, List.splitOn_append_cons_self]

theorem pieces_of_not_mem (h : '/' ∉ cs) : pieces cs = [cs] := by
  rw [pieces_eq_splitOn, List.splitOn_eq_singleton h]

theorem pieces_injective {cs ds : List Char} (h : pieces cs = pieces ds) : cs = ds := by
  rw [pieces_eq_splitOn, pieces_eq_splitOn] at h
  calc
    cs = ['/'].intercalate (cs.splitOn '/') := (List.intercalate_splitOn '/').symm
    _ = ['/'].intercalate (ds.splitOn '/') := by rw [h]
    _ = ds := List.intercalate_splitOn '/'

/-- The pieces of texts that are joined by slashes are the pieces of the texts. -/
theorem pieces_intercalate : ∀ {texts : List (List Char)}, texts ≠ [] →
    pieces (['/'].intercalate texts) = texts.flatMap pieces
  | [], h => absurd rfl h
  | [cs], _ => by simp
  | cs :: next :: rest, _ => by
    have ih := pieces_intercalate (List.cons_ne_nil next rest)
    rw [List.intercalate_cons_cons, List.append_assoc, List.singleton_append, pieces_append_slash, ih]
    rfl

/-! ### Idle pieces -/

theorem ofPiece_eq_none_iff : ofPiece p = none ↔ isIdle p = true := by
  unfold ofPiece isIdle
  split <;> simp_all

theorem ofFirstPiece_eq_none (h : ofFirstPiece p = none) : isIdle p = true := by
  unfold ofFirstPiece at h
  split at h
  · rfl
  · cases h
  · exact ofPiece_eq_none_iff.mp h

/-- A path with no steps leads to a folder only. -/
theorem endsIdle_of_components_eq_nil {path : String} (h : components path = []) : endsIdle path = true := by
  unfold components at h
  split at h
  next => cases h
  next cs hcs =>
    split at h
    next p ps hpieces =>
      obtain ⟨hfirst, hrest⟩ := List.append_eq_nil_iff.mp h
      have hidle : ∀ q ∈ p :: ps, isIdle q = true := by
        refine List.forall_mem_cons.mpr ⟨ofFirstPiece_eq_none (Option.toList_eq_nil_iff.mp hfirst), fun q hq => ?_⟩
        exact ofPiece_eq_none_iff.mp (List.filterMap_eq_nil_iff.mp hrest q hq)
      rw [endsIdle, hpieces, List.getLast?_eq_some_getLast (List.cons_ne_nil p ps), Option.any_some]
      exact hidle _ (List.getLast_mem _)
    next hpieces => exact absurd ((pieces_eq_splitOn _).symm.trans hpieces) (List.splitOn_ne_nil '/' _)

/-! ### Names -/

namespace IsName

theorem ofPiece (h : IsName name) : Path.ofPiece name.toList = some (.name name) := by
  obtain ⟨hempty, hdot, hdots, -⟩ := h
  unfold Path.ofPiece
  split
  next heq => exact absurd (String.toList_inj.mp heq) hempty
  next heq => exact absurd (String.toList_inj.mp heq) hdot
  next heq => exact absurd (String.toList_inj.mp heq) hdots
  next => rw [String.ofList_toList]

theorem ofFirstPiece (h : IsName name) : Path.ofFirstPiece name.toList = some (.name name) := by
  have hpiece := h.ofPiece
  obtain ⟨hempty, hdot, -⟩ := h
  unfold Path.ofFirstPiece
  split
  next heq => exact absurd (String.toList_inj.mp heq) hempty
  next heq => exact absurd (String.toList_inj.mp heq) hdot
  next => exact hpiece

theorem pieces (h : IsName name) : Path.pieces name.toList = [name.toList] := pieces_of_not_mem h.2.2.2

end IsName

end Concordance.Path

namespace Concordance.Workspace

variable {names : List String}

/-- The names that are joined to a path are its pieces. -/
theorem pieces_pathText (h : ∀ n ∈ names, Path.IsName n) (hne : names ≠ []) :
    Path.pieces (pathText names).toList = names.map String.toList := by
  have hmap : names.map String.toList ≠ [] := mt List.map_eq_nil_iff.mp hne
  rw [pathText, String.toList_intercalate, show "/".toList = ['/'] from rfl, Path.pieces_intercalate hmap,
    List.flatMap_map, List.map_eq_flatMap]
  exact List.flatMap_congr fun n hn => (h n hn).pieces

/-- A path that is made of names has these names as its steps. -/
theorem components_pathText (h : ∀ n ∈ names, Path.IsName n) : Path.components (pathText names) = names.map .name := by
  cases names with
  | nil => rfl
  | cons first rest =>
    have hpieces := pieces_pathText h (List.cons_ne_nil first rest)
    obtain ⟨hfirst, hrest⟩ := List.forall_mem_cons.mp h
    unfold Path.components
    split
    next heq =>
      -- A path that begins with a slash would have an empty piece first.
      rw [heq, Path.pieces, if_pos rfl, List.map_cons, List.cons.injEq] at hpieces
      exact absurd (String.toList_inj.mp hpieces.1.symm) hfirst.1
    next =>
      have hnames : (rest.map String.toList).filterMap Path.ofPiece = rest.map Path.Component.name := by
        rw [List.filterMap_map, ← List.filterMap_eq_map]
        exact List.filterMap_congr fun n hn => (hrest n hn).ofPiece
      simp only [hpieces, List.map_cons, hfirst.ofFirstPiece, hnames]
      rfl

/-- The extension of a path that is made of names is that of the last name. -/
theorem extension?_pathText (h : ∀ n ∈ names, Path.IsName n) :
    Path.extension? (pathText names) = names.getLast?.bind Path.extensionOf := by
  rw [Path.extension?, Path.fileName?, components_pathText h, List.getLast?_map]
  cases names.getLast? <;> rfl

end Concordance.Workspace
