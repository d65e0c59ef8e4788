import Mathlib
import Concordance.Proofs.Workspace.Writing

/-! Trees that differ in nothing but files with rules for version control. All else stands at the same places in both,
    so folders and links are the same on every way down. -/

namespace Concordance

namespace Tree

/-- The same stands at a place of two trees: nothing, one file, one device, one link or a folder. -/
inductive Same : Option Tree → Option Tree → Prop
  | nothing : Same none none
  | file (content : ByteArray) : Same (some (.file content)) (some (.file content))
  | device (content : ByteArray) : Same (some (.device content)) (some (.device content))
  | link (target : String) : Same (some (.link target)) (some (.link target))
  | folder (a b : List (String × Tree)) : Same (some (.folder a)) (some (.folder b))

/-- Nothing stands there but perhaps a regular file. -/
inductive Loose : Option Tree → Prop
  | nothing : Loose none
  | file (content : ByteArray) : Loose (some (.file content))

/-- The place of a file with rules for version control. -/
def HoldsGitRules (place : List String) : Prop := [".gitignore"] <:+ place ∨ [".git", "info", "exclude"] <:+ place

/-- The trees differ in nothing but regular files with rules for version control, which may be missing in either. -/
def SameButGit (t t' : Tree) : Prop := ∀ place,
  Same (t.find? place) (t'.find? place) ∨ HoldsGitRules place ∧ Loose (t.find? place) ∧ Loose (t'.find? place)

/-- There are no links in the tree. -/
inductive Linkless : Tree → Prop
  | file (content : ByteArray) : Linkless (.file content)
  | device (content : ByteArray) : Linkless (.device content)
  | folder {children : List (String × Tree)} (below : ∀ c ∈ children, c.2.Linkless) : Linkless (.folder children)

variable {t t' t'' c : Tree} {x y z : Option Tree} {place q dir : List String} {children : List (String × Tree)}
  {n : String} {content : ByteArray}

namespace Same

theorem refl (x : Option Tree) : Same x x := by
  rcases x with - | (content | content | target | children)
  · exact .nothing
  · exact .file content
  · exact .device content
  · exact .link target
  · exact .folder children children

theorem symm (h : Same x y) : Same y x := by
  cases h with
  | nothing => exact .nothing
  | file content => exact .file content
  | device content => exact .device content
  | link target => exact .link target
  | folder a b => exact .folder b a

theorem trans (h : Same x y) (h' : Same y z) : Same x z := by
  cases h with
  | nothing | file | device | link => exact h'
  | folder a =>
    cases h' with
    | folder _ c => exact .folder a c

theorem eq_file (h : Same (some (.file content)) y) : y = some (.file content) := by
  cases h
  rfl

theorem eq_link {target : String} (h : Same (some (.link target)) y) : y = some (.link target) := by
  cases h
  rfl

theorem eq_folder (h : Same (some (.folder children)) y) : ∃ children', y = some (.folder children') := by
  cases h
  exact ⟨_, rfl⟩

theorem loose (h : Same x y) (hx : Loose x) : Loose y := by
  cases h with
  | nothing | file => exact hx
  | device | link | folder => cases hx

end Same

/-- The last name on the way to a file with rules for version control is known. -/
theorem HoldsGitRules.getLast? (h : HoldsGitRules place) :
    place.getLast? = some ".gitignore" ∨ place.getLast? = some "exclude" := by
  rcases h with ⟨front, rfl⟩ | ⟨front, rfl⟩
  · exact .inl List.getLast?_concat
  · exact .inr (by simp)

namespace SameButGit

theorem symm (h : t.SameButGit t') : t'.SameButGit t := fun place =>
  (h place).imp Same.symm fun ⟨hgit, hloose, hloose'⟩ => ⟨hgit, hloose', hloose⟩

theorem trans (h : t.SameButGit t') (h' : t'.SameButGit t'') : t.SameButGit t'' := by
  intro place
  rcases h place with hsame | ⟨hgit, hloose, hloose'⟩
  · rcases h' place with hsame' | ⟨hgit, hloose', hloose''⟩
    · exact .inl (hsame.trans hsame')
    · exact .inr ⟨hgit, hsame.symm.loose hloose', hloose''⟩
  · rcases h' place with hsame' | ⟨-, -, hloose''⟩
    · exact .inr ⟨hgit, hloose, hsame'.loose hloose'⟩
    · exact .inr ⟨hgit, hloose, hloose''⟩

theorem same_of_not_git (h : t.SameButGit t') (hgit : ¬HoldsGitRules place) : Same (t.find? place) (t'.find? place) :=
  (h place).resolve_right fun hrules => hgit hrules.1

theorem same_of_not_loose (h : t.SameButGit t') (hplace : ¬Loose (t.find? place)) :
    Same (t.find? place) (t'.find? place) :=
  (h place).resolve_right fun hrules => hplace hrules.2.1

theorem folder (h : t.SameButGit t') (hplace : t.find? place = some (.folder children)) :
    ∃ children', t'.find? place = some (.folder children') := by
  have hsame := h.same_of_not_loose (by rw [hplace]; nofun)
  rw [hplace] at hsame
  exact hsame.eq_folder

theorem isFolder (h : t.SameButGit t') (hplace : (t.find? place).any Tree.isFolder = true) :
    (t'.find? place).any Tree.isFolder = true := by
  obtain ⟨children, hplace⟩ := any_isFolder_iff.mp hplace
  exact any_isFolder_iff.mpr (h.folder hplace)

theorem link (h : t.SameButGit t') {target : String} (hplace : t.find? place = some (.link target)) :
    t'.find? place = some (.link target) := by
  have hsame := h.same_of_not_loose (by rw [hplace]; nofun)
  rw [hplace] at hsame
  exact hsame.eq_link

end SameButGit

namespace Linkless

@[simp] theorem file_iff : (Tree.file content).Linkless ↔ True := iff_true_intro (.file content)

@[simp] theorem device_iff : (Tree.device content).Linkless ↔ True := iff_true_intro (.device content)

@[simp] theorem folder_iff : (Tree.folder children).Linkless ↔ ∀ c ∈ children, c.2.Linkless :=
  ⟨fun h => by cases h; assumption, .folder⟩

theorem find? (h : t.Linkless) (hc : t.find? place = some c) : c.Linkless := by
  induction place generalizing t with
  | nil => exact Option.some.inj ((find?_nil t).symm.trans hc) ▸ h
  | cons name place ih =>
    rw [find?_cons] at hc
    obtain ⟨child, hchild, hbelow⟩ := Option.bind_eq_some_iff.mp hc
    cases h with
    | file | device => cases hchild
    | folder below => exact ih (below _ (mem_of_child?_folder hchild)) hbelow

end Linkless

/-- A file that takes the place of a file or of nothing leaves all other places as they are. -/
theorem same_find?_place (hdir : (t.find? dir).any isFolder = true) (hloose : Loose (t.find? (dir ++ [n])))
    (content : ByteArray) (hq : q ≠ dir ++ [n]) :
    Same (t.find? q) ((t.place (.file content) (dir ++ [n])).find? q) := by
  -- On the way down the folders hold what they held, but for the child that the path goes on with.
  induction dir generalizing t q with
  | nil =>
    obtain ⟨children, hchildren⟩ := any_isFolder_iff.mp hdir
    obtain rfl := Option.some.inj (t.find?_nil.symm.trans hchildren)
    rw [List.nil_append] at hloose hq ⊢
    cases q with
    | nil => rw [find?_nil, find?_nil]; exact .folder _ _
    | cons m q =>
      rw [find?_cons, find?_cons, child?_place]
      by_cases hm : m = n
      · subst hm
        obtain ⟨k, q, rfl⟩ := List.exists_cons_of_ne_nil fun hnil : q = [] => hq (congrArg _ hnil)
        rw [find?_cons] at hloose
        rw [if_pos rfl, Option.bind_some, place]
        cases hchild : (folder children).child? m with
        | none => exact .nothing
        | some c =>
          rw [hchild, Option.bind_some, find?_nil] at hloose
          cases hloose
          exact .nothing
      · rw [if_neg hm]
        exact .refl _
  | cons name dir ih =>
    obtain ⟨children, hfolder⟩ := any_isFolder_iff.mp hdir
    rw [find?_cons] at hfolder
    obtain ⟨c, hc, hchildren⟩ := Option.bind_eq_some_iff.mp hfolder
    cases t with
    | file | device | link => cases hc
    | folder siblings =>
      cases q with
      | nil => rw [find?_nil, List.cons_append, place, find?_nil]; exact .folder _ _
      | cons m q =>
        rw [List.cons_append, find?_cons, hc, Option.bind_some] at hloose
        rw [List.cons_append, find?_cons, find?_cons, child?_place]
        by_cases hm : m = name
        · subst hm
          rw [if_pos rfl, hc, Option.bind_some, Option.bind_some, Option.getD_some]
          exact ih (any_isFolder_iff.mpr ⟨children, hchildren⟩) hloose fun heq => hq (congrArg _ heq)
        · rw [if_neg hm]
          exact .refl _

/-- To write a file with rules for version control is to change nothing else. -/
theorem sameButGit_place (hdir : (t.find? dir).any isFolder = true) (hloose : Loose (t.find? (dir ++ [n])))
    (hgit : HoldsGitRules (dir ++ [n])) (content : ByteArray) :
    t.SameButGit (t.place (.file content) (dir ++ [n])) := by
  intro q
  by_cases hq : q = dir ++ [n]
  · subst hq
    rw [find?_place_concat hdir]
    exact .inr ⟨hgit, hloose, .file content⟩
  · exact .inl (same_find?_place hdir hloose content hq)

end Tree

end Concordance
