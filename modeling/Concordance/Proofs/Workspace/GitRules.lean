import Mathlib
import Concordance.Proofs.Workspace.Discovery
import Concordance.Proofs.Workspace.GitFiles

/-! With the rules for version control switched off, the files that hold them are not noticed: two trees that differ in
    nothing but such files have the same sources, and their plain ignore files have the same effect. The walks in both
    trees go down alike, folder by folder (`entered_same`). An ignore file is read through links, though, so one that is a
    link to such a file tells what is in it. -/

namespace Concordance

namespace Workspace

open Concordance.Tree (Same Loose HoldsGitRules Linkless)

/-- The workspaces have one root in file systems that differ in nothing but files with rules for version control. What
    rules the user has everywhere may differ too. -/
structure SameButGit (w w' : Workspace) : Prop where
  root : w.root = w'.root
  top : w.top.SameButGit w'.top

/-- If a path leads somewhere in either workspace, the same stands there in both. -/
def Agree (w w' : Workspace) (names : List String) : Prop := ∀ place,
  w.locate (names.map .name) = .ok place ∨ w'.locate (names.map .name) = .ok place →
  Same (w.top.find? place) (w'.top.find? place)

/-- A folder that the walk enters: nothing on the way to it is passed over. -/
structure Entered (w : Workspace) (s : Settings) (folder : List String) : Prop where
  there : (w.treeAt? folder).any Tree.isFolder = true
  passed : ∀ above name below, folder = above ++ name :: below →
    w.isPassedOver s (w.layersTo s above) (above ++ [name]) name true = false

/-- Neither a plain ignore file that the walk reads, in a folder that it enters or above the root, nor the root under
    another name leads to a file that is not the same in both. -/
structure Unlinked (w w' : Workspace) (s : Settings) : Prop where
  root : ∀ place, w.locate [] = .ok place ∨ w'.locate [] = .ok place →
    place.getLast? = w.root.getLast? ∨ Same (w.top.find? place) (w'.top.find? place)
  within : ∀ folder, w.Entered s folder → w.Agree w' (folder ++ [".ignore"])
  above : (w.treeAt? []).any Tree.isFolder = true → ∀ folder, folder <+: w.place → folder ≠ w.place →
    (w.rerooted folder).Agree (w'.rerooted folder) [".ignore"]

variable {w w' : Workspace} {s : Settings} {top top' t root : Tree} {links : Nat}
  {here place path folder names : List String} {steps : List Path.Component} {content : ByteArray}

theorem SameButGit.refl (w : Workspace) : w.SameButGit w := ⟨rfl, fun _ => .inl (.refl _)⟩

theorem SameButGit.symm (h : w.SameButGit w') : w'.SameButGit w := ⟨h.root.symm, h.top.symm⟩

theorem SameButGit.rerooted (h : w.SameButGit w') (root : List String) :
    (w.rerooted root).SameButGit (w'.rerooted root) := ⟨rfl, h.top⟩

theorem SameButGit.placed (h : w.SameButGit w') (dir : List String) (n : String) (content : ByteArray)
    (hdir : (w'.top.find? dir).any Tree.isFolder = true) (hloose : Loose (w'.top.find? (dir ++ [n])))
    (hgit : HoldsGitRules (dir ++ [n])) : w.SameButGit (w'.placed (dir ++ [n]) (.file content)) :=
  ⟨h.root, h.top.trans (Tree.sameButGit_place hdir hloose hgit content)⟩

theorem Agree.symm (h : w.Agree w' names) : w'.Agree w names := fun place hplace => (h place hplace.symm).symm

/-! ### Paths -/

/-- A path that leads to what is the same in both trees leads there in both. -/
theorem follow_same (h : top.SameButGit top') (hfollow : follow top false links here steps = .ok place)
    (hplace : Same (top.find? place) (top'.find? place)) : follow top' false links here steps = .ok place := by
  fun_induction follow top false links here steps with
  | case1 links here =>
    obtain rfl := Except.ok.inj hfollow
    rw [follow]
  | case2 links here rest hfolder ih | case4 links here rest hfolder ih | case6 links here rest hfolder ih =>
    rw [follow, if_pos (h.isFolder hfolder)]
    exact ih hfollow
  | case9 links here n rest children hfolder hlength hnone hfresh => cases hfresh
  | case12 here n rest children hfolder hlength target hlink links ih =>
    obtain ⟨children', hfolder'⟩ := h.folder hfolder
    have hlink' := h.link ((Tree.find?_concat_folder hfolder n).trans hlink)
    rw [Tree.find?_concat_folder hfolder'] at hlink'
    simp only [follow, hfolder', hlength, ↓reduceIte, hlink']
    exact ih hfollow
  | case13 links here n rest children hfolder hlength c hnolink hchild ih =>
    have hat := (Tree.find?_concat_folder hfolder n).trans hchild
    obtain ⟨children', hfolder'⟩ := h.folder hfolder
    -- A file that is passed is the end of the path.
    have hsame : Same (top.find? (here ++ [n])) (top'.find? (here ++ [n])) := by
      cases rest with
      | nil =>
        rw [follow] at hfollow
        obtain rfl := Except.ok.inj hfollow
        exact hplace
      | cons step rest =>
        obtain ⟨below, hbelow⟩ := Tree.any_isFolder_iff.mp (isFolder_of_follow hfollow (List.cons_ne_nil _ _))
        obtain ⟨below', hbelow'⟩ := h.folder hbelow
        rw [hbelow, hbelow']
        exact .folder _ _
    rw [hat, Tree.find?_concat_folder hfolder'] at hsame
    have hrest := ih hfollow
    generalize hlookup : children'.lookup n = c' at hsame
    cases hsame with
    | link target => exact absurd rfl (hnolink target)
    | file | device | folder => simpa only [follow, hfolder', hlength, ↓reduceIte, hlookup] using hrest
  | _ => cases hfollow

theorem locate_same (h : w.SameButGit w') (hlocate : w.locate steps = .ok place)
    (hplace : Same (w.top.find? place) (w'.top.find? place)) : w'.locate steps = .ok place := by
  have hsteps : w'.steps steps = w.steps steps := by
    unfold Workspace.steps
    rw [h.root]
  rw [locate, hsteps]
  exact follow_same h.top hlocate hplace

theorem rulesAt_of_locate (h : w.locate ((folder ++ names).map .name) = .ok place) :
    w.rulesAt folder names =
      match w.top.find? place with
      | some (.file content) | some (.device content) => IgnoreRule.ofFile content
      | _ => [] := by
  simp only [rulesAt, bytesAt, lookup, h, bind, Except.bind]
  rcases w.top.find? place with - | (content | content | target | children) <;> rfl

theorem rulesAt_of_error {e : IoError} (h : w.locate ((folder ++ names).map .name) = .error e) :
    w.rulesAt folder names = [] := by
  simp only [rulesAt, bytesAt, lookup, h, bind, Except.bind]

/-- An ignore file has the same rules in both workspaces if its path leads to the same in both. -/
theorem rulesAt_same (h : w.SameButGit w') (hagree : w.Agree w' (folder ++ names)) :
    w.rulesAt folder names = w'.rulesAt folder names := by
  cases hlocate : w.locate ((folder ++ names).map .name) with
  | ok place =>
    have hsame := hagree place (.inl hlocate)
    rw [rulesAt_of_locate hlocate, rulesAt_of_locate (locate_same h hlocate hsame)]
    generalize w.top.find? place = x, w'.top.find? place = y at hsame
    cases hsame <;> rfl
  | error e =>
    cases hlocate' : w'.locate ((folder ++ names).map .name) with
    | ok place =>
      have hsame := hagree place (.inr hlocate')
      cases hlocate.symm.trans (locate_same h.symm hlocate' hsame.symm)
    | error e' => rw [rulesAt_of_error hlocate, rulesAt_of_error hlocate']

theorem layerAt_same (h : w.SameButGit w') (hagree : w.Agree w' (folder ++ [".ignore"])) (depth : Nat) :
    w.layerAt false depth folder = w'.layerAt false depth folder := by
  rw [layerAt, layerAt, rulesAt_same h hagree]
  rfl

/-! ### What stands below the root -/

theorem treeAt?_eq_find? (hroot : w.root? = some root) (path : List String) :
    w.treeAt? path = w.top.find? (w.place ++ path) := by
  rw [treeAt?, hroot, Tree.find?_append, (root?_eq_some_iff.mp hroot).2]

/-- If the same stands at the place of the root, the root is there in both workspaces. -/
theorem root?_same (h : w.SameButGit w') (hroot : w.root? = some root)
    (hsame : Same (some root) (w'.top.find? w.place)) : w'.place = w.place ∧ ∃ root', w'.root? = some root' := by
  obtain ⟨hlocate, hfind⟩ := root?_eq_some_iff.mp hroot
  have hlocate' := locate_same h hlocate (by rwa [hfind])
  have hplace : w'.place = w.place := by
    rw [Workspace.place, hlocate']
    rfl
  obtain ⟨root', hfind'⟩ : ∃ root', w'.top.find? w.place = some root' := by
    generalize w'.top.find? w.place = x at hsame
    cases hsame <;> exact ⟨_, rfl⟩
  exact ⟨hplace, root', root?_eq_some_iff.mpr (by rw [hplace]; exact ⟨hlocate', hfind'⟩)⟩

theorem treeAt?_same (h : w.SameButGit w') (hroot : w.root? = some root)
    (hsame : Same (some root) (w'.top.find? w.place)) (path : List String) :
    w'.treeAt? path = w'.top.find? (w.place ++ path) := by
  obtain ⟨hplace, root', hroot'⟩ := root?_same h hroot hsame
  rw [treeAt?_eq_find? hroot', hplace]

/-- A root that is a folder is a folder in both workspaces. -/
theorem same_root (h : w.SameButGit w') (hroot : w.root? = some root) (hfolder : root.isFolder = true) :
    Same (some root) (w'.top.find? w.place) := by
  obtain ⟨-, hfind⟩ := root?_eq_some_iff.mp hroot
  obtain ⟨children, rfl⟩ := Tree.exists_folder_of_isFolder hfolder
  obtain ⟨children', hfind'⟩ := h.top.folder hfind
  rw [hfind']
  exact .folder _ _

/-- On the way to what stands somewhere there are folders only. -/
theorem isFolder_above {above below : List String} {n : String} (h : w.treeAt? (above ++ n :: below) = some t) :
    (w.treeAt? above).any Tree.isFolder = true := by
  obtain ⟨root, hroot, hfind⟩ := treeAt?_eq_some_iff.mp h
  rw [List.append_cons, Tree.find?_append] at hfind
  obtain ⟨c, hc, -⟩ := Option.bind_eq_some_iff.mp hfind
  rw [treeAt?, hroot, Option.bind_some]
  exact Tree.isFolder_of_find?_concat hc

/-- Where a folder stands below the root, the root is a folder. -/
theorem root?_of_treeAt? (h : (w.treeAt? path).any Tree.isFolder = true) :
    ∃ root, w.root? = some root ∧ root.isFolder = true := by
  obtain ⟨children, ht⟩ := Tree.any_isFolder_iff.mp h
  obtain ⟨root, hroot, hfind⟩ := treeAt?_eq_some_iff.mp ht
  have hnil := Tree.isFolder_nil (Tree.any_isFolder_iff.mpr ⟨children, hfind⟩)
  rw [Tree.find?_nil, Option.any_some] at hnil
  exact ⟨root, hroot, hnil⟩

theorem isFolder_treeAt?_same (h : w.SameButGit w') (hpath : (w.treeAt? path).any Tree.isFolder = true) :
    (w'.treeAt? path).any Tree.isFolder = true := by
  obtain ⟨root, hroot, hfolder⟩ := root?_of_treeAt? hpath
  rw [treeAt?_same h hroot (same_root h hroot hfolder)]
  rw [treeAt?_eq_find? hroot] at hpath
  exact h.top.isFolder hpath

theorem place_same (h : w.SameButGit w') (hpath : (w.treeAt? path).any Tree.isFolder = true) : w'.place = w.place := by
  obtain ⟨root, hroot, hfolder⟩ := root?_of_treeAt? hpath
  exact (root?_same h hroot (same_root h hroot hfolder)).1

/-- No file with rules for version control is a source. -/
theorem isSource_of_holdsGitRules (h : HoldsGitRules place) (hnames : ∀ n ∈ names, Path.IsName n)
    (hlast : place.getLast? = names.getLast?) : s.isSource (pathText names) = false := by
  have hnone : Path.extension? (pathText names) = none := by
    rw [extension?_pathText hnames, ← hlast]
    rcases h.getLast? with heq | heq <;> rw [heq, Option.bind_some] <;> decide
  rw [Settings.isSource, Path.hasExtension, hnone, Option.any_none]

theorem treeAt?_source (h : w.SameButGit w') (hw : w.top.Proper) (hunlinked : w.Unlinked w' s)
    (hsource : s.isSource (pathText (w.root ++ path)) = true) (hfile : w.treeAt? path = some (.file content)) :
    w'.treeAt? path = some (.file content) := by
  obtain ⟨root, hroot, hfind⟩ := treeAt?_eq_some_iff.mp hfile
  obtain ⟨hlocate, hplace⟩ := root?_eq_some_iff.mp hroot
  obtain ⟨hnames, hproper⟩ := proper_root hw hroot
  have hgit (hlast : (w.place ++ path).getLast? = (w.root ++ path).getLast?) : ¬HoldsGitRules (w.place ++ path) := by
    intro hgit
    have hpath := List.forall_mem_append.mpr ⟨hnames, (hproper.find? hfind).1⟩
    exact Bool.false_ne_true ((isSource_of_holdsGitRules hgit hpath hlast).symm.trans hsource)
  have hsame : Same (some root) (w'.top.find? w.place) ∧
      Same (w.top.find? (w.place ++ path)) (w'.top.find? (w.place ++ path)) := by
    rcases List.eq_nil_or_concat' path with rfl | ⟨above, n, rfl⟩
    · simp only [List.append_nil] at hgit ⊢
      rw [← hplace, and_self]
      rcases hunlinked.root w.place (.inl hlocate) with hlast | hsame
      · exact h.top.same_of_not_git (hgit hlast)
      · exact hsame
    · refine ⟨same_root h hroot ?_, h.top.same_of_not_git (hgit (by simp))⟩
      rw [Tree.isFolder_of_find?_eq_file hfind]
      simp
  rw [treeAt?_same h hroot hsame.1]
  rw [treeAt?_eq_find? hroot] at hfile
  exact (hfile ▸ hsame.2).eq_file

/-! ### What is found -/

theorem Entered.nil (h : (w.treeAt? []).any Tree.isFolder = true) : w.Entered s [] :=
  ⟨h, fun _ _ _ heq => by simp at heq⟩

theorem entered_concat {n : String} : w.Entered s (folder ++ [n]) ↔ w.Entered s folder ∧
    (w.treeAt? (folder ++ [n])).any Tree.isFolder = true ∧
      w.isPassedOver s (w.layersTo s folder) (folder ++ [n]) n true = false := by
  constructor
  · rintro ⟨there, passed⟩
    obtain ⟨children, ht⟩ := Tree.any_isFolder_iff.mp there
    refine ⟨⟨isFolder_above ht, fun above name below heq => passed above name (below ++ [n]) ?_⟩, there,
      passed folder n [] rfl⟩
    rw [heq, List.append_assoc, List.cons_append]
  · rintro ⟨hfolder, there, hlast⟩
    refine ⟨there, fun above name below heq => ?_⟩
    rcases List.eq_nil_or_concat' below with rfl | ⟨below, m, rfl⟩
    · obtain ⟨rfl, hname⟩ := List.append_inj' heq rfl
      obtain rfl := List.singleton_inj.mp hname
      exact hlast
    · rw [← List.cons_append, ← List.append_assoc] at heq
      exact hfolder.passed above name below (List.append_inj' heq rfl).1

/-- The folders above an eligible file are entered. -/
theorem Eligible.entered_above (h : w.Eligible s path) {above below : List String} {n : String}
    (heq : path = above ++ n :: below) : w.Entered s above := by
  obtain ⟨content, hfile, -⟩ := h.file
  subst heq
  refine ⟨isFolder_above hfile, fun upper name lower heq => ?_⟩
  have hpath : above ++ n :: below = upper ++ name :: (lower ++ n :: below) := by
    rw [heq, List.append_assoc, List.cons_append]
  have hfolder : (!(lower ++ n :: below).isEmpty) = true := by simp
  have hpassed := isPassedOver_eq_false_iff.mpr ⟨h.entered upper name _ hpath, h.seen upper name _ hpath⟩
  rwa [hfolder] at hpassed

/-- The ignore files above the root say the same in both workspaces. -/
theorem layersAbove_same (h : w.SameButGit w') (hunlinked : w.Unlinked w' s)
    (hroot : (w.treeAt? []).any Tree.isFolder = true) : w.layersAbove false = w'.layersAbove false := by
  rw [layersAbove, layersAbove, place_same h hroot]
  refine List.map_congr_left fun n hn => layerAt_same (h.rerooted _) ?_ n
  have hlt : n < w.place.length := List.mem_range.mp (List.mem_reverse.mp hn)
  refine hunlinked.above hroot _ (List.take_prefix n _) fun heq => ?_
  have hlength := congrArg List.length heq
  rw [List.length_take] at hlength
  omega

theorem layerBelow_same (h : w.SameButGit w') (hunlinked : w.Unlinked w' s) (hfolder : w.Entered s folder) :
    w.layerBelow false folder = w'.layerBelow false folder := by
  rw [layerBelow, layerBelow, place_same h hfolder.there]
  exact layerAt_same h (hunlinked.within folder hfolder) _

theorem verdict?_same (hplace : w'.place = w.place) (off : s.respectGitignore = false) :
    w.verdict? s = w'.verdict? s := by
  funext layers path folder
  rw [verdict?, verdict?, hplace, off]
  rfl

/-- The walk enters the same folders in both workspaces, and comes to them with the same rules: what it has read on the
    way down is the same, so it goes on alike. -/
theorem entered_same (h : w.SameButGit w') (hunlinked : w.Unlinked w' s) (off : s.respectGitignore = false)
    (folder : List String) : (w.Entered s folder ↔ w'.Entered s folder) ∧
      (w.Entered s folder → w.layersTo s folder = w'.layersTo s folder) := by
  induction folder using List.reverseRecOn with
  | nil =>
    refine ⟨⟨fun hw => .nil (isFolder_treeAt?_same h hw.there),
      fun hw' => .nil (isFolder_treeAt?_same h.symm hw'.there)⟩, fun hw => ?_⟩
    rw [layersTo_nil, layersTo_nil, off, layerBelow_same h hunlinked hw, layersAbove_same h hunlinked hw.there]
  | append_singleton folder n ih =>
    obtain ⟨hiff, hlayers⟩ := ih
    have hpassed (hw : w.Entered s folder) : w.isPassedOver s (w.layersTo s folder) (folder ++ [n]) n true =
        w'.isPassedOver s (w'.layersTo s folder) (folder ++ [n]) n true := by
      rw [isPassedOver, isPassedOver, verdict?_same (place_same h hw.there) off, hlayers hw]
    constructor
    · rw [entered_concat, entered_concat, ← hiff]
      refine and_congr_right fun hw => and_congr ⟨isFolder_treeAt?_same h, isFolder_treeAt?_same h.symm⟩ ?_
      rw [hpassed hw]
    · intro hw
      rw [layersTo_append_singleton, layersTo_append_singleton, off, layerBelow_same h hunlinked hw,
        hlayers (entered_concat.mp hw).1]

theorem Unlinked.symm (h : w.SameButGit w') (hunlinked : w.Unlinked w' s) (off : s.respectGitignore = false) :
    w'.Unlinked w s where
  root place hplace := by
    rw [← h.root]
    exact (hunlinked.root place hplace.symm).imp_right Same.symm
  within folder hfolder := (hunlinked.within folder ((entered_same h hunlinked off folder).1.mpr hfolder)).symm
  above hnil folder hprefix hne := by
    rw [← place_same h.symm hnil] at hprefix hne
    exact (hunlinked.above (isFolder_treeAt?_same h.symm hnil) folder hprefix hne).symm

/-- What the ignore files say of what is in a folder is the same in both workspaces. -/
theorem isUnseen_same (h : w.SameButGit w') (hunlinked : w.Unlinked w' s) (off : s.respectGitignore = false)
    (hfolder : w.Entered s folder) : w.isUnseen s folder = w'.isUnseen s folder := by
  funext name isFolder
  rw [isUnseen, isUnseen, verdict?_same (place_same h hfolder.there) off,
    (entered_same h hunlinked off folder).2 hfolder]

theorem Eligible.same (h : w.SameButGit w') (hw : w.top.Proper) (hunlinked : w.Unlinked w' s)
    (off : s.respectGitignore = false) (heligible : w.Eligible s path) : w'.Eligible s path := by
  obtain ⟨content, hfile, hsize⟩ := heligible.file
  refine ⟨⟨content, treeAt?_source h hw hunlinked heligible.source hfile, hsize⟩, ?_, heligible.entered,
    fun above name below heq => ?_⟩
  · rw [← h.root]
    exact heligible.source
  · rw [← isUnseen_same h hunlinked off (heligible.entered_above heq)]
    exact heligible.seen above name below heq

/-! ### Trees without links -/

/-- Where there are no links, a path leads to where its names say. -/
theorem follow_of_linkless (h : top.Linkless) (hfollow : follow top false links here (names.map .name) = .ok place) :
    place = here ++ names := by
  induction names generalizing here with
  | nil =>
    rw [List.map_nil, follow] at hfollow
    rw [List.append_nil]
    exact (Except.ok.inj hfollow).symm
  | cons n names ih =>
    rw [List.map_cons, follow] at hfollow
    split at hfollow
    next children hfolder =>
      split at hfollow
      next => cases hfollow
      next =>
        split at hfollow
        next => cases hfollow
        next target hlink =>
          have hplace := (Tree.find?_concat_folder hfolder n).trans hlink
          cases h.find? hplace
        next =>
          rw [List.append_cons]
          exact ih hfollow
    next => cases hfollow

theorem steps_map_name (w : Workspace) (names : List String) :
    w.steps (names.map .name) = (w.root ++ names).map .name := by
  cases names <;> simp [Workspace.steps]

theorem locate_of_linkless (h : w.top.Linkless) (names : List String)
    (hlocate : w.locate (names.map .name) = .ok place) : place = w.root ++ names := by
  rw [locate, steps_map_name] at hlocate
  exact (follow_of_linkless h hlocate).trans (List.nil_append _)

/-- Without links, a plain ignore file is not one that holds rules for version control. -/
theorem SameButGit.agree (h : w.SameButGit w') (hw : w.top.Linkless) (hw' : w'.top.Linkless) (folder : List String) :
    w.Agree w' (folder ++ [".ignore"]) := by
  intro place hlocate
  have hplace := hlocate.elim (locate_of_linkless hw _) (h.root ▸ locate_of_linkless hw' _)
  refine h.top.same_of_not_git fun hgit => ?_
  rw [hplace] at hgit
  have hlast : (w.root ++ (folder ++ [".ignore"])).getLast? = some ".ignore" := by simp
  rcases hgit.getLast? with heq | heq <;> exact absurd (hlast.symm.trans heq) (by decide)

theorem SameButGit.unlinked (h : w.SameButGit w') (hw : w.top.Linkless) (hw' : w'.top.Linkless) : w.Unlinked w' s where
  root place hlocate := by
    have hplace := hlocate.elim (locate_of_linkless hw []) (h.root ▸ locate_of_linkless hw' [])
    exact .inl (by rw [hplace, List.append_nil])
  within folder _ := h.agree hw hw' folder
  above _ folder _ _ := (h.rerooted folder).agree hw hw' []

/-- Where the rules for version control are switched off, two workspaces in file systems that differ in nothing but
    files that hold such rules have the same sources, if neither the root nor a plain ignore file that is read, below the
    root or above it, is a link to one of these. The same folders are entered, and in each the plain ignore files have the
    same rules and the same effect. -/
theorem git_rules_unnoticed (s : Settings) (off : s.respectGitignore = false) (w w' : Workspace) (proper : w.top.Proper)
    (proper' : w'.top.Proper) (same : w.SameButGit w') (unlinked : w.Unlinked w' s) :
    w.discover s = w'.discover s ∧
    ∀ folder, (w.Entered s folder ↔ w'.Entered s folder) ∧ (w.Entered s folder →
      w.rulesAt folder [".ignore"] = w'.rulesAt folder [".ignore"] ∧ w.isUnseen s folder = w'.isUnseen s folder) := by
  refine ⟨?_, fun folder => ⟨(entered_same same unlinked off folder).1, fun hfolder =>
    ⟨rulesAt_same same (unlinked.within folder hfolder), isUnseen_same same unlinked off hfolder⟩⟩⟩
  refine (pairwise_discover proper).eq_of_mem_iff (pairwise_discover proper') fun path => ?_
  rw [mem_discover_iff proper, mem_discover_iff proper']
  exact ⟨Eligible.same same proper unlinked off, Eligible.same same.symm proper' (unlinked.symm same off) off⟩

/-- The standard settings, with rules for version control switched off. -/
def ungoverned : Settings := { Settings.standard with respectGitignore := false }

/-- A workspace with two sources, of which one is ignored by a file above the root. -/
def trimmedWorkspace : Workspace where
  top := .folder [("home", .folder [
    (".ignore", .file "B.java\n".toUTF8),
    ("ws", .folder [
      (".git", .folder [("info", .folder [])]),
      ("A.java", .file "class A \x7b\x7d".toUTF8),
      ("B.java", .file "class B \x7b\x7d".toUTF8)])])]
  root := ["home", "ws"]

/-- The workspace with rules for version control, above the root and below it, that ignore the other source as well. -/
def ruledWorkspace : Workspace :=
  (trimmedWorkspace.placed ["home", ".gitignore"] (.file "A.java\n".toUTF8)).placed
    ["home", "ws", ".git", "info", "exclude"] (.file "*.java\n".toUTF8)

/-- The plain ignore file counts in both, and the rules for version control count only if they are asked for. -/
theorem git_rules_unnoticed_beside_ignore :
    trimmedWorkspace.SameButGit ruledWorkspace ∧ trimmedWorkspace.Unlinked ruledWorkspace ungoverned ∧
    trimmedWorkspace.discover ungoverned = [["A.java"]] ∧ ruledWorkspace.discover ungoverned = [["A.java"]] ∧
    ruledWorkspace.discover .standard = [] := by
  have hsame : trimmedWorkspace.SameButGit ruledWorkspace :=
    ((SameButGit.refl trimmedWorkspace).placed ["home"] ".gitignore" _ rfl .nothing (.inl ⟨_, rfl⟩)).placed
      ["home", "ws", ".git", "info"] "exclude" _ rfl .nothing (.inr ⟨["home", "ws"], rfl⟩)
  have hproper : trimmedWorkspace.top.Proper := by simp [trimmedWorkspace, Path.IsName]
  have hproper' : ruledWorkspace.top.Proper := by
    simp [ruledWorkspace, trimmedWorkspace, placed, Tree.place, Tree.child?, Tree.children, Tree.setChild,
      List.lookup, Path.IsName]
  have hlinkless : trimmedWorkspace.top.Linkless := by simp [trimmedWorkspace]
  have hlinkless' : ruledWorkspace.top.Linkless := by
    simp [ruledWorkspace, trimmedWorkspace, placed, Tree.place, Tree.child?, Tree.children, Tree.setChild, List.lookup]
  have hunlinked : trimmedWorkspace.Unlinked ruledWorkspace ungoverned := hsame.unlinked hlinkless hlinkless'
  have hfound : trimmedWorkspace.discover ungoverned = [["A.java"]] := by cbv
  have hfound' := (git_rules_unnoticed ungoverned rfl _ _ hproper hproper' hsame hunlinked).1.symm.trans hfound
  exact ⟨hsame, hunlinked, hfound, hfound', by cbv⟩

/-- A workspace in which the plain ignore file is a link to one with rules for version control. -/
def linkedWorkspace (rules : String) : Workspace := .ofRoot "ws" (.folder [
  (".gitignore", .file rules.toUTF8),
  (".ignore", .link ".gitignore"),
  ("A.java", .file "class A \x7b\x7d".toUTF8)])

theorem linkSteps_gitignore : linkSteps ".gitignore" = [.name ".gitignore"] := by decide

theorem layerBelow_linked (rules : String) :
    (linkedWorkspace rules).layerBelow false [] = ⟨1, IgnoreRule.ofFile rules.toUTF8, [], []⟩ := by
  have hlocate : (linkedWorkspace rules).locate (([] ++ [".ignore"]).map .name) = .ok ["ws", ".gitignore"] := by
    have hlengths : "ws".utf8ByteSize = 2 ∧ ".ignore".utf8ByteSize = 7 ∧ ".gitignore".utf8ByteSize = 10 :=
      ⟨rfl, rfl, rfl⟩
    simp [linkedWorkspace, ofRoot, locate, Workspace.steps, follow, Tree.find?_cons, Tree.child?, Tree.children,
      List.lookup, linkLimit, nameLimit, hlengths, linkSteps_gitignore]
  have hplace : (linkedWorkspace rules).place.length = 1 := by cbv
  rw [layerBelow, layerAt, hplace, rulesAt_of_locate hlocate]
  rfl

/-- A rule for version control may be noticed where a plain ignore file is a link to it: it is a plain rule too. -/
theorem noticed_through_link : ¬∀ (s : Settings) (w w' : Workspace), s.respectGitignore = false → w.top.Proper →
    w'.top.Proper → w.SameButGit w' → w.discover s = w'.discover s := by
  intro h
  have hsame : (linkedWorkspace "A.java\n").SameButGit (linkedWorkspace "") :=
    (SameButGit.refl (linkedWorkspace "A.java\n")).placed ["ws"] ".gitignore" _ rfl (.file _) (.inl ⟨_, rfl⟩)
  have hproper (rules : String) : (linkedWorkspace rules).top.Proper := by simp [linkedWorkspace, ofRoot, Path.IsName]
  let found (rules : String) : List (String × Tree) :=
    [(".gitignore", .file rules.toUTF8), (".ignore", .link ".gitignore"), ("A.java", .file "class A \x7b\x7d".toUTF8)]
  have hroot (rules : String) : (linkedWorkspace rules).root? = some (.folder (found rules)) := by cbv
  have habove (rules : String) : (linkedWorkspace rules).layersAbove false = [⟨0, [], [], []⟩] := by cbv
  have hfound (rules : String) : (linkedWorkspace rules).discover ungoverned =
      (sourcesAmong (linkedWorkspace rules) ungoverned [⟨1, IgnoreRule.ofFile rules.toUTF8, [], []⟩, ⟨0, [], [], []⟩] []
        (found rules)).mergeSort fun a b => (compare a b).isLE := by
    rw [← layerBelow_linked, ← habove rules, discover_eq (hroot rules), sourcesAt]
    rfl
  have hnone : (linkedWorkspace "A.java\n").discover ungoverned = [] := by
    rw [hfound]
    cbv
  have hone : (linkedWorkspace "").discover ungoverned = [["A.java"]] := by
    rw [hfound]
    cbv
  have heq := h ungoverned _ _ rfl (hproper _) (hproper _) hsame
  rw [hnone, hone] at heq
  cases heq

/-- A root that has the name of a source and is a link to where rules for version control may be. -/
def linkedRoot (rules : List (String × Tree)) : Workspace :=
  { top := .folder (("A.java", .link ".gitignore") :: rules), root := ["A.java"] }

/-- A file with rules for version control may be noticed there too: it is itself found as a source. -/
theorem noticed_at_root : (linkedRoot []).SameButGit (linkedRoot [(".gitignore", .file .empty)]) ∧
    (linkedRoot []).discover ungoverned = [] ∧
    (linkedRoot [(".gitignore", .file .empty)]).discover ungoverned = [[]] := by
  have hlengths : "A.java".utf8ByteSize = 6 ∧ ".gitignore".utf8ByteSize = 10 := ⟨rfl, rfl⟩
  refine ⟨(SameButGit.refl _).placed [] ".gitignore" _ rfl .nothing (.inl ⟨[], rfl⟩), ?_, ?_⟩
  · have hroot : (linkedRoot []).root? = none := by
      simp [linkedRoot, root?, lookup, locate, Workspace.steps, follow, List.lookup, linkLimit, nameLimit, hlengths,
        linkSteps_gitignore, bind, Except.bind, Except.toOption]
    rw [discover, hroot]
  · have hroot : (linkedRoot [(".gitignore", .file .empty)]).root? = some (.file .empty) := by
      simp [linkedRoot, root?, lookup, locate, Workspace.steps, follow, Tree.find?_cons, Tree.child?, Tree.children,
        List.lookup, linkLimit, nameLimit, hlengths, linkSteps_gitignore, bind, Except.bind, Except.toOption]
    have hsource : isSourceFile ungoverned (linkedRoot [(".gitignore", .file .empty)]).name .empty = true := by decide
    rw [discover_eq hroot, sourcesAt, if_pos hsource]
    exact List.mergeSort_singleton _

end Workspace

end Concordance
