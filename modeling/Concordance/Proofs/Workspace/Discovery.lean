import Mathlib
import Concordance.Proofs.Folds
import Concordance.Proofs.Workspace.Tree

/-! Which files are found. The walk goes down from the root with the layers of ignore files that it has met, those
    above the root before all others, and leaves out whole folders; what it finds can be told of each path by itself,
    from the names on it and the layers of the folders above them. -/

namespace Concordance

/-- Lists of texts are ordered by their first difference, as they are compared. -/
theorem lt_of_compare : ∀ {l l' : List String}, compare l l' = .lt → l < l'
  | [], [], h => nomatch h
  | [], b :: l', _ => List.nil_lt_cons b l'
  | a :: l, [], h => nomatch h
  | a :: l, b :: l', h => by
    have h : (compare a b).then (compare l l') = .lt := List.compareLex_cons_cons.symm.trans h
    rw [List.cons_lt_cons_iff]
    rcases Ordering.then_eq_lt.mp h with hab | ⟨hab, hl⟩
    · exact Or.inl (compareOfLessAndEq_eq_lt.mp hab)
    · exact Or.inr ⟨Std.LawfulEqOrd.eq_of_compare hab, lt_of_compare hl⟩

namespace Workspace

variable {w : Workspace} {s : Settings} {t : Tree} {layers : List IgnoreLayer} {path below : List String}
  {name : String} {children : List (String × Tree)}

/-- The ignore files of a folder and of those above it up to the top of the file system, nearest first. -/
def layersTo (w : Workspace) (s : Settings) (folder : List String) : List IgnoreLayer :=
  folder.inits.reverse.map (w.layerBelow s.respectGitignore) ++ w.layersAbove s.respectGitignore

/-- Whether hiding, the ignore files above and the rules of the user pass over what has some name in a folder. -/
def isUnseen (w : Workspace) (s : Settings) (above : List String) (name : String) (folder : Bool) : Bool :=
  match w.verdict? s (w.layersTo s above) (above ++ [name]) folder with
  | some .ignored => true
  | some .allowed => false
  | none => isHidden name

/-- A path at which there is a source that has to be found: a regular file, not too large and with an extension
    of sources, such that neither it nor a folder on the way to it is unseen, and no folder is excluded. -/
structure Eligible (w : Workspace) (s : Settings) (path : List String) : Prop where
  file : ∃ content, w.treeAt? path = some (.file content) ∧ content.size ≤ s.maxFileSize.toNat
  source : s.isSource (pathText (w.root ++ path)) = true
  entered : ∀ above name below, path = above ++ name :: below → below ≠ [] → s.excludes name = false
  seen : ∀ above name below, path = above ++ name :: below → w.isUnseen s above name (!below.isEmpty) = false

/-- On the way down from a path nothing is passed over. -/
def Reaches (w : Workspace) (s : Settings) (path below : List String) : Prop :=
  ∀ above name rest, below = above ++ name :: rest →
    w.isPassedOver s (w.layersTo s (path ++ above)) (path ++ above ++ [name]) name (!rest.isEmpty) = false

/-- The sources at or below a child of a folder. -/
def sourcesOf (w : Workspace) (s : Settings) (layers : List IgnoreLayer) (path : List String)
    (c : String × Tree) : List (List String) :=
  if w.isPassedOver s layers (path ++ [c.1]) c.1 c.2.isFolder then []
  else sourcesAt w s layers (path ++ [c.1]) c.1 c.2

/-! ### The walk -/

theorem layersTo_nil (w : Workspace) (s : Settings) :
    w.layersTo s [] = w.layerBelow s.respectGitignore [] :: w.layersAbove s.respectGitignore := rfl

theorem layersTo_append_singleton (w : Workspace) (s : Settings) (path : List String) (name : String) :
    w.layersTo s (path ++ [name]) = w.layerBelow s.respectGitignore (path ++ [name]) :: w.layersTo s path := by
  simp [layersTo, List.inits_append]

theorem reaches_nil : w.Reaches s path [] := fun above name rest h => by simp at h

theorem reaches_cons : w.Reaches s path (name :: below) ↔
    w.isPassedOver s (w.layersTo s path) (path ++ [name]) name (!below.isEmpty) = false ∧
      w.Reaches s (path ++ [name]) below := by
  constructor
  · intro h
    refine ⟨by simpa using h [] name below rfl, fun above n rest heq => ?_⟩
    subst heq
    simpa using h (name :: above) n rest rfl
  · rintro ⟨hhere, hbelow⟩ above n rest heq
    rcases List.cons_eq_append_iff.mp heq with ⟨rfl, heq⟩ | ⟨above, rfl, rfl⟩
    · obtain ⟨rfl, rfl⟩ := List.cons.inj heq
      simpa using hhere
    · simpa using hbelow above n rest rfl

theorem mem_sourcesOf {c : String × Tree} {p : List String} : p ∈ sourcesOf w s layers path c ↔
    w.isPassedOver s layers (path ++ [c.1]) c.1 c.2.isFolder = false ∧
      p ∈ sourcesAt w s layers (path ++ [c.1]) c.1 c.2 := by
  unfold sourcesOf
  cases w.isPassedOver s layers (path ++ [c.1]) c.1 c.2.isFolder <;> simp

theorem sourcesAmong_eq :
    sourcesAmong w s layers path children = children.flatMap (sourcesOf w s layers path) := by
  induction children with
  | nil => rw [sourcesAmong, List.flatMap_nil]
  | cons c rest ih =>
    rw [sourcesAmong, ih, List.flatMap_cons]
    rfl

/-- What is found below a path is a source that nothing on the way hides. -/
theorem mem_sourcesAt (ht : t.Proper) (hlayers : w.layerBelow s.respectGitignore path :: layers = w.layersTo s path)
    {p : List String} : p ∈ sourcesAt w s layers path name t ↔
      ∃ below content, p = path ++ below ∧ t.find? below = some (.file content) ∧
        isSourceFile s (below.getLastD name) content = true ∧ w.Reaches s path below := by
  induction ht generalizing path layers name with
  | file content =>
    rw [sourcesAt]
    constructor
    · intro hp
      split at hp
      next hsource => exact ⟨[], content, by simpa using hp, Tree.find?_nil _, hsource, reaches_nil⟩
      next => cases hp
    · rintro ⟨below, found, rfl, hfind, hsource, -⟩
      obtain ⟨rfl, heq⟩ := Tree.eq_nil_of_find? rfl hfind
      obtain rfl := Tree.file.inj heq
      have hsource : isSourceFile s name found = true := hsource
      rw [List.append_nil, if_pos hsource]
      exact List.mem_singleton_self _
  | device | link =>
    rw [sourcesAt]
    refine ⟨fun hp => absurd hp List.not_mem_nil, ?_⟩
    rintro ⟨below, found, rfl, hfind, -⟩
    obtain ⟨-, heq⟩ := Tree.eq_nil_of_find? rfl hfind
    exact nomatch heq
  | @folder children distinct named proper ih =>
    have hfolder : (Tree.folder children).Proper := .folder distinct named proper
    have hhere (n : String) := (layersTo_append_singleton w s path n).symm
    rw [sourcesAt, hlayers, sourcesAmong_eq, List.mem_flatMap]
    constructor
    · rintro ⟨⟨n, c⟩, hmem, hp⟩
      obtain ⟨hpassed, hp⟩ := mem_sourcesOf.mp hp
      obtain ⟨below, content, rfl, hfind, hsource, hreach⟩ := (ih _ hmem (hhere n)).mp hp
      rw [Tree.isFolder_of_find?_eq_file hfind] at hpassed
      refine ⟨n :: below, content, by simp, ?_, ?_, reaches_cons.mpr ⟨hpassed, hreach⟩⟩
      · rw [Tree.find?_cons, hfolder.child?_eq_some_iff.mpr hmem]
        exact hfind
      · rw [List.getLastD_cons]
        exact hsource
    · rintro ⟨below, content, rfl, hfind, hsource, hreach⟩
      cases below with
      | nil => simp at hfind
      | cons n below =>
        rw [Tree.find?_cons] at hfind
        obtain ⟨c, hc, hfind⟩ := Option.bind_eq_some_iff.mp hfind
        have hmem := hfolder.child?_eq_some_iff.mp hc
        obtain ⟨hpassed, hreach⟩ := reaches_cons.mp hreach
        rw [← Tree.isFolder_of_find?_eq_file hfind] at hpassed
        rw [List.getLastD_cons] at hsource
        have heq : path ++ n :: below = path ++ [n] ++ below := List.append_cons ..
        have hp := (ih _ hmem (hhere n)).mpr ⟨below, content, heq, hfind, hsource, hreach⟩
        exact ⟨(n, c), hmem, mem_sourcesOf.mpr ⟨hpassed, hp⟩⟩

theorem nodup_sourcesAt (ht : t.Proper) (hlayers : w.layerBelow s.respectGitignore path :: layers = w.layersTo s path) :
    (sourcesAt w s layers path name t).Nodup := by
  induction ht generalizing path layers name with
  | file content =>
    rw [sourcesAt]
    split <;> simp
  | device | link =>
    rw [sourcesAt]
    exact List.nodup_nil
  | @folder children distinct named proper ih =>
    have hhere (n : String) := (layersTo_append_singleton w s path n).symm
    rw [sourcesAt, hlayers, sourcesAmong_eq, List.nodup_flatMap]
    constructor
    · intro c hc
      unfold sourcesOf
      split
      · exact List.nodup_nil
      · exact ih c hc (hhere c.1)
    · -- What is found below two children differs in their names.
      refine (List.pairwise_map.mp distinct).imp_of_mem fun {c d} hc hd hne p hp hp' => hne ?_
      obtain ⟨below, -, rfl, -⟩ := (mem_sourcesAt (proper c hc) (hhere c.1)).mp (mem_sourcesOf.mp hp).2
      obtain ⟨below', -, heq, -⟩ := (mem_sourcesAt (proper d hd) (hhere d.1)).mp (mem_sourcesOf.mp hp').2
      rw [List.append_assoc, List.append_assoc, List.append_cancel_left_eq] at heq
      exact (List.cons.inj heq).1

/-! ### The flat condition -/

theorem isPassedOver_eq_false_iff {above : List String} :
    w.isPassedOver s (w.layersTo s above) (above ++ [name]) name (!below.isEmpty) = false ↔
      (below ≠ [] → s.excludes name = false) ∧ w.isUnseen s above name (!below.isEmpty) = false := by
  have hsplit : w.isPassedOver s (w.layersTo s above) (above ++ [name]) name (!below.isEmpty) =
      (w.isUnseen s above name (!below.isEmpty) || (!below.isEmpty && s.excludes name)) := rfl
  have hfolder : (!below.isEmpty) = true ↔ below ≠ [] := by simp
  rw [hsplit, Bool.or_eq_false_iff, and_comm, ← hfolder]
  refine and_congr_left fun _ => ?_
  cases !below.isEmpty <;> simp

/-- The walk comes to a path if nothing on it is unseen and no folder on it is excluded. -/
theorem reaches_iff : w.Reaches s [] path ↔
    (∀ above name below, path = above ++ name :: below → below ≠ [] → s.excludes name = false) ∧
      ∀ above name below, path = above ++ name :: below → w.isUnseen s above name (!below.isEmpty) = false := by
  simp only [Reaches, List.nil_append, isPassedOver_eq_false_iff]
  constructor
  · intro h
    exact ⟨fun above name below heq => (h above name below heq).1, fun above name below heq => (h above name below heq).2⟩
  · rintro ⟨hentered, hseen⟩ above name below heq
    exact ⟨hentered above name below heq, hseen above name below heq⟩

/-- Whether a path of names leads to a source is told by the last of them. -/
theorem isSource_pathText {names : List String} (h : ∀ n ∈ names, Path.IsName n) :
    s.isSource (pathText names) = s.isSource (names.getLastD "") := by
  rcases List.eq_nil_or_concat' names with rfl | ⟨above, n, rfl⟩
  · rfl
  · have hlast := List.forall_mem_singleton.mpr (h n (by simp))
    have hname := extension?_pathText hlast
    rw [show pathText [n] = n from rfl] at hname
    rw [Settings.isSource, Settings.isSource, Path.hasExtension, Path.hasExtension, extension?_pathText h,
      List.getLastD_concat, hname]
    simp

theorem getLastD_root_append (w : Workspace) (path : List String) :
    (w.root ++ path).getLastD "" = path.getLastD w.name := by
  rcases List.eq_nil_or_concat' path with rfl | ⟨above, n, rfl⟩
  · rw [List.append_nil]
    rfl
  · rw [← List.append_assoc, List.getLastD_concat, List.getLastD_concat]

/-- Of a file that stands at a path, the name tells whether it is a source. -/
theorem isSource_treeAt? (hw : w.top.Proper) (h : w.treeAt? path = some t) :
    s.isSource (pathText (w.root ++ path)) = s.isSource (path.getLastD w.name) := by
  obtain ⟨root, hroot, hfind⟩ := treeAt?_eq_some_iff.mp h
  obtain ⟨hnames, hproper⟩ := proper_root hw hroot
  rw [isSource_pathText, getLastD_root_append]
  exact List.forall_mem_append.mpr ⟨hnames, (hproper.find? hfind).1⟩

theorem discover_eq {root : Tree} (h : w.root? = some root) :
    w.discover s =
      (sourcesAt w s (w.layersAbove s.respectGitignore) [] w.name root).mergeSort fun a b => (compare a b).isLE := by
  rw [discover, h]

theorem mem_discover_iff (hw : w.top.Proper) : path ∈ w.discover s ↔ w.Eligible s path := by
  cases hroot : w.root? with
  | none =>
    rw [discover, hroot]
    refine ⟨nofun, fun h => ?_⟩
    obtain ⟨content, htree, -⟩ := h.file
    rw [treeAt?, hroot] at htree
    exact nomatch htree
  | some root =>
    have hproper := (proper_root hw hroot).2
    have htree : w.treeAt? path = root.find? path := by rw [treeAt?, hroot, Option.bind_some]
    rw [discover_eq hroot, List.mem_mergeSort, mem_sourcesAt hproper rfl]
    constructor
    · rintro ⟨below, content, rfl, hfind, hsource, hreach⟩
      have hfile := htree.trans hfind
      rw [isSourceFile, Bool.and_eq_true, decide_eq_true_iff] at hsource
      obtain ⟨hentered, hseen⟩ := reaches_iff.mp hreach
      exact ⟨⟨content, hfile, hsource.2⟩, (isSource_treeAt? hw hfile).trans hsource.1, hentered, hseen⟩
    · rintro ⟨⟨content, hfile, hsize⟩, hsource, hentered, hseen⟩
      refine ⟨path, content, rfl, htree.symm.trans hfile, ?_, reaches_iff.mpr ⟨hentered, hseen⟩⟩
      rw [isSourceFile, Bool.and_eq_true, decide_eq_true_iff]
      exact ⟨(isSource_treeAt? hw hfile).symm.trans hsource, hsize⟩

theorem nodup_discover (hw : w.top.Proper) : (w.discover s).Nodup := by
  cases hroot : w.root? with
  | none =>
    rw [discover, hroot]
    exact List.nodup_nil
  | some root =>
    rw [discover_eq hroot]
    exact (List.mergeSort_perm _ _).nodup_iff.mpr (nodup_sourcesAt (proper_root hw hroot).2 rfl)

theorem pairwise_isLE_discover : (w.discover s).Pairwise fun a b => (compare a b).isLE = true := by
  unfold discover
  split
  · exact .nil
  · exact pairwise_isLE_mergeSort _

theorem pairwise_discover (hw : w.top.Proper) : (w.discover s).Pairwise (· < ·) := by
  refine (pairwise_isLE_discover.and (nodup_discover hw)).imp fun {a b} ⟨hle, hne⟩ => lt_of_compare ?_
  rcases Ordering.isLE_iff_eq_lt_or_eq_eq.mp hle with hlt | heq
  · exact hlt
  · exact absurd (Std.LawfulEqOrd.eq_of_compare heq) hne

end Workspace

end Concordance
