import Concordance.Proofs.Text.Path

/-! Trees as a file system has them: the children of a folder have names that a path can hold, no two of them
    alike. What stands at a path is then settled by the children on the way. -/

namespace Concordance

namespace Tree

/-- The children of each folder have names, and no two have the same. -/
inductive Proper : Tree → Prop
  | file (content : ByteArray) : Proper (.file content)
  | device (content : ByteArray) : Proper (.device content)
  | link (target : String) : Proper (.link target)
  | folder {children : List (String × Tree)} (distinct : (children.map Prod.fst).Nodup)
      (named : ∀ c ∈ children, Path.IsName c.1) (below : ∀ c ∈ children, c.2.Proper) : Proper (.folder children)

variable {t c : Tree} {children : List (String × Tree)} {name : String} {path : List String} {content : ByteArray}

@[simp] theorem find?_nil (t : Tree) : t.find? [] = some t := by rw [find?]

theorem find?_cons (t : Tree) (name : String) (path : List String) :
    t.find? (name :: path) = (t.child? name).bind fun c => c.find? path := by
  rw [find?]

theorem exists_folder_of_isFolder (h : t.isFolder = true) : ∃ children, t = folder children := by
  cases t with
  | folder children => exact ⟨children, rfl⟩
  | file | device | link => exact nomatch h

/-- Below what is no folder nothing stands. -/
theorem eq_nil_of_find? (h : t.isFolder = false) (hc : t.find? path = some c) : path = [] ∧ c = t := by
  cases path with
  | nil => exact ⟨rfl, (Option.some.inj (t.find?_nil.symm.trans hc)).symm⟩
  | cons name path =>
    rw [find?_cons] at hc
    cases t with
    | folder => exact nomatch h
    | file | device | link => exact nomatch hc

theorem mem_of_child?_folder (h : (folder children).child? name = some c) : (name, c) ∈ children := by
  obtain ⟨before, after, hsplit, -⟩ := List.lookup_eq_some_iff.mp h
  have hchildren : children = before ++ (name, c) :: after := hsplit
  rw [hchildren]
  exact List.mem_append_right _ List.mem_cons_self

/-- On the way to a file there are folders only. -/
theorem isFolder_of_find?_eq_file (h : t.find? path = some (.file content)) : t.isFolder = !path.isEmpty := by
  cases hfolder : t.isFolder with
  | false =>
    obtain ⟨rfl, -⟩ := eq_nil_of_find? hfolder h
    rfl
  | true =>
    cases path with
    | nil =>
      obtain rfl := Option.some.inj (t.find?_nil.symm.trans h)
      exact nomatch hfolder
    | cons name path => rfl

namespace Proper

@[simp] theorem file_iff : (Tree.file content).Proper ↔ True := iff_true_intro (.file content)

@[simp] theorem device_iff : (Tree.device content).Proper ↔ True := iff_true_intro (.device content)

@[simp] theorem link_iff {target : String} : (Tree.link target).Proper ↔ True := iff_true_intro (.link target)

@[simp] theorem folder_iff : (Tree.folder children).Proper ↔
    (children.map Prod.fst).Nodup ∧ ∀ c ∈ children, Path.IsName c.1 ∧ c.2.Proper := by
  constructor
  · intro h
    cases h with
    | folder distinct named below => exact ⟨distinct, fun c hc => ⟨named c hc, below c hc⟩⟩
  · rintro ⟨distinct, hchildren⟩
    exact .folder distinct (fun c hc => (hchildren c hc).1) fun c hc => (hchildren c hc).2

theorem child?_eq_some_iff (h : (Tree.folder children).Proper) :
    (Tree.folder children).child? name = some c ↔ (name, c) ∈ children := by
  cases h with
  | folder distinct =>
    refine ⟨mem_of_child?_folder, fun hmem => ?_⟩
    obtain ⟨before, after, rfl⟩ := List.append_of_mem hmem
    refine List.lookup_eq_some_iff.mpr ⟨before, after, rfl, fun other hother => ?_⟩
    rw [List.map_append, List.map_cons, List.nodup_append] at distinct
    rw [bne_iff_ne]
    exact (distinct.2.2 other.1 (List.mem_map_of_mem hother) name List.mem_cons_self).symm

theorem child? (h : t.Proper) (hc : t.child? name = some c) : Path.IsName name ∧ c.Proper := by
  cases h with
  | file | device | link => exact nomatch hc
  | folder _ named below =>
    have hmem := mem_of_child?_folder hc
    exact ⟨named _ hmem, below _ hmem⟩

theorem find? (h : t.Proper) (hc : t.find? path = some c) : (∀ n ∈ path, Path.IsName n) ∧ c.Proper := by
  induction path generalizing t with
  | nil =>
    rw [find?_nil] at hc
    exact ⟨nofun, Option.some.inj hc ▸ h⟩
  | cons name path ih =>
    rw [find?_cons] at hc
    obtain ⟨child, hchild, hc⟩ := Option.bind_eq_some_iff.mp hc
    obtain ⟨hname, hproper⟩ := h.child? hchild
    obtain ⟨hnames, hc⟩ := ih hproper hc
    exact ⟨List.forall_mem_cons.mpr ⟨hname, hnames⟩, hc⟩

end Proper

end Tree

namespace Workspace

variable {w : Workspace} {root t top : Tree} {links : Nat} {path here place : List String} {steps : List Path.Component}

/-- What stands at a path of names from the root, where no link but the root itself is followed. -/
def treeAt? (w : Workspace) (path : List String) : Option Tree := w.root?.bind fun root => root.find? path

theorem lookup_eq_ok (h : w.lookup steps = .ok t) :
    ∃ place, w.locate steps = .ok place ∧ w.top.find? place = some t := by
  unfold lookup at h
  cases hplace : w.locate steps with
  | error => simp [hplace, bind, Except.bind] at h
  | ok place =>
    simp only [hplace, bind, Except.bind] at h
    split at h
    next found hfound => exact ⟨place, rfl, hfound.trans (congrArg some (Except.ok.inj h))⟩
    next => exact nomatch h

theorem lookup_of_locate (hplace : w.locate steps = .ok place) (ht : w.top.find? place = some t) :
    w.lookup steps = .ok t := by
  simp only [lookup, hplace, bind, Except.bind, ht]

theorem root?_eq_some_iff : w.root? = some root ↔ w.locate [] = .ok w.place ∧ w.top.find? w.place = some root := by
  have hplace {p : List String} (hp : w.locate [] = .ok p) : w.place = p := by rw [place, hp]; rfl
  constructor
  · intro h
    cases hlookup : w.lookup [] with
    | error e =>
      rw [root?, hlookup] at h
      cases h
    | ok t =>
      rw [root?, hlookup] at h
      obtain rfl := Option.some.inj h
      obtain ⟨p, hp, ht⟩ := lookup_eq_ok hlookup
      rw [hplace hp]
      exact ⟨hp, ht⟩
  · rintro ⟨hp, hroot⟩
    rw [root?, lookup_of_locate hp hroot]
    rfl

theorem treeAt?_eq_some_iff : w.treeAt? path = some t ↔
    ∃ root, w.root? = some root ∧ root.find? path = some t := Option.bind_eq_some_iff

/-- The names on a path that leads somewhere in a proper tree are such as a folder can have. -/
theorem isName_of_follow (htop : top.Proper) (h : follow top false links here steps = .ok place) :
    ∀ n, .name n ∈ steps → Path.IsName n := by
  fun_induction follow top false links here steps with
  | case1 links here => exact nofun
  | case2 links here rest hfolder ih | case4 links here rest hfolder ih | case6 links here rest hfolder ih =>
    simpa using ih h
  | case9 links here n rest children hfolder hlength hnone hfresh => cases hfresh
  | case12 here n rest children hfolder hlength target hlink links ih =>
    have hname := (htop.find? hfolder).2.child? hlink
    have hrest := ih h
    simp only [List.mem_append, List.mem_cons, Path.Component.name.injEq] at hrest ⊢
    rintro m (rfl | hm)
    · exact hname.1
    · exact hrest m (.inr hm)
  | case13 links here n rest children hfolder hlength c hnolink hchild ih =>
    have hname := (htop.find? hfolder).2.child? hchild
    have hrest := ih h
    simp only [List.mem_cons, Path.Component.name.injEq]
    rintro m (rfl | hm)
    · exact hname.1
    · exact hrest m hm
  | _ => cases h

/-- In a proper tree the root is proper, and the names on the way to it are names. -/
theorem proper_root (hw : w.top.Proper) (h : w.root? = some root) :
    (∀ n ∈ w.root, Path.IsName n) ∧ root.Proper := by
  obtain ⟨hplace, hroot⟩ := root?_eq_some_iff.mp h
  refine ⟨fun n hn => isName_of_follow hw hplace n ?_, (hw.find? hroot).2⟩
  simpa [Workspace.steps] using hn

end Workspace

end Concordance
