import Concordance.Proofs.Workspace.Tree

/-! Writing files and reading them back. A file that is written takes the place of a file or of nothing, so all
    else in the tree stays what it is (`Tree.Extends`), and the path that led to the place for writing leads there
    for reading, through the same links. A device keeps nothing of what is written to it, so a path that leads to one
    is left out. -/

namespace Concordance

namespace Tree

/-- Both are files, or both are folders, or both are the same device or link. -/
inductive Alike : Tree → Tree → Prop
  | file (a b : ByteArray) : Alike (.file a) (.file b)
  | device (content : ByteArray) : Alike (.device content) (.device content)
  | link (target : String) : Alike (.link target) (.link target)
  | folder (a b : List (String × Tree)) : Alike (.folder a) (.folder b)

theorem Alike.refl (t : Tree) : t.Alike t := by
  cases t with
  | file a => exact .file a a
  | device content => exact .device content
  | link target => exact .link target
  | folder a => exact .folder a a

/-- What stands in the first tree stands in the second. -/
def Extends (t t' : Tree) : Prop :=
  ∀ (path : List String) (c : Tree), t.find? path = some c → ∃ c', t'.find? path = some c' ∧ c.Alike c'

/-- Something other than a link stands at a path, or nothing does in a folder that is there. -/
inductive Room (t : Tree) : List String → Prop
  | there {path : List String} {c : Tree} (h : t.find? path = some c) (nolink : ∀ target, c ≠ .link target) :
      Room t path
  | fresh {dir : List String} {n : String} (folder : (t.find? dir).any isFolder = true)
      (none : t.find? (dir ++ [n]) = none) : Room t (dir ++ [n])

variable {t t' c new : Tree} {children : List (String × Tree)} {name n : String} {path dir : List String}
  {content : ByteArray}

theorem find?_append (t : Tree) (path rest : List String) :
    t.find? (path ++ rest) = (t.find? path).bind fun c => c.find? rest := by
  induction path generalizing t with
  | nil => simp
  | cons name path ih =>
    rw [List.cons_append, find?_cons, find?_cons, Option.bind_assoc]
    exact congrArg _ (funext fun c => ih c)

theorem find?_concat_folder (h : t.find? dir = some (.folder children)) (n : String) :
    t.find? (dir ++ [n]) = children.lookup n := by
  rw [find?_append, h, Option.bind_some, find?_cons]
  show (children.lookup n).bind _ = _
  cases children.lookup n with
  | none => rfl
  | some c => exact c.find?_nil

theorem any_isFolder_iff {x : Option Tree} : x.any isFolder = true ↔ ∃ children, x = some (.folder children) := by
  cases x with
  | none => simp
  | some t => cases t <;> simp [isFolder]

/-- Above what stands somewhere stands a folder. -/
theorem isFolder_of_find?_concat (h : t.find? (dir ++ [n]) = some c) : (t.find? dir).any isFolder = true := by
  rw [find?_append] at h
  obtain ⟨d, hd, h⟩ := Option.bind_eq_some_iff.mp h
  rw [find?_cons] at h
  obtain ⟨child, hchild, -⟩ := Option.bind_eq_some_iff.mp h
  cases d with
  | folder children => exact any_isFolder_iff.mpr ⟨children, hd⟩
  | file | device | link => cases hchild

theorem isFolder_dropLast (h : (t.find? path).any isFolder = true) : (t.find? path.dropLast).any isFolder = true := by
  rcases List.eq_nil_or_concat' path with rfl | ⟨dir, n, rfl⟩
  · exact h
  · obtain ⟨children, hc⟩ := any_isFolder_iff.mp h
    rw [List.dropLast_concat]
    exact isFolder_of_find?_concat hc

/-- A folder somewhere stands in a folder at the top. -/
theorem isFolder_nil (h : (t.find? path).any isFolder = true) : (t.find? []).any isFolder = true := by
  cases path with
  | nil => exact h
  | cons name path =>
    obtain ⟨children, hc⟩ := any_isFolder_iff.mp h
    rw [find?_cons] at hc
    obtain ⟨child, hchild, -⟩ := Option.bind_eq_some_iff.mp hc
    cases t with
    | folder siblings => rfl
    | file | device | link => cases hchild

theorem Room.of_isFolder (h : (t.find? path).any isFolder = true) : t.Room path := by
  obtain ⟨children, hc⟩ := any_isFolder_iff.mp h
  exact .there hc nofun

/-! ### Putting something in place -/

theorem lookup_cons_eq (n : String) (child : String × Tree) (rest : List (String × Tree)) :
    (child :: rest).lookup n = if n = child.1 then some child.2 else rest.lookup n := by
  obtain ⟨m, d⟩ := child
  rw [List.lookup_cons]
  by_cases h : n = m
  · simp [h]
  · simp [h, beq_eq_false_iff_ne.mpr h]

theorem lookup_setChild (name n : String) (c : Tree) (children : List (String × Tree)) :
    (setChild name c children).lookup n = if n = name then some c else children.lookup n := by
  induction children with
  | nil => exact lookup_cons_eq n (name, c) []
  | cons child rest ih =>
    rw [setChild]
    by_cases hm : child.1 = name
    · rw [if_pos hm, lookup_cons_eq, lookup_cons_eq, hm]
      split <;> rfl
    · rw [if_neg hm, lookup_cons_eq, lookup_cons_eq, ih]
      by_cases h : n = child.1
      · rw [if_pos h, if_pos h, if_neg (h ▸ hm)]
      · rw [if_neg h, if_neg h]

theorem child?_place (children : List (String × Tree)) (new : Tree) (name : String) (path : List String) (n : String) :
    ((folder children).place new (name :: path)).child? n =
      if n = name then some ((((folder children).child? name).getD empty).place new path)
      else (folder children).child? n :=
  lookup_setChild name n _ children

theorem find?_place_concat (h : (t.find? dir).any isFolder = true) :
    (t.place new (dir ++ [n])).find? (dir ++ [n]) = some new := by
  induction dir generalizing t with
  | nil =>
    obtain ⟨children, hchildren⟩ := any_isFolder_iff.mp h
    obtain rfl := Option.some.inj (t.find?_nil.symm.trans hchildren)
    rw [List.nil_append, find?_cons, child?_place, if_pos rfl, Option.bind_some, find?_nil, place]
  | cons name dir ih =>
    obtain ⟨children, hfolder⟩ := any_isFolder_iff.mp h
    rw [find?_cons] at hfolder
    obtain ⟨c, hc, hchildren⟩ := Option.bind_eq_some_iff.mp hfolder
    cases t with
    | file | device | link => cases hc
    | folder siblings =>
      rw [List.cons_append, find?_cons, child?_place, if_pos rfl, Option.bind_some, hc, Option.getD_some]
      exact ih (any_isFolder_iff.mpr ⟨children, hchildren⟩)

/-- What is put where there is room for it stands there. -/
theorem Room.find?_place (h : t.Room path) : (t.place new path).find? path = some new := by
  cases h with
  | there h nolink =>
    rcases List.eq_nil_or_concat' path with rfl | ⟨dir, n, rfl⟩
    · rw [place, find?_nil]
    · exact find?_place_concat (isFolder_of_find?_concat h)
  | fresh folder none => exact find?_place_concat folder

/-- Where there is room, and neither a folder nor a device, there is a file or nothing. -/
theorem Room.eq_file (h : t.Room path) (nofolder : ∀ children, t.find? path ≠ some (.folder children))
    (nodevice : ∀ content, t.find? path ≠ some (.device content)) (hc : t.find? path = some c) :
    ∃ old, c = .file old := by
  cases c with
  | file old => exact ⟨old, rfl⟩
  | device content => exact absurd hc (nodevice content)
  | folder children => exact absurd hc (nofolder children)
  | link target =>
    cases h with
    | there h nolink => exact absurd (Option.some.inj (h.symm.trans hc)) (nolink target)
    | fresh folder none => exact nomatch none.symm.trans hc

/-- A file that takes the place of a file or of nothing leaves all else what it is. -/
theorem extends_place (content : ByteArray) (h : ∀ c, t.find? path = some c → ∃ old, c = .file old) :
    t.Extends (t.place (.file content) path) := by
  induction path generalizing t with
  | nil =>
    obtain ⟨old, rfl⟩ := h t t.find?_nil
    intro q c hc
    obtain ⟨rfl, rfl⟩ := eq_nil_of_find? rfl hc
    exact ⟨_, by rw [place, find?_nil], .file old content⟩
  | cons name path ih =>
    cases t with
    | file | device | link => exact fun q c hc => ⟨c, hc, .refl c⟩
    | folder children =>
      intro q c hc
      cases q with
      | nil =>
        obtain rfl := Option.some.inj ((find?_nil _).symm.trans hc)
        exact ⟨_, find?_nil _, .folder _ _⟩
      | cons m q =>
        rw [find?_cons] at hc
        obtain ⟨d, hd, hc⟩ := Option.bind_eq_some_iff.mp hc
        rw [find?_cons, child?_place]
        by_cases hm : m = name
        · subst hm
          rw [if_pos rfl, Option.bind_some, hd, Option.getD_some]
          refine ih (fun x hx => h x ?_) q c hc
          rw [find?_cons, hd, Option.bind_some, hx]
        · rw [if_neg hm, hd, Option.bind_some]
          exact ⟨c, hc, .refl c⟩

theorem Extends.refl (t : Tree) : t.Extends t := fun _ c hc => ⟨c, hc, .refl c⟩

theorem Extends.folder (h : t.Extends t') {dir : List String} (hdir : t.find? dir = some (.folder children)) :
    ∃ children', t'.find? dir = some (.folder children') := by
  obtain ⟨c, hc, halike⟩ := h dir _ hdir
  cases halike with
  | folder => exact ⟨_, hc⟩

theorem Extends.isFolder (h : t.Extends t') (hpath : (t.find? path).any Tree.isFolder = true) :
    (t'.find? path).any Tree.isFolder = true := by
  obtain ⟨children, hpath⟩ := any_isFolder_iff.mp hpath
  exact any_isFolder_iff.mpr (h.folder hpath)

theorem Extends.link (h : t.Extends t') {target : String} (hpath : t.find? path = some (.link target)) :
    t'.find? path = some (.link target) := by
  obtain ⟨c, hc, halike⟩ := h path _ hpath
  cases halike with
  | link => exact hc

end Tree

namespace Workspace

variable {top : Tree} {links : Nat} {here place : List String} {steps : List Path.Component} {w w' made : Workspace}
  {content : ByteArray} {path : String}

theorem bind_eq_ok {α β : Type} {x : Except IoError α} {f : α → Except IoError β} {b : β} (h : x >>= f = .ok b) :
    ∃ a, x = .ok a ∧ f a = .ok b := by
  cases x with
  | error e => cases h
  | ok a => exact ⟨a, rfl, h⟩

/-! ### Following the path of a file to be written -/

/-- A path to a place for a file leads to where there is room. It leads there for reading as well, in every tree
    that extends the one at hand and has something in place. -/
theorem follow_fresh (hhere : top.Room here) (h : follow top true links here steps = .ok place) :
    top.Room place ∧ ∀ (top' c : Tree), top.Extends top' → top'.find? place = some c → (∀ target, c ≠ .link target) →
      follow top' false links here steps = .ok place := by
  fun_induction follow top true links here steps with
  | case1 links here =>
    obtain rfl := Except.ok.inj h
    exact ⟨hhere, fun _ _ _ _ _ => by rw [follow]⟩
  | case2 links here rest hfolder ih =>
    obtain ⟨hroom, hread⟩ := ih (.of_isFolder (Tree.isFolder_nil hfolder)) h
    refine ⟨hroom, fun top' c hext hc nolink => ?_⟩
    rw [follow, if_pos (hext.isFolder hfolder)]
    exact hread top' c hext hc nolink
  | case4 links here rest hfolder ih =>
    obtain ⟨hroom, hread⟩ := ih hhere h
    refine ⟨hroom, fun top' c hext hc nolink => ?_⟩
    rw [follow, if_pos (hext.isFolder hfolder)]
    exact hread top' c hext hc nolink
  | case6 links here rest hfolder ih =>
    obtain ⟨hroom, hread⟩ := ih (.of_isFolder (Tree.isFolder_dropLast hfolder)) h
    refine ⟨hroom, fun top' c hext hc nolink => ?_⟩
    rw [follow, if_pos (hext.isFolder hfolder)]
    exact hread top' c hext hc nolink
  | case9 links here n rest children hfolder hlength hnone hlast =>
    obtain rfl := Except.ok.inj h
    obtain rfl : rest = [] := by simpa using hlast
    have hfresh := (Tree.find?_concat_folder hfolder n).trans hnone
    refine ⟨.fresh (Tree.any_isFolder_iff.mpr ⟨children, hfolder⟩) hfresh, fun top' c hext hc nolink => ?_⟩
    obtain ⟨children', hfolder'⟩ := hext.folder hfolder
    rw [Tree.find?_concat_folder hfolder'] at hc
    cases c with
    | link target => exact absurd rfl (nolink target)
    | file | device | folder => simp only [follow, hfolder', hlength, ↓reduceIte, hc]
  | case12 here n rest children hfolder hlength target hlink links ih =>
    have hat := Tree.find?_concat_folder hfolder n
    obtain ⟨hroom, hread⟩ := ih hhere h
    refine ⟨hroom, fun top' c hext hc nolink => ?_⟩
    obtain ⟨children', hfolder'⟩ := hext.folder hfolder
    have hlink' := hext.link (hat.trans hlink)
    rw [Tree.find?_concat_folder hfolder'] at hlink'
    simp only [follow, hfolder', hlength, ↓reduceIte, hlink']
    exact hread top' c hext hc nolink
  | case13 links here n rest children hfolder hlength child hnolink hchild ih =>
    have hat := (Tree.find?_concat_folder hfolder n).trans hchild
    obtain ⟨hroom, hread⟩ := ih (.there hat fun target hc => hnolink target hc) h
    refine ⟨hroom, fun top' c hext hc nolink => ?_⟩
    obtain ⟨children', hfolder'⟩ := hext.folder hfolder
    obtain ⟨child', hat', halike⟩ := hext _ _ hat
    rw [Tree.find?_concat_folder hfolder'] at hat'
    have hread := hread top' c hext hc nolink
    cases halike with
    | link target => exact absurd rfl (hnolink target)
    | file | device | folder => simpa only [follow, hfolder', hlength, ↓reduceIte, hat'] using hread
  | _ => cases h

/-- Steps are taken from folders only. -/
theorem isFolder_of_follow {fresh : Bool} (h : follow top fresh links here steps = .ok place) (hsteps : steps ≠ []) :
    (top.find? here).any Tree.isFolder = true := by
  cases steps with
  | nil => exact absurd rfl hsteps
  | cons step rest =>
    cases step with
    | root | here | up =>
      rw [follow] at h
      split at h
      · assumption
      · cases h
    | name n =>
      rw [follow] at h
      split at h
      next hfolder => exact Tree.any_isFolder_iff.mpr ⟨_, hfolder⟩
      next => cases h

theorem steps_ne_nil (hsteps : steps ≠ []) : w.steps steps ≠ [] := by
  unfold Workspace.steps
  split
  · exact hsteps
  · exact List.append_ne_nil_of_right_ne_nil _ hsteps

/-- The place for a file to be written is where it is read, once something is there. -/
theorem locate_destination (h : w.destination steps = .ok place) (hsteps : steps ≠ []) :
    w.top.Room place ∧ ∀ (top' c : Tree), w.top.Extends top' → top'.find? place = some c →
      (∀ target, c ≠ .link target) → ({ w with top := top' } : Workspace).locate steps = .ok place :=
  follow_fresh (.of_isFolder (isFolder_of_follow h (steps_ne_nil hsteps))) h

/-- What writing comes to, once the folders above are made and the path has led to a place. -/
theorem save_eq (hcheck : checkPath path = .ok ()) (hhere : Path.endsHere path = false)
    (hidle : Path.endsIdle path = false) (hparents : w.makeParents (Path.components path) = .ok made)
    (hplace : made.destination (Path.components path) = .ok place) (content : ByteArray) :
    w.save path content = made.write place content := by
  simp only [save, hcheck, hparents, hhere, hidle, hplace, bind, Except.bind, Bool.false_eq_true, ↓reduceIte]

/-- Before a file is written at its place, the folders above are made. -/
theorem destination_of_save (h : w.save path content = .ok w') :
    checkPath path = .ok () ∧ Path.endsIdle path = false ∧ ∃ (made : Workspace) (place : List String),
      made.destination (Path.components path) = .ok place ∧ made.write place content = .ok w' := by
  obtain ⟨⟨⟩, hcheck, h⟩ := bind_eq_ok h
  obtain ⟨made, -, h⟩ := bind_eq_ok h
  split at h
  next =>
    obtain ⟨there, -, h⟩ := bind_eq_ok h
    cases h
  next =>
    split at h
    next => cases h
    next hidle =>
      obtain ⟨place, hplace, h⟩ := bind_eq_ok h
      exact ⟨hcheck, eq_false_of_ne_true hidle, made, place, hplace, h⟩

/-- What is written stands at its place as a file, unless that is the place of a device. -/
theorem write_eq_ok (h : w.write place content = .ok w') :
    (∃ old, w.top.find? place = some (.device old)) ∧ w' = w ∨
      (∀ children, w.top.find? place ≠ some (.folder children)) ∧
        (∀ old, w.top.find? place ≠ some (.device old)) ∧ w' = w.placed place (.file content) := by
  unfold write at h
  split at h
  next => cases h
  next old hdevice => exact .inl ⟨⟨old, hdevice⟩, (Except.ok.inj h).symm⟩
  next nofolder nodevice => exact .inr ⟨nofolder, nodevice, (Except.ok.inj h).symm⟩

theorem read_eq (hcheck : checkPath path = .ok ()) (hidle : Path.endsIdle path = false)
    (hfile : w.lookup (Path.components path) = .ok (.file content)) : w.read path = .ok content := by
  simp only [read, hcheck, bytesAt, hfile, hidle, bind, Except.bind, Bool.false_eq_true, ↓reduceIte]

/-- A file that is written is read back, unless its path leads to a device. -/
theorem read_save (h : w.save path content = .ok w')
    (nodevice : ∀ old, w'.lookup (Path.components path) ≠ .ok (.device old)) : w'.read path = .ok content := by
  obtain ⟨hcheck, hidle, made, place, hplace, hwrite⟩ := destination_of_save h
  have hsteps : Path.components path ≠ [] := by
    intro hnil
    rw [Path.endsIdle_of_components_eq_nil hnil] at hidle
    exact nomatch hidle
  obtain ⟨hroom, hread⟩ := locate_destination hplace hsteps
  rcases write_eq_ok hwrite with ⟨⟨old, hdevice⟩, rfl⟩ | ⟨nofolder, hnone, rfl⟩
  · have hlocate : w'.locate (Path.components path) = .ok place := hread w'.top _ (.refl _) hdevice nofun
    exact absurd (lookup_of_locate hlocate hdevice) (nodevice old)
  · have hfile : (made.top.place (.file content) place).find? place = some (.file content) := hroom.find?_place
    have hext := Tree.extends_place content fun c => hroom.eq_file nofolder hnone
    have hlocate : (made.placed place (.file content)).locate (Path.components path) = .ok place :=
      hread _ _ hext hfile nofun
    exact read_eq hcheck hidle (lookup_of_locate hlocate hfile)

end Workspace

end Concordance
