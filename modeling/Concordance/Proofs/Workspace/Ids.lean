import Concordance.Java.Summary
import Concordance.Proofs.Service.Indexing
import Concordance.Proofs.Text.Extension
import Concordance.Proofs.Workspace.Discovery

/-! What sources are called. An id is the path with its backslashes turned, and so it tells where the path is cut
    at slashes and backslashes, and nothing more. Names without backslashes are told apart, and keep their
    extensions. -/

namespace Concordance

/-- A character with a backslash turned. -/
def FileId.turned (c : Char) : Char := if c = '\\' then '/' else c

namespace Workspace

variable {w : Workspace} {s : Settings} {path other : List String}

/-- The pieces of a path that is cut at its slashes and its backslashes. -/
def cuts (path : List String) : List (List Char) :=
  path.flatMap fun name => Path.pieces (name.toList.map FileId.turned)

/-- A path of names without backslashes. -/
def Straight (path : List String) : Prop := ∀ name ∈ path, '\\' ∉ name.toList

theorem map_intercalate (f : Char → Char) (sep : List Char) : ∀ texts : List (List Char),
    (sep.intercalate texts).map f = (sep.map f).intercalate (texts.map (List.map f))
  | [] => rfl
  | [cs] => by simp
  | cs :: next :: rest => by
    have ih := map_intercalate f sep (next :: rest)
    simp only [List.intercalate_cons_cons, List.map_append, List.map_cons] at ih ⊢
    rw [ih]

theorem pieces_sourceId (h : path ≠ []) : Path.pieces (sourceId path).text.toList = cuts path := by
  have hmap : (path.map String.toList).map (List.map FileId.turned) ≠ [] := by simpa using h
  have htext : (sourceId path).text = String.ofList ((pathText path).toList.map FileId.turned) := rfl
  rw [htext, String.toList_ofList, pathText, String.toList_intercalate, map_intercalate,
    show "/".toList.map FileId.turned = ['/'] from rfl, Path.pieces_intercalate hmap, List.flatMap_map,
    List.flatMap_map]
  rfl

/-- Two sources have one id if their paths differ at most in which of the slashes are turned. -/
theorem sourceId_eq_iff (h : path ≠ []) (h' : other ≠ []) : sourceId path = sourceId other ↔ cuts path = cuts other := by
  rw [← pieces_sourceId h, ← pieces_sourceId h']
  refine ⟨fun heq => by rw [heq], fun heq => ?_⟩
  have htext := String.toList_inj.mp (Path.pieces_injective heq)
  exact congrArg FileId.mk htext

theorem map_turned {cs : List Char} (h : '\\' ∉ cs) : cs.map FileId.turned = cs := by
  refine (List.map_congr_left fun c hc => ?_).trans (List.map_id cs)
  have hne : c ≠ '\\' := fun heq => h (heq.subst hc)
  exact if_neg hne

theorem cuts_of_straight (hnames : ∀ n ∈ path, Path.IsName n) (h : Straight path) :
    cuts path = path.map String.toList := by
  rw [cuts, List.map_eq_flatMap]
  refine List.flatMap_congr fun n hn => ?_
  rw [map_turned (h n hn), (hnames n hn).pieces]

/-- The id of a path without backslashes is the path. -/
theorem sourceId_of_straight (hnames : ∀ n ∈ path, Path.IsName n) (h : Straight path) :
    (sourceId path).text = pathText path := by
  cases path with
  | nil => rfl
  | cons first rest =>
    have hne := List.cons_ne_nil first rest
    have hpieces : Path.pieces (sourceId (first :: rest)).text.toList = Path.pieces (pathText (first :: rest)).toList := by
      rw [pieces_sourceId hne, cuts_of_straight hnames h, pieces_pathText hnames hne]
    exact String.toList_inj.mp (Path.pieces_injective hpieces)

/-! ### Sources of a folder -/

theorem root?_of_isFolder (h : w.isFolder [] = true) : ∃ children, w.root? = some (.folder children) := by
  unfold isFolder at h
  split at h
  next t hlookup =>
    obtain ⟨children, rfl⟩ := Tree.exists_folder_of_isFolder h
    exact ⟨children, by rw [root?, hlookup]; rfl⟩
  next => cases h

/-- In a folder that is a root, what is found has names, of which the last tells that it is a source. -/
theorem names_of_discover (hw : w.top.Proper) (hroot : w.isFolder [] = true) (h : path ∈ w.discover s) :
    path ≠ [] ∧ (∀ n ∈ path, Path.IsName n) ∧ s.isSource (pathText path) = true := by
  obtain ⟨children, hchildren⟩ := root?_of_isFolder hroot
  have heligible := (mem_discover_iff hw).mp h
  obtain ⟨content, hfile, -⟩ := heligible.file
  have hsource := (isSource_treeAt? hw hfile).symm.trans heligible.source
  rw [treeAt?, hchildren, Option.bind_some] at hfile
  have hnames := ((proper_root hw hchildren).2.find? hfile).1
  rcases List.eq_nil_or_concat' path with rfl | ⟨above, n, rfl⟩
  · simp at hfile
  · refine ⟨by simp, hnames, ?_⟩
    rw [List.getLastD_concat] at hsource
    rw [isSource_pathText hnames, List.getLastD_concat]
    exact hsource

/-! ### Faithful ids -/

/-- The builder for the sources that some settings name, as the service runs it. -/
def builderFor (parse : String → Option Java.Tree) (s : Settings) (file : FileId) (text : String) : BuildResult :=
  Java.buildWith parse s.sourceExtensions file text

theorem isSource_sourceId (hw : w.top.Proper) (hroot : w.isFolder [] = true) (hpath : path ∈ w.discover s)
    (h : Straight path) : s.isSource (sourceId path).text = true := by
  obtain ⟨-, hnames, hsource⟩ := names_of_discover hw hroot hpath
  rwa [sourceId_of_straight hnames h]

theorem sourceId_inj (hw : w.top.Proper) (hroot : w.isFolder [] = true) (hpath : path ∈ w.discover s)
    (hother : other ∈ w.discover s) (h : Straight path) (h' : Straight other)
    (heq : sourceId path = sourceId other) : path = other := by
  obtain ⟨hne, hnames, -⟩ := names_of_discover hw hroot hpath
  obtain ⟨hne', hnames', -⟩ := names_of_discover hw hroot hother
  rw [sourceId_eq_iff hne hne', cuts_of_straight hnames h, cuts_of_straight hnames' h'] at heq
  exact (List.map_inj_right fun _ _ => String.toList_inj.mp).mp heq

theorem nodup_sources (hw : w.top.Proper) (hroot : w.isFolder [] = true)
    (straight : ∀ path ∈ w.discover s, Straight path) : ((w.sources s).map Source.file).Nodup := by
  rw [sources, List.map_map]
  refine List.Nodup.map_on (fun path hpath other hother heq => ?_) (nodup_discover hw)
  exact sourceId_inj hw hroot hpath hother (straight path hpath) (straight other hother) heq

theorem not_unsupported {parse : String → Option Java.Tree} {file : FileId} (h : s.isSource file.text = true)
    (text : String) (f : FileId) : builderFor parse s file text ≠ .error (.unsupported f) := by
  intro heq
  have hnone : s.isSource file.text = false := (Java.buildWith_eq_unsupported_iff.mp heq).1
  exact Bool.false_ne_true (hnone.symm.trans h)

/-- The run of an indexing comes to the calls for its sources, and its count to their tally. -/
theorem run_indexWorkspace (hroot : w.isFolder [] = true) (root : String) (service : Service)
    (result : FileId → String → BuildResult) (next : Except ServiceError (Except Crash IndexStats) → Build Unit) :
    (Build.indexWorkspace w root s (fun file text => .pure (result file text) ()) next).run service =
      (next (.ok (.ok (service.tally result (w.sources s) { discovered := (w.sources s).length })))).run
        (service.performAll (readings result (w.sources s))) := by
  rw [Build.indexWorkspace, if_pos hroot]
  exact Build.run_indexSources service result (w.sources s) { discovered := (w.sources s).length }

/-- Two sources get one id exactly if their paths are cut alike at slashes and backslashes, and a source without
    backslashes on its path is supported under its id by the builder for the same extensions. If there is no
    backslash on any path that is found, then no two sources have one id, and a fresh service that indexes the
    workspace counts as indexed just the files that have an entry and a source that builds without errors. -/
theorem ids_faithful (parse : String → Option Java.Tree) (s : Settings) (proper : w.top.Proper)
    (folder : w.isFolder [] = true) (root : String) :
    (∀ path ∈ w.discover s, ∀ other ∈ w.discover s, sourceId path = sourceId other ↔ cuts path = cuts other) ∧
    (∀ path ∈ w.discover s, Straight path → Path.hasExtension s.sourceExtensions (sourceId path).text = true ∧
      ∀ text f, builderFor parse s (sourceId path) text ≠ .error (.unsupported f)) ∧
    ((∀ path ∈ w.discover s, Straight path) →
      (∀ path ∈ w.discover s, ∀ other ∈ w.discover s, sourceId path = sourceId other → path = other) ∧
      ∃ stats after, (∀ next : Except ServiceError (Except Crash IndexStats) → Build Unit,
          (Build.indexWorkspace w root s (fun file text => .pure (builderFor parse s file text) ()) next).run
            (.fresh s) = (next (.ok (.ok stats))).run after) ∧
        stats.discovered = (w.discover s).length ∧ stats.indexed + stats.failed = stats.discovered ∧
        stats.indexed = after.registry.files.countP fun f =>
          (w.sources s).any fun x => x.file = f && x.isClean (builderFor parse s)) := by
  refine ⟨fun path hpath other hother => ?_, fun path hpath hstraight => ?_,
    fun straight => ⟨fun path hpath other hother heq => ?_, ?_⟩⟩
  · exact sourceId_eq_iff (names_of_discover proper folder hpath).1 (names_of_discover proper folder hother).1
  · have hsource := isSource_sourceId proper folder hpath hstraight
    exact ⟨hsource, not_unsupported hsource⟩
  · exact sourceId_inj proper folder hpath hother (straight path hpath) (straight other hother) heq
  · have hdistinct := nodup_sources proper folder straight
    refine ⟨_, _, run_indexWorkspace folder root (.fresh s) (builderFor parse s), ?_⟩
    rw [Service.tally_of_distinct hdistinct fun _ _ => rfl, Service.countP_files_readings s hdistinct]
    refine ⟨List.length_map _, ?_, Nat.zero_add _⟩
    rw [List.length_eq_countP_add_countP (Source.isClean (builderFor parse s))]
    simp

/-- A workspace with two sources, one of them in a folder. -/
def plainWorkspace : Workspace := .ofRoot "ws" (.folder [
  ("a", .folder [("b.java", .file "class X \x7b\x7d".toUTF8)]),
  ("c.java", .file "class Y \x7b\x7d".toUTF8)])

theorem ids_faithful_plain :
    sourceId ["a", "b.java"] ≠ sourceId ["c.java"] ∧
      Path.hasExtension ["java"] (sourceId ["a", "b.java"]).text = true := by
  have proper : plainWorkspace.top.Proper := by simp [plainWorkspace, ofRoot, Path.IsName]
  have hfound : plainWorkspace.discover .standard = [["a", "b.java"], ["c.java"]] := by cbv
  have straight : ∀ path ∈ plainWorkspace.discover .standard, Straight path := by
    rw [hfound]
    simp [Straight]
  obtain ⟨-, hsupported, hfaithful⟩ := ids_faithful (fun _ => none) .standard proper (by cbv) "/ws"
  obtain ⟨hinj, -⟩ := hfaithful straight
  rw [hfound] at straight hinj hsupported
  refine ⟨fun heq => ?_, (hsupported ["a", "b.java"] (by simp) (straight _ (by simp))).1⟩
  exact absurd (hinj ["a", "b.java"] (by simp) ["c.java"] (by simp) heq) (by decide)

/-- A workspace with backslashes in the names of two sources. -/
def slantedWorkspace : Workspace := .ofRoot "ws" (.folder [
  ("a", .folder [("b.java", .file "class X \x7b\x7d".toUTF8)]),
  ("a\\b.java", .file "class Y \x7b\x7d".toUTF8),
  ("c\\.java", .file "class Z \x7b\x7d".toUTF8)])

/-- With backslashes two sources can get one id, and a source an id that the builder does not support. -/
theorem merged_by_backslash :
    ["a", "b.java"] ∈ slantedWorkspace.discover .standard ∧ ["a\\b.java"] ∈ slantedWorkspace.discover .standard ∧
      sourceId ["a", "b.java"] = sourceId ["a\\b.java"] ∧
      ["c\\.java"] ∈ slantedWorkspace.discover .standard ∧
      ∀ parse text, builderFor parse .standard (sourceId ["c\\.java"]) text = .error (.unsupported ⟨"c/.java"⟩) := by
  have hfound : slantedWorkspace.discover .standard = [["a", "b.java"], ["a\\b.java"], ["c\\.java"]] := by cbv
  have hunsupported : Path.hasExtension ["java"] "c/.java" = false := by cbv
  have hid : sourceId ["c\\.java"] = ⟨"c/.java"⟩ := by cbv
  rw [hfound]
  refine ⟨by simp, by simp, by cbv, by simp, fun parse text => ?_⟩
  rw [hid, builderFor, Java.buildWith, show Settings.standard.sourceExtensions = ["java"] from rfl, hunsupported]
  rfl

end Workspace

end Concordance
