import Concordance.Proofs.Service.Indexing
import Concordance.Proofs.Service.Verdict

/-! Indexing a workspace accounts for every file. A result that came too late would be counted nowhere, but unless
    entries were put past the service there are none: no slot is ahead of the clock, in any of the states that the
    indexing passes through. -/

namespace Concordance

variable {α β : Type}

/-- The build does not crash, and of the service it only asks what leaves it as it is. -/
def Build.Quiet : Build α → Prop
  | finish ending _ => ∃ result, ending = .ok result
  | ask request next => (∀ s : Service, (s.answer request).2 = s) ∧ ∀ reply, (next reply).Quiet
  | index _ _ _ => False

/-- A result that the build can end with. -/
def Build.Gives (build : Build α) (result : BuildResult) : Prop := ∃ s notes, (build.run s).1 = (.ok result, notes)

/-- The build, on that service, comes through some moments to another build on another service. -/
structure Build.Reaches (build : Build α) (s : Service) (l : List Moment) (build' : Build α) (s' : Service) :
    Prop where
  run : build.run s = build'.run s'
  log : build.log s = l ++ build'.log s'

/-- The file and the result of a build that ends, if it does not crash. -/
def Moment.built? (m : Moment) : Option (FileId × BuildResult) := match m.event with
  | .ended file _ (.ok result) _ => some (file, result)
  | _ => none

/-- The texts among some sources, with their files. -/
def texts (sources : List Source) : List (FileId × String) :=
  sources.filterMap fun source => source.text?.map (source.file, ·)

/-- The calls that index some files with these results. -/
def indexing (built : List (FileId × BuildResult)) : List Call := built.map fun b => .index b.1 (.ok b.2)

/-- The count after some sources, of which the texts gave these results. -/
def IndexStats.after (stats : IndexStats) (sources : List Source) (built : List (FileId × BuildResult)) :
    IndexStats where
  discovered := stats.discovered
  indexed := stats.indexed + built.countP (·.2.isOk)
  failed := stats.failed + (sources.countP (·.text?.isNone) + built.countP (!·.2.isOk))

variable {s s' : Service} {build build' : Build α} {builder : FileId → String → Build α} {file : FileId}
  {source : Source} {sources : List Source} {l : List Moment}

theorem length_texts (sources : List Source) :
    (texts sources).length + sources.countP (·.text?.isNone) = sources.length := by
  induction sources with
  | nil => rfl
  | cons source rest ih =>
    cases htext : source.text? with
    | none =>
      rw [texts, List.filterMap_cons_none (by rw [htext]; rfl), List.countP_cons_of_pos (by rw [htext]; rfl),
        List.length_cons, ← ih]
      rfl
    | some text =>
      rw [texts, List.filterMap_cons_some (by rw [htext]; rfl), List.countP_cons_of_neg (by rw [htext]; exact nofun),
        List.length_cons, List.length_cons, ← ih]
      exact Nat.add_right_comm _ _ _

theorem length_built (built : List (FileId × BuildResult)) :
    built.length = built.countP (·.2.isOk) + built.countP (!·.2.isOk) := by
  rw [List.length_eq_countP_add_countP fun b => b.2.isOk]
  simp

theorem map_fst_texts_subset : (texts sources).map Prod.fst ⊆ sources.map Source.file := by
  intro f hf
  obtain ⟨x, hx, rfl⟩ := List.mem_map.mp hf
  obtain ⟨source, hsource, htext⟩ := List.mem_filterMap.mp hx
  obtain ⟨text, -, rfl⟩ := Option.map_eq_some_iff.mp htext
  exact List.mem_map.mpr ⟨source, hsource, rfl⟩

/-! ### One build -/

theorem Build.Reaches.trans {s'' : Service} {l' : List Moment} {build'' : Build α}
    (h : build.Reaches s l build' s') (h' : build'.Reaches s' l' build'' s'') :
    build.Reaches s (l ++ l') build'' s'' where
  run := h.run.trans h'.run
  log := by rw [h.log, h'.log, List.append_assoc]

theorem Build.quiet_pure (result : BuildResult) (notes : α) : (pure result notes).Quiet := ⟨result, rfl⟩

/-- A quiet build gives a result, leaves the service as it is, and no other build ends meanwhile. -/
theorem Build.Quiet.exists_run (h : build.Quiet) (s : Service) :
    ∃ result notes, build.run s = ((.ok result, notes), s) ∧ (build.log s).filterMap Moment.built? = [] := by
  induction build with
  | finish ending notes =>
    obtain ⟨result, rfl⟩ := h
    exact ⟨result, notes, rfl, rfl⟩
  | ask request next ih =>
    obtain ⟨hsame, hnext⟩ := h
    obtain ⟨result, notes, hrun, hlog⟩ := ih (s.answer request).1 (hnext _)
    refine ⟨result, notes, ?_, ?_⟩
    · show (next (s.answer request).1).run (s.answer request).2 = _
      rw [hsame, hrun]
    · rw [Build.log, List.filterMap_cons_none rfl, hsame]
      exact hlog
  | index => exact h.elim

/-- Having a file indexed by a quiet build comes to one call with its result, whatever is done next. -/
theorem Build.Quiet.exists_index (h : build.Quiet) (s : Service) (file : FileId) :
    ∃ result notes l, build.Gives result ∧ l.filterMap Moment.built? = [(file, result)] ∧
      ∀ next : Attempt → α → Build α, (index file build next).Reaches s l
        (next (.ok (s.outcome file result)) notes) (s.perform (.index file (.ok result))) := by
  obtain ⟨result, notes, hrun, hlog⟩ := h.exists_run s.begin.2
  have hindex : s.index file build =
      ((.ok (s.outcome file result), notes), s.perform (.index file (.ok result))) := by
    rw [Service.index_eq, hrun]
    rfl
  let began : Moment := ⟨s, .began file s.begin.1, s.begin.2⟩
  let ended : Moment := ⟨(build.run s.begin.2).2,
    .ended file s.begin.1 (build.run s.begin.2).1.1 (s.index file build).1.1, (s.index file build).2⟩
  have hbuilt : (began :: build.log s.begin.2 ++ [ended]).filterMap Moment.built? = [(file, result)] := by
    have hended : ended.built? = some (file, result) := by simp only [ended, Moment.built?, hrun]
    rw [List.filterMap_append, List.filterMap_cons_none rfl, hlog, List.filterMap_cons_some hended]
    rfl
  refine ⟨result, notes, began :: build.log s.begin.2 ++ [ended], ⟨s.begin.2, notes, by rw [hrun]⟩, hbuilt,
    fun next => ⟨by rw [run_index, hindex], ?_⟩⟩
  rw [log_index, List.append_assoc, List.singleton_append]
  simp only [began, ended, hindex]

/-! ### One build after the other -/

theorem IndexStats.after_of_none (stats : IndexStats) (built : List (FileId × BuildResult))
    (h : source.text? = none) :
    stats.after (source :: sources) built = stats.countFailed.after sources built := by
  simp [after, countFailed, h]
  omega

theorem IndexStats.after_of_some (stats : IndexStats) (b : FileId × BuildResult) (built : List (FileId × BuildResult))
    {text : String} (h : source.text? = some text) :
    stats.after (source :: sources) (b :: built) =
      (if b.2.isOk then stats.countIndexed else stats.countFailed).after sources built := by
  cases hok : b.2.isOk <;> simp [after, countFailed, countIndexed, h, hok] <;> omega

/-- Quiet builds that run one after the other come to one call for each text, and none of them comes too late. -/
theorem Build.exists_indexSources (quiet : ∀ file text, (builder file text).Quiet) (h : s.Punctual)
    (few : s.registry.issued + (texts sources).length < UInt64.size - 1) (stats : IndexStats) :
    ∃ l : List Moment,
      let built := l.filterMap Moment.built?
      List.Forall₂ (fun x b => x.1 = b.1 ∧ (builder x.1 x.2).Gives b.2) (texts sources) built ∧
      ∀ next : Except Crash IndexStats → Build α, (indexSources builder next sources stats).Reaches s l
        (next (.ok (stats.after sources built))) (s.performAll (indexing built)) := by
  -- Over the sources, for every service: a call leaves one on which no slot is ahead of the clock, with a stamp less.
  induction sources generalizing s stats with
  | nil => exact ⟨[], .nil, fun next => ⟨rfl, rfl⟩⟩
  | cons source rest ih =>
    cases htext : source.text? with
    | none =>
      have htexts : texts (source :: rest) = texts rest := List.filterMap_cons_none (by rw [htext]; rfl)
      rw [htexts] at few ⊢
      obtain ⟨l, hgives, hreaches⟩ := ih h few stats.countFailed
      refine ⟨l, hgives, fun next => ?_⟩
      rw [IndexStats.after_of_none stats _ htext, indexSources, htext]
      exact hreaches next
    | some text =>
      have htexts : texts (source :: rest) = (source.file, text) :: texts rest :=
        List.filterMap_cons_some (by rw [htext]; rfl)
      rw [htexts] at few ⊢
      rw [List.length_cons] at few
      obtain ⟨result, notes, l₁, hresult, hbuilt, hindex⟩ := (quiet source.file text).exists_index s source.file
      have hissued : (s.perform (.index source.file (.ok result))).registry.issued = s.registry.issued + 1 := by
        rw [Service.perform_index, Service.conclude_issued, Service.begin_issued]
      have hpunctual : (s.perform (.index source.file (.ok result))).Punctual :=
        h.perform (by rw [Service.InTime, hissued]; omega)
      have hcount : stats.count (s.outcome source.file result) =
          if result.isOk then stats.countIndexed else stats.countFailed :=
        Service.count_outcome (h.older (by rw [Service.InTime]; omega) source.file) stats result
      obtain ⟨l₂, hgives, hreaches⟩ :=
        ih hpunctual (by rw [hissued]; omega) (stats.count (s.outcome source.file result))
      refine ⟨l₁ ++ l₂, ?_, fun next => ?_⟩
      · rw [List.filterMap_append, hbuilt]
        exact .cons ⟨rfl, hresult⟩ hgives
      · rw [List.filterMap_append, hbuilt, List.singleton_append, IndexStats.after_of_some stats _ _ htext, ← hcount,
          indexSources, htext]
        exact (hindex _).trans (hreaches next)

theorem Service.get?_performAll_indexing {built : List (FileId × BuildResult)} {f : FileId}
    (h : f ∉ built.map Prod.fst) :
    (s.performAll (indexing built)).registry.get? f = s.registry.get? f := by
  induction built generalizing s with
  | nil => rfl
  | cons b built ih =>
    obtain ⟨hne, hrest⟩ := List.ne_and_not_mem_of_not_mem_cons h
    exact (ih hrest).trans ((s.get?_index b.1 (.ok b.2) ()).2.2 f hne)

/-! ### Whole workspaces -/

/-- The indexing of a workspace by quiet builds comes to the indexing of its texts. -/
theorem Build.exists_indexWorkspace {w : Workspace} {settings : Settings} (folder : w.isFolder [] = true)
    (quiet : ∀ file text, (builder file text).Quiet) (h : s.Punctual)
    (few : s.registry.issued + (texts (w.sources settings)).length < UInt64.size - 1) (root : String) :
    ∃ l : List Moment,
      let built := l.filterMap Moment.built?
      let start : IndexStats := { discovered := (w.sources settings).length }
      List.Forall₂ (fun x b => x.1 = b.1 ∧ (builder x.1 x.2).Gives b.2) (texts (w.sources settings)) built ∧
      ∀ next, (indexWorkspace w root settings builder next).Reaches s l
        (next (.ok (.ok (start.after (w.sources settings) built)))) (s.performAll (indexing built)) := by
  obtain ⟨l, hgives, hreaches⟩ := exists_indexSources quiet h few { discovered := (w.sources settings).length }
  refine ⟨l, hgives, fun next => ?_⟩
  rw [indexWorkspace, if_pos folder]
  exact hreaches fun result => next (.ok result)

/-- Indexing a workspace accounts for all files that are found, in every state of every run in which no entries
    are put past the service, as long as the stamps last. The builder may look at the service and give what it
    likes, but neither crash nor change the service. Then as many files count as failed as are no texts or gave an
    error, as many count as indexed as gave a clean summary, and these are all; other files keep their entries.
    Where the root is no folder that is the answer, and the service stays as it is. -/
theorem workspace_accounted (settings : Settings) (program : Build β)
    (clocked : ∀ m ∈ program.log (.fresh settings), m.Asks Request.Clocked) (s : Service)
    (reached : s ∈ program.states (.fresh settings)) (w : Workspace) (root : String)
    (builder : FileId → String → Build α) (quiet : ∀ file text, (builder file text).Quiet) :
    (w.isFolder [] = true → s.registry.issued + (texts (w.sources settings)).length < UInt64.size - 1 →
      ∃ stats l after,
      (∀ next, (Build.indexWorkspace w root settings builder next).Reaches s l (next (.ok (.ok stats))) after) ∧
      let built := l.filterMap Moment.built?
      List.Forall₂ (fun x b => x.1 = b.1 ∧ (builder x.1 x.2).Gives b.2) (texts (w.sources settings)) built ∧
      stats.discovered = (w.discover settings).length ∧
      stats.failed = (w.sources settings).countP (·.text?.isNone) + built.countP (!·.2.isOk) ∧
      stats.indexed = built.countP (·.2.isOk) ∧
      stats.indexed + stats.failed = stats.discovered ∧
      ∀ f ∉ (w.sources settings).map Source.file, after.registry.get? f = s.registry.get? f) ∧
    (w.isFolder [] = false → ∀ next,
      (Build.indexWorkspace w root settings builder next).Reaches s []
        (next (.error (.io (.noWorkspace root)))) s) := by
  refine ⟨fun folder few => ?_, fun nofolder next => ?_⟩
  · have hin : s.InTime := Nat.lt_of_le_of_lt (Nat.le_add_right _ _) few
    have hpunctual := Build.punctual_of_mem_states clocked reached hin
    obtain ⟨l, hgives, hreaches⟩ := Build.exists_indexWorkspace folder quiet hpunctual few root
    have hfiles : (texts (w.sources settings)).map Prod.fst = (l.filterMap Moment.built?).map Prod.fst := by
      rw [← List.forall₂_eq_eq_eq, List.forall₂_map_left_iff, List.forall₂_map_right_iff]
      exact hgives.imp fun _ _ h => h.1
    refine ⟨_, l, _, hreaches, hgives, List.length_map _, Nat.zero_add _, Nat.zero_add _, ?_, fun f hf => ?_⟩
    · have hall := length_texts (w.sources settings)
      have hbuilt : (texts (w.sources settings)).length = (l.filterMap Moment.built?).length := hgives.length_eq
      have hsplit := length_built (l.filterMap Moment.built?)
      simp only [IndexStats.after]
      omega
    · refine Service.get?_performAll_indexing fun hmem => hf ?_
      rw [← hfiles] at hmem
      exact map_fst_texts_subset hmem
  · rw [Build.indexWorkspace, nofolder, if_neg Bool.false_ne_true]
    exact ⟨rfl, rfl⟩

/-- A client that has a file indexed, forgets another, takes a stamp and purges. -/
def busyProgram : Build Unit :=
  .index ⟨"A.java"⟩ (.pure (.ok {}) ()) fun _ _ =>
  .ask (.forget ⟨"B.java"⟩) fun _ =>
  .ask .nextStamp fun _ =>
  .ask (.purge (.nth 2)) fun _ => .pure (.ok {}) ()

/-- A builder that fails every other time. -/
def fitfulBuilder (_ : FileId) (_ : String) : Build Unit :=
  .ask .currentStamp fun now =>
  .pure (if now.value % 2 = 0 then .ok {} else .error (.parser "out of order")) ()

/-- A workspace with two texts and a source that is none. -/
def mixedWorkspace : Workspace := .ofRoot "ws" (.folder [
  ("A.java", .file "class A \x7b\x7d".toUTF8),
  ("B.java", .file "class B \x7b\x7d".toUTF8),
  ("C.java", .file ⟨#[255]⟩)])

theorem workspace_accounted_fitful :
    ∃ stats l after, (∀ next, (Build.indexWorkspace mixedWorkspace "/ws" .standard fitfulBuilder next).Reaches
        (busyProgram.run (.fresh .standard)).2 l (next (.ok (.ok stats))) after) ∧
      stats.discovered = 3 ∧ stats.indexed + stats.failed = 3 := by
  have clocked : ∀ m ∈ busyProgram.log (.fresh .standard), m.Asks Request.Clocked := by
    simp [busyProgram, Build.log, Build.pure, Moment.Asks, Request.Clocked]
  have quiet : ∀ file text, (fitfulBuilder file text).Quiet := fun file text => ⟨fun s => rfl, fun now => ⟨_, rfl⟩⟩
  have few : (busyProgram.run (.fresh .standard)).2.registry.issued +
      (texts (mixedWorkspace.sources .standard)).length < UInt64.size - 1 := by cbv
  obtain ⟨hfolder, -⟩ := workspace_accounted .standard busyProgram clocked _ (busyProgram.run_mem_states _)
    mixedWorkspace "/ws" fitfulBuilder quiet
  obtain ⟨stats, l, after, hreaches, -, hdiscovered, -, -, hall, -⟩ := hfolder (by cbv) few
  have hfound : (mixedWorkspace.discover .standard).length = 3 := by cbv
  rw [hfound] at hdiscovered
  exact ⟨stats, l, after, hreaches, hdiscovered, hall.trans hdiscovered⟩

end Concordance
