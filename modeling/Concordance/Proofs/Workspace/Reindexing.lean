import Concordance.Proofs.Symbols.Sealing
import Concordance.Proofs.Workspace.Accounting

/-! Indexing a workspace again changes nothing but stamps. Some builds make of a file's content what the last clean
    one of them gave; without one the file keeps what it has, and if that is nothing it gets what the first failed
    build recovered (`settle`). What was settled stays so when the same builds come again. -/

namespace Concordance

variable {β : Type}

/-- The content of a file, if it has an entry. -/
def Service.content? (s : Service) (file : FileId) : Option Summary := (s.registry.get? file).map Entry.content

/-- What builds of a file that end so make of its content. -/
def settle (settings : Settings) (endings : List Ending) (current : Option Summary) : Option Summary :=
  ((endings.filterMap Ending.clean?).getLast?.map Summary.sealed).or
    (current.or (if settings.publishPartialOnFirstFailure then
      (endings.filterMap Ending.recovered?).head?.map Summary.sealed else none))

variable {settings : Settings} {endings : List Ending} {current : Option Summary} {s : Service} {call : Call}
  {calls : List Call} {f : FileId} {result : FileId → String → BuildResult} {built : List (FileId × BuildResult)}

/-! ### What settles -/

@[simp] theorem settle_nil : settle settings [] current = current := by simp [settle]

/-- The first build offers what it has; then it is as if the others came to what is there by then. -/
theorem settle_cons (ending : Ending) :
    settle settings (ending :: endings) current =
      settle settings endings (((ending.offer? settings current.isSome).map Summary.sealed).or current) := by
  simp only [settle, List.filterMap_cons]
  generalize endings.filterMap Ending.clean? = clean, endings.filterMap Ending.recovered? = recovered
  rcases ending with crash | (e | summary)
  · rfl
  · -- A failed build counts if it is the first that has something to offer a file without content.
    cases current with
    | some content => simp [Ending.clean?, Ending.offer?, BuildResult.offer?]
    | none =>
      cases hp : settings.publishPartialOnFirstFailure with
      | false => simp [Ending.clean?, Ending.offer?, BuildResult.offer?, hp]
      | true =>
        cases he : e.recovered? <;>
          simp [Ending.clean?, Ending.recovered?, Ending.offer?, BuildResult.offer?, hp, he]
  · cases hlast : clean.getLast? <;>
      simp [Ending.clean?, Ending.recovered?, Ending.offer?, BuildResult.offer?, List.getLast?_cons, hlast]

theorem settle_settle :
    settle settings endings (settle settings endings current) = settle settings endings current := by
  unfold settle
  generalize (endings.filterMap Ending.clean?).getLast?.map Summary.sealed = clean,
    (if settings.publishPartialOnFirstFailure then (endings.filterMap Ending.recovered?).head?.map Summary.sealed
      else none) = recovered
  cases clean <;> cases current <;> cases recovered <;> rfl

/-! ### What calls settle -/

namespace Service

/-- A build offers what it has, and otherwise the file keeps what it has. -/
theorem Punctual.content?_perform (h : s.Punctual) (hin : s.InTime) (hf : call.forgets f = false) :
    (s.perform call).content? f =
      (((call.ending? f).bind (·.offer? s.settings (s.content? f).isSome)).map Summary.sealed).or (s.content? f) := by
  rw [content?, h.get?_perform hin, hf, Registry.contains, content?, Option.isSome_map]
  cases call.ending? f with
  | none => rfl
  | some ending => cases hoffer : ending.offer? s.settings (s.registry.get? f).isSome <;> simp [hoffer]

/-- Calls that do not forget a file settle its content. -/
theorem Punctual.content?_performAll (h : s.Punctual) (hin : (s.performAll calls).InTime)
    (hf : ∀ call ∈ calls, call.forgets f = false) :
    (s.performAll calls).content? f = settle s.settings (calls.filterMap (Call.ending? f)) (s.content? f) := by
  induction calls generalizing s with
  | nil => exact settle_nil.symm
  | cons call calls ih =>
    obtain ⟨hcall, hcalls⟩ := List.forall_mem_cons.mp hf
    have hstep : (s.perform call).InTime := hin.of_le (issued_le_performAll _ calls)
    have hrest := ih (h.perform hstep) hin hcalls
    rw [perform_settings, h.content?_perform (hstep.of_le (issued_le_perform s call)) hcall] at hrest
    refine hrest.trans ?_
    cases hending : call.ending? f with
    | none => rw [List.filterMap_cons_none hending, Option.bind_none, Option.map_none, Option.none_or]
    | some ending => rw [List.filterMap_cons_some hending, settle_cons, Option.bind_some]

/-- Calls that do not forget a file leave its content as it is when they are all made again. -/
theorem Punctual.content?_again (h : s.Punctual) (hin : ((s.performAll calls).performAll calls).InTime)
    (hf : ∀ call ∈ calls, call.forgets f = false) :
    ((s.performAll calls).performAll calls).content? f = (s.performAll calls).content? f := by
  have hfirst : (s.performAll calls).InTime := hin.of_le (issued_le_performAll _ calls)
  rw [(h.performAll hfirst).content?_performAll hin hf, h.content?_performAll hfirst hf, performAll_settings,
    settle_settle]

end Service

theorem forgets_of_mem_indexing (h : call ∈ indexing built) : call.forgets f = false := by
  obtain ⟨b, -, rfl⟩ := List.mem_map.mp h
  rfl

theorem Service.issued_performAll_indexing (s : Service) (built : List (FileId × BuildResult)) :
    (s.performAll (indexing built)).registry.issued = s.registry.issued + built.length := by
  rw [issued_performAll, indexing, List.length_map]
  intro call hcall
  obtain ⟨b, -, rfl⟩ := List.mem_map.mp hcall
  exact nofun

/-! ### Whole workspaces -/

theorem Build.Gives.eq_of_pure {result result' : BuildResult} (h : (pure result ()).Gives result') :
    result' = result := by
  obtain ⟨s, notes, h⟩ := h
  cases h
  rfl

/-- The results of a builder that goes by the file and its text. -/
theorem results_of_gives {read : List (FileId × String)}
    (h : List.Forall₂ (fun x b => x.1 = b.1 ∧ (Build.pure (result x.1 x.2) ()).Gives b.2) read built) :
    built = read.map fun x => (x.1, result x.1 x.2) := by
  induction h with
  | nil => rfl
  | cons hb _ ih =>
    obtain ⟨hfile, hgives⟩ := hb
    rw [ih, List.map_cons, ← hgives.eq_of_pure, hfile]

/-- A builder that goes by the file and its text has the same done and counted wherever it starts. -/
theorem Build.run_indexWorkspace_of_punctual {w : Workspace} (folder : w.isFolder [] = true) (h : s.Punctual)
    (few : s.registry.issued + (texts (w.sources settings)).length < UInt64.size - 1) (root : String)
    (result : FileId → String → BuildResult) (next : Except ServiceError (Except Crash IndexStats) → Build Unit) :
    let built := (texts (w.sources settings)).map fun x => (x.1, result x.1 x.2)
    let start : IndexStats := { discovered := (w.sources settings).length }
    (indexWorkspace w root settings (fun file text => pure (result file text) ()) next).run s =
      (next (.ok (.ok (start.after (w.sources settings) built)))).run (s.performAll (indexing built)) := by
  have quiet := fun file text => quiet_pure (result file text) ()
  obtain ⟨l, hgives, hreaches⟩ := exists_indexWorkspace folder quiet h few root
  rw [← results_of_gives hgives]
  exact (hreaches next).run

/-- Indexing a workspace twice in a row counts the same both times, and the second time leaves the same files with
    entries, and these with the same content. It holds in every state of every run in which no entries are put past
    the service, for every builder that goes by the file and its text, as long as the stamps last. -/
theorem reindexing_settled (settings : Settings) (program : Build β)
    (clocked : ∀ m ∈ program.log (.fresh settings), m.Asks Request.Clocked) (s : Service)
    (reached : s ∈ program.states (.fresh settings)) (w : Workspace) (root : String) (folder : w.isFolder [] = true)
    (result : FileId → String → BuildResult)
    (few : s.registry.issued + 2 * (texts (w.sources settings)).length < UInt64.size - 1) :
    let index := Build.indexWorkspace w root settings fun file text => Build.pure (result file text) ()
    ∃ stats first second, (∀ next, (index next).run s = (next (.ok (.ok stats))).run first) ∧
      (∀ next, (index next).run first = (next (.ok (.ok stats))).run second) ∧
      ∀ f, (second.registry.get? f).map Entry.content = (first.registry.get? f).map Entry.content := by
  intro index
  have hin : s.InTime := Nat.lt_of_le_of_lt (Nat.le_add_right _ _) few
  have hpunctual := Build.punctual_of_mem_states clocked reached hin
  let calls := indexing ((texts (w.sources settings)).map fun x => (x.1, result x.1 x.2))
  have hissued : ∀ t : Service,
      (t.performAll calls).registry.issued = t.registry.issued + (texts (w.sources settings)).length := by
    intro t
    rw [Service.issued_performAll_indexing, List.length_map]
  have hfew : s.registry.issued + (texts (w.sources settings)).length < UInt64.size - 1 := by omega
  have hfew' : (s.performAll calls).registry.issued + (texts (w.sources settings)).length < UInt64.size - 1 := by
    rw [hissued]
    omega
  have hfirst : (s.performAll calls).InTime := Nat.lt_of_le_of_lt (Nat.le_add_right _ _) hfew'
  have hsecond : ((s.performAll calls).performAll calls).InTime := by rwa [Service.InTime, hissued]
  have hrun := Build.run_indexWorkspace_of_punctual folder hpunctual hfew root result
  have hrun' := Build.run_indexWorkspace_of_punctual folder (hpunctual.performAll hfirst) hfew' root result
  exact ⟨_, s.performAll calls, (s.performAll calls).performAll calls, hrun, hrun', fun f =>
    hpunctual.content?_again hsecond fun call => forgets_of_mem_indexing⟩

/-- A file with errors that was published in part the first time keeps what it has the second time. -/
theorem reindexing_settled_partial :
    let settings := { Settings.standard with publishPartialOnFirstFailure := true }
    let result : FileId → String → BuildResult := fun file _ =>
      .error (.malformed file "" (Summary.empty.declare "A"))
    let index := Build.indexWorkspace mixedWorkspace "/ws" settings fun file text => Build.pure (result file text) ()
    ∃ stats first second, (∀ next, (index next).run (busyProgram.run (.fresh settings)).2 =
        (next (.ok (.ok stats))).run first) ∧
      (∀ next, (index next).run first = (next (.ok (.ok stats))).run second) ∧
      ∀ f, (second.registry.get? f).map Entry.content = (first.registry.get? f).map Entry.content := by
  intro settings result index
  have clocked : ∀ m ∈ busyProgram.log (.fresh settings), m.Asks Request.Clocked := by
    simp [busyProgram, Build.log, Build.pure, Moment.Asks, Request.Clocked]
  have few : (busyProgram.run (.fresh settings)).2.registry.issued +
      2 * (texts (mixedWorkspace.sources settings)).length < UInt64.size - 1 := by cbv
  exact reindexing_settled settings busyProgram clocked _ (busyProgram.run_mem_states _) mixedWorkspace "/ws" (by cbv)
    result few

end Concordance
