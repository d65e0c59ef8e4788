import Concordance.Proofs.Java.Faults
import Concordance.Proofs.Java.Names
import Concordance.Proofs.Service.Indexing

/-!
The search by name misses no file. A file that was read without errors is a candidate for every name in its
tree until it is forgotten or read again, and so is one of which the errors left something to publish.
-/

namespace Concordance

namespace Service

variable {s : Service} {file : FileId} {e : Entry} {calls : List Call} {history : List (Stamp × Call)}

/-- Failing builds and calls about other files leave an entry alone. -/
theorem Recorded.get?_perform_of_kept (h : s.Recorded history) (hin : s.InTime) {call : Call}
    (he : s.registry.get? file = some e) (hforgets : call.forgets file = false)
    (hclean : (call.ending? file).bind Ending.clean? = none) :
    (s.perform call).registry.get? file = some e := by
  have hlive : s.registry.contains file = true := by rw [Registry.contains, he, Option.isSome_some]
  rw [Punctual.get?_perform h.out hin, hforgets, hlive, he]
  cases hending : call.ending? file with
  | none => rfl
  | some ending =>
    rw [hending, Option.bind_some] at hclean
    rcases ending with crash | (error | summary)
    · rfl
    · rfl
    · cases hclean

theorem Recorded.get?_performAll_of_kept (h : s.Recorded history) (hin : (s.performAll calls).InTime)
    (he : s.registry.get? file = some e)
    (kept : ∀ call ∈ calls, call.forgets file = false ∧ (call.ending? file).bind Ending.clean? = none) :
    (s.performAll calls).registry.get? file = some e := by
  induction calls generalizing s history with
  | nil => exact he
  | cons call calls ih =>
    have hstep : (s.perform call).InTime := hin.of_le (issued_le_performAll _ calls)
    obtain ⟨⟨hforgets, hclean⟩, kept⟩ := List.forall_mem_cons.mp kept
    exact ih (h.perform call hstep) hin
      (h.get?_perform_of_kept (hstep.of_le (issued_le_perform s call)) he hforgets hclean) kept

/-- What a build publishes is the file's entry until the file is forgotten or built again without errors.
    After calls from outside a build without errors is always published. -/
theorem exists_get?_of_published {settings : Settings} {before later : List Call} {result : BuildResult}
    (few : ((fresh settings).performAll (before ++ .index file (.ok result) :: later)).InTime)
    (published : (∃ summary, result = .ok summary) ∨
      ∃ e, (((fresh settings).performAll before).index file (.pure result ())).1.1 = .ok (.publishedPartial e))
    (kept : ∀ call ∈ later, call.forgets file = false ∧ (call.ending? file).bind Ending.clean? = none) :
    ∃ summary live stamp, result.offer? settings live = some summary ∧
      ((fresh settings).performAll (before ++ .index file (.ok result) :: later)).registry.get? file =
        some (.ofSummary summary stamp) := by
  let s := (fresh settings).performAll before
  have hsettings : s.settings = settings := performAll_settings _ _
  have hrun : (fresh settings).performAll (before ++ .index file (.ok result) :: later) =
      (s.perform (.index file (.ok result))).performAll later := List.foldl_append
  rw [hrun] at few ⊢
  have hnext : (s.perform (.index file (.ok result))).InTime := few.of_le (issued_le_performAll _ later)
  have hin : s.InTime := hnext.of_le (issued_le_perform s _)
  have hs : s.Recorded ((fresh settings).timeline before) := (Recorded.fresh settings).performAll before hin
  have hpublished : (s.begin.2.conclude file s.begin.1 (.ok result)).1.isPublished = true := by
    rcases published with ⟨summary, rfl⟩ | ⟨e, he⟩
    · -- No slot is ahead of the clock, so a build without errors is in time.
      exact isPublished_conclude_iff.mpr ⟨rfl, fun slot hslot => hin.lt_upcoming_iff.mpr (hs.out file slot hslot)⟩
    · have he : (s.begin.2.conclude file s.begin.1 (.ok result)).1 = .ok (.publishedPartial e) := he
      rw [he]
      rfl
  obtain ⟨summary, hoffer, hget⟩ := get?_conclude_of_isPublished hpublished
  have hoffer : result.offer? s.settings (s.registry.contains file) = some summary := hoffer
  refine ⟨summary, _, s.begin.1, hsettings ▸ hoffer, ?_⟩
  exact (hs.perform _ hnext).get?_performAll_of_kept few ((hget file).trans (if_pos rfl)) kept

end Service

namespace Java

/-! ### Builds of Java sources -/

variable {parse : String → Option Tree} {extensions : List String} {file : FileId} {source : String} {t : Tree}

/-- Whatever a build has to publish is the summary of the tree. -/
theorem eq_summarize_of_offer {settings : Settings} {live : Bool} {summary : Summary}
    (read : parse source = some t)
    (h : (buildWith parse extensions file source).offer? settings live = some summary) :
    summary = summarize t := by
  rw [buildWith, read] at h
  split at h
  · obtain ⟨-, -, h⟩ := BuildResult.offer?_error_eq_some_iff.mp h
    cases h
  · change (resultOf file t).offer? settings live = some summary at h
    rw [resultOf] at h
    split at h
    · exact (Option.some.inj h).symm
    · obtain ⟨-, -, h⟩ := BuildResult.offer?_error_eq_some_iff.mp h
      exact (Option.some.inj h).symm

/-! ### Whole runs -/

/-- A call of a service for Java sources. -/
inductive Operation where
  | index (file : FileId) (source : String)
  | forget (file : FileId)
  | indexWorkspace (w : Workspace) (root : String)

section

variable (parse : String → Option Tree) (extensions : List String)

def operate (s : Service) : Operation → Service
  | .index file source => (s.index file (.pure (buildWith parse extensions file source) ())).2
  | .forget file => (s.forget file).2
  | .indexWorkspace w root => ((Build.indexWorkspace w root s.settings
      (fun file source => .pure (buildWith parse extensions file source) ())
      fun _ => .pure (.ok {}) ()).run s).2

def operateAll (s : Service) (operations : List Operation) : Service :=
  operations.foldl (operate parse extensions) s

/-- The calls about single files that a call comes to. -/
def Operation.calls (settings : Settings) : Operation → List Call
  | .index file source => [.index file (.ok (buildWith parse extensions file source))]
  | .forget file => [.forget file]
  | .indexWorkspace w _ =>
    if w.isFolder [] then readings (buildWith parse extensions) (w.sources settings) else []

theorem operate_eq (s : Service) (operation : Operation) :
    operate parse extensions s operation = s.performAll (operation.calls parse extensions s.settings) := by
  cases operation with
  | index => rfl
  | forget => rfl
  | indexWorkspace w root =>
    rw [operate, Build.indexWorkspace, Operation.calls]
    split
    · exact congrArg Prod.snd (Build.run_indexSources s (buildWith parse extensions) (w.sources s.settings)
        { discovered := (w.sources s.settings).length })
    · rfl

theorem operateAll_eq (s : Service) (operations : List Operation) :
    operateAll parse extensions s operations =
      s.performAll (operations.flatMap (Operation.calls parse extensions s.settings)) := by
  induction operations generalizing s with
  | nil => rfl
  | cons operation rest ih =>
    rw [operateAll, List.foldl_cons, ← operateAll, ih, operate_eq, Service.performAll_settings,
      List.flatMap_cons, Service.performAll, Service.performAll, Service.performAll, List.foldl_append]

end

/-- A file that was read into a tree and published is a candidate for every name outside package
    declarations in the tree, for every name it declares and for every type at its top, whatever is called
    and fails after that, until the file is forgotten or read again without errors. A build without errors is
    always published; one with errors is when nothing better is known of the file and the settings ask for it. -/
theorem candidates_complete (parse : String → Option Tree)
    (distinct : ∀ source t, parse source = some t → t.root.DistinctIds) (extensions : List String)
    (settings : Settings) (operations : List Operation)
    (few : (operateAll parse extensions (.fresh settings) operations).InTime)
    (file : FileId) (source : String) (t : Tree) (read : parse source = some t) (before later : List Call)
    (calls : operations.flatMap (Operation.calls parse extensions settings) =
      before ++ .index file (.ok (buildWith parse extensions file source)) :: later)
    (published : (∃ summary, buildWith parse extensions file source = .ok summary) ∨
      ∃ e, (((Service.fresh settings).performAll before).index file
        (.pure (buildWith parse extensions file source) ())).1.1 = .ok (.publishedPartial e))
    (kept : ∀ call ∈ later, call.forgets file = false ∧ (call.ending? file).bind Ending.clean? = none) :
    let r := (operateAll parse extensions (.fresh settings) operations).registry
    (∀ c : Cursor, c.In t.root → c.Outside → c.IsIdentifier → file ∈ r.candidates (t.text c.node)) ∧
    (∀ name ∈ (summarize t).declared, file ∈ r.candidates name) ∧
    (∀ type ∈ (summarize t).types, file ∈ r.candidates type.name) := by
  intro r
  have hrun : operateAll parse extensions (.fresh settings) operations = (Service.fresh settings).performAll
      (before ++ .index file (.ok (buildWith parse extensions file source)) :: later) := by
    rw [operateAll_eq]
    exact congrArg (Service.fresh settings).performAll calls
  rw [hrun] at few
  obtain ⟨summary, live, stamp, hoffer, hentry⟩ := Service.exists_get?_of_published few published kept
  obtain rfl := eq_summarize_of_offer read hoffer
  have found : ∀ {name}, name ∈ (summarize t).declared ∨ name ∈ (summarize t).referenced ∨
      (∃ type ∈ (summarize t).types, type.name = name) → file ∈ r.candidates name := by
    intro name hname
    exact Registry.mem_candidates.mpr ⟨_, hrun ▸ hentry, Entry.mentions_ofSummary.mpr hname⟩
  refine ⟨fun c hin hout hidentifier => ?_, fun name hname => found (.inl hname),
    fun type htype => found (.inr (.inr ⟨type, htype, rfl⟩))⟩
  exact found ((mem_summarize_of_identifier (distinct source t read) hin hout hidentifier).imp id .inl)

/-- The tree of `x #`, of which the second half is an error. -/
def brokenTree : Tree where
  source := "x #"
  root :=
    .mk { id := 0, kind := .program, hasError := true } [
      .mk { id := 1, kind := .identifier, stop := 1 } [],
      .mk { id := 2, kind := .error, start := 2, stop := 3, hasError := true } []]

/-- A parser for two sources. -/
def parseSample (source : String) : Option Tree := [fieldTree, brokenTree].find? fun t => t.source = source

theorem distinctIds_of_parseSample (source : String) (t : Tree) (h : parseSample source = some t) :
    t.root.DistinctIds := by
  have hmem : t ∈ [fieldTree, brokenTree] := List.mem_of_find?_eq_some h
  rw [List.mem_pair] at hmem
  rcases hmem with rfl | rfl <;> decide

/-- What was read without errors outlasts what was not, which is kept where there is nothing better. -/
theorem candidates_complete_sample :
    let settings := { Settings.standard with publishPartialOnFirstFailure := true }
    let operations : List Operation := [.index ⟨"B.java"⟩ "x #", .index ⟨"A.java"⟩ "class A { B b; }",
      .index ⟨"A.java"⟩ "x #", .forget ⟨"C.java"⟩]
    let r := (operateAll parseSample ["java"] (.fresh settings) operations).registry
    ⟨"A.java"⟩ ∈ r.candidates "b" ∧ ⟨"B.java"⟩ ∈ r.candidates "x" := by
  intro settings operations r
  let reading (file : FileId) (source : String) : Call :=
    .index file (.ok (buildWith parseSample ["java"] file source))
  have few : (operateAll parseSample ["java"] (.fresh settings) operations).InTime := by
    have hcalls : operateAll parseSample ["java"] (.fresh settings) operations = (Service.fresh settings).performAll
        [reading ⟨"B.java"⟩ "x #", reading ⟨"A.java"⟩ "class A { B b; }", reading ⟨"A.java"⟩ "x #",
          .forget ⟨"C.java"⟩] := rfl
    rw [hcalls, Service.InTime, Service.issued_performAll (by simp [reading])]
    decide
  have clean : buildWith parseSample ["java"] ⟨"A.java"⟩ "class A { B b; }" = .ok (summarize fieldTree) :=
    buildWith_of_clean (by cbv) (by cbv) (by cbv)
  have broken (file : FileId) (supported : Path.hasExtension ["java"] file.text = true) :
      buildWith parseSample ["java"] file "x #" =
        .error (.malformed file "unexpected syntax at line 1" (summarize brokenTree)) := by
    have herror : firstError? brokenTree =
        some (.mk { id := 2, kind := .error, start := 2, stop := 3, hasError := true } []) := by cbv
    exact buildWith_of_broken supported (by cbv) herror
  constructor
  · have h := candidates_complete parseSample distinctIds_of_parseSample ["java"] settings operations few
      ⟨"A.java"⟩ "class A { B b; }" fieldTree (by cbv) [reading ⟨"B.java"⟩ "x #"]
      [reading ⟨"A.java"⟩ "x #", .forget ⟨"C.java"⟩] rfl (.inl ⟨_, clean⟩)
      (by simp [reading, Call.forgets, Call.ending?, broken ⟨"A.java"⟩ (by cbv), Ending.clean?])
    exact h.2.1 "b" (by cbv)
  · have h := candidates_complete parseSample distinctIds_of_parseSample ["java"] settings operations few
      ⟨"B.java"⟩ "x #" brokenTree (by cbv) []
      [reading ⟨"A.java"⟩ "class A { B b; }", reading ⟨"A.java"⟩ "x #", .forget ⟨"C.java"⟩] rfl
      (.inr ⟨_, by rw [broken ⟨"B.java"⟩ (by cbv)]; rfl⟩) (by simp [reading, Call.forgets, Call.ending?])
    let x : Node := .mk { id := 1, kind := .identifier, stop := 1 } []
    let right : List Node := [.mk { id := 2, kind := .error, start := 2, stop := 3, hasError := true } []]
    have hin : ((Cursor.atRoot brokenTree.root).child x right).In brokenTree.root :=
      .child .top (show brokenTree.root.children = [] ++ x :: right from rfl)
    have hout : ((Cursor.atRoot brokenTree.root).child x right).Outside :=
      (Cursor.outside_atRoot brokenTree.root).child (by decide)
    have hx := h.1 _ hin hout (.inl rfl)
    have htext : brokenTree.text x = "x" := by cbv
    rwa [Cursor.node_child, htext] at hx

end Java

end Concordance
