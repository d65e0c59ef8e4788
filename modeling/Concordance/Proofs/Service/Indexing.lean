import Mathlib.Tactic.Set
import Concordance.Proofs.Service.History
import Concordance.Service.Indexing

/-! Indexing a whole workspace with a builder that makes no calls. The run is that of one call for each text,
    and where no two sources have one file the count tells what is in the registry at its end. -/

namespace Concordance

variable {result : FileId → String → BuildResult} {source : Source} {sources rest : List Source} {s : Service}
  {file f : FileId} {stats : IndexStats}

/-- The calls that index the sources that are texts. -/
def readings (result : FileId → String → BuildResult) (sources : List Source) : List Call :=
  sources.filterMap fun source => source.text?.map fun text =>
    .index source.file (.ok (result source.file text))

/-- Whether a source is a text that builds without errors. -/
def Source.isClean (result : FileId → String → BuildResult) (source : Source) : Bool :=
  source.text?.any fun text => (result source.file text).isOk

namespace Service

/-- What comes of a result that a service gets for a file. -/
def outcome (s : Service) (file : FileId) (result : BuildResult) : Outcome :=
  (publish s.settings s.begin.2.registry file s.begin.1 result).1

/-- The count of what comes of some sources. -/
def tally (s : Service) (result : FileId → String → BuildResult) : List Source → IndexStats → IndexStats
  | [], stats => stats
  | source :: rest, stats => match source.text? with
    | none => s.tally result rest stats.countFailed
    | some text => (s.perform (.index source.file (.ok (result source.file text)))).tally result rest
        (stats.count (s.outcome source.file (result source.file text)))

end Service

theorem Build.run_indexSources {next : Except Crash IndexStats → Build Unit} (s : Service)
    (result : FileId → String → BuildResult) (sources : List Source) (stats : IndexStats) :
    (indexSources (fun file text => .pure (result file text) ()) next sources stats).run s =
      (next (.ok (s.tally result sources stats))).run (s.performAll (readings result sources)) := by
  induction sources generalizing s stats with
  | nil => rfl
  | cons source rest ih =>
    cases htext : source.text? with
    | none =>
      simp only [indexSources, Service.tally, readings, List.filterMap_cons, htext]
      exact ih s stats.countFailed
    | some text =>
      simp only [indexSources, Service.tally, readings, List.filterMap_cons, htext]
      exact ih _ _

namespace Service

/-- A result that does not come too late counts as it is. -/
theorem count_outcome (h : s.begin.2.registry.Older file s.begin.1) (stats : IndexStats) (result : BuildResult) :
    stats.count (s.outcome file result) = if result.isOk then stats.countIndexed else stats.countFailed := by
  rw [outcome]
  cases hoffer : result.offer? s.settings (s.begin.2.registry.contains file) with
  | none =>
    obtain ⟨e, rfl, hpublish⟩ := publish_of_none s.begin.1 hoffer
    rw [hpublish, unpublished]
    split <;> rfl
  | some summary =>
    rw [publish_of_offer hoffer h]
    cases result with
    | ok clean =>
      rw [published]
      split <;> rfl
    | error e => rfl

/-! ### Files that the service knows nothing of -/

theorem older_of_none {t : Stamp} (h : s.registry.slots[file]? = none) : s.begin.2.registry.Older file t :=
  fun _ hslot => nomatch h.symm.trans hslot

/-- Indexing a file that nothing is known of gives it an entry if the build is ok, and concerns no other file. -/
theorem perform_index_of_none (h : s.registry.slots[file]? = none) (result : BuildResult) :
    (result.isOk = true → ((s.perform (.index file (.ok result))).registry.get? file).isSome = true) ∧
    ∀ f ≠ file, (s.perform (.index file (.ok result))).registry.get? f = s.registry.get? f ∧
      (s.registry.slots[f]? = none → (s.perform (.index file (.ok result))).registry.slots[f]? = none) := by
  rw [perform_index]
  refine ⟨fun hok => ?_, fun f hf => ⟨?_, fun hnone => ?_⟩⟩
  · rw [get?_conclude_of_older (older_of_none h), if_pos rfl]
    cases result with
    | ok summary => rfl
    | error e => exact nomatch hok
  · rw [get?_conclude_of_older (older_of_none h), if_neg hf]
    rfl
  · obtain ⟨r, -, hslots, hr⟩ := exists_conclude_snd s.begin.2 file s.begin.1 (.ok result)
    rw [hr]
    refine Option.eq_none_iff_forall_ne_some.mpr fun slot hslot => ?_
    have hold : r.slots[f]? = some slot := slots_of_retire hslot
    rw [hslots f fun heq => absurd heq hf] at hold
    exact nomatch hnone.symm.trans hold

/-- After a source has been indexed nothing is known of those that come after it. -/
theorem untouched_rest (distinct : ((source :: rest).map Source.file).Nodup)
    (untouched : ∀ x ∈ source :: rest, s.registry.slots[x.file]? = none) (outcome : BuildResult) :
    ∀ x ∈ rest, (s.perform (.index source.file (.ok outcome))).registry.slots[x.file]? = none := by
  obtain ⟨hsource, hrest⟩ := List.forall_mem_cons.mp untouched
  intro x hx
  have hne : x.file ≠ source.file := fun heq =>
    (List.nodup_cons.mp distinct).1 (List.mem_map.mpr ⟨x, hx, heq⟩)
  exact ((perform_index_of_none hsource outcome).2 x.file hne).2 (hrest x hx)

/-! ### Whole workspaces -/

theorem tally_of_distinct (distinct : (sources.map Source.file).Nodup)
    (untouched : ∀ x ∈ sources, s.registry.slots[x.file]? = none) :
    s.tally result sources stats =
      { discovered := stats.discovered
        indexed := stats.indexed + sources.countP (Source.isClean result)
        failed := stats.failed + sources.countP fun x => !x.isClean result } := by
  induction sources generalizing s stats with
  | nil => rfl
  | cons source rest ih =>
    have hdistinct := (List.nodup_cons.mp distinct).2
    obtain ⟨hsource, hrest⟩ := List.forall_mem_cons.mp untouched
    cases htext : source.text? with
    | none =>
      have hclean : source.isClean result = false := by rw [Source.isClean, htext, Option.any_none]
      simp only [tally, htext]
      rw [ih hdistinct hrest]
      simp [hclean, IndexStats.countFailed, Nat.add_assoc, Nat.add_comm 1]
    | some text =>
      have hclean : source.isClean result = (result source.file text).isOk := by
        rw [Source.isClean, htext, Option.any_some]
      simp only [tally, htext]
      rw [ih hdistinct (untouched_rest distinct untouched _), count_outcome (older_of_none hsource)]
      cases hok : (result source.file text).isOk <;>
        simp [hclean, hok, IndexStats.countFailed, IndexStats.countIndexed, Nat.add_assoc, Nat.add_comm 1]

/-- The sources that are clean end up with entries, and nothing becomes of other files. -/
theorem get?_performAll_readings (distinct : (sources.map Source.file).Nodup)
    (untouched : ∀ x ∈ sources, s.registry.slots[x.file]? = none) :
    (∀ x ∈ sources, x.isClean result = true →
      ((s.performAll (readings result sources)).registry.get? x.file).isSome = true) ∧
    ∀ f ∉ sources.map Source.file, (s.performAll (readings result sources)).registry.get? f = s.registry.get? f := by
  induction sources generalizing s with
  | nil => exact ⟨nofun, fun _ _ => rfl⟩
  | cons source rest ih =>
    obtain ⟨hnew, hdistinct⟩ := List.nodup_cons.mp distinct
    obtain ⟨hsource, hrest⟩ := List.forall_mem_cons.mp untouched
    rw [List.forall_mem_cons]
    cases htext : source.text? with
    | none =>
      have hcalls : readings result (source :: rest) = readings result rest := by
        rw [readings, List.filterMap_cons, htext]
        rfl
      obtain ⟨hclean, hother⟩ := ih hdistinct hrest
      rw [hcalls]
      refine ⟨⟨fun h => ?_, hclean⟩, fun f hf => hother f (mt (List.mem_cons_of_mem _) hf)⟩
      rw [Source.isClean, htext] at h
      exact nomatch h
    | some text =>
      have hcalls : readings result (source :: rest) =
          .index source.file (.ok (result source.file text)) :: readings result rest := by
        rw [readings, List.filterMap_cons, htext]
        rfl
      obtain ⟨hlive, hframe⟩ := perform_index_of_none hsource (result source.file text)
      obtain ⟨hclean, hother⟩ := ih hdistinct (untouched_rest distinct untouched (result source.file text))
      rw [hcalls]
      refine ⟨⟨fun h => ?_, hclean⟩, fun f hf => ?_⟩
      · rw [Source.isClean, htext, Option.any_some] at h
        exact (congrArg Option.isSome (hother source.file hnew)).trans (hlive h)
      · obtain ⟨hne, hf⟩ := not_or.mp (mt List.mem_cons.mpr hf)
        exact (hother f hf).trans (hframe f hne).1

/-- Where no two sources have one file, the entries of clean sources are as many as these sources. -/
theorem countP_files_readings (settings : Settings) (distinct : (sources.map Source.file).Nodup) :
    ((fresh settings).performAll (readings result sources)).registry.files.countP
        (fun f => sources.any fun x => x.file = f && x.isClean result) = sources.countP (Source.isClean result) := by
  set r := ((fresh settings).performAll (readings result sources)).registry
  have hlive : ∀ x ∈ sources, x.isClean result = true → (r.get? x.file).isSome = true :=
    (get?_performAll_readings distinct fun _ _ => rfl).1
  have hfiles : r.files.Nodup := r.files_eq ▸ r.nodup_snapshot
  have hclean : ((sources.filter (Source.isClean result)).map Source.file).Nodup :=
    distinct.sublist (List.filter_sublist.map _)
  rw [List.countP_eq_length_filter, List.countP_eq_length_filter, ← List.length_map Source.file]
  refine ((List.perm_ext_iff_of_nodup (hfiles.filter _) hclean).mpr fun f => ?_).length_eq
  simp only [List.mem_filter, List.mem_map, List.any_eq_true, Bool.and_eq_true, decide_eq_true_iff]
  constructor
  · rintro ⟨-, x, hx, rfl, hok⟩
    exact ⟨x, ⟨hx, hok⟩, rfl⟩
  · rintro ⟨x, ⟨hx, hok⟩, rfl⟩
    exact ⟨Registry.mem_files.mpr (hlive x hx hok), x, hx, rfl, hok⟩

end Service

end Concordance
