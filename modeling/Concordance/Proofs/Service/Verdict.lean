import Mathlib
import Concordance.Proofs.Service.Residue
import Concordance.Proofs.Service.Views

/-! What comes of one index call, and what it leaves alone. In every state of a run the tombstones are no newer
    than the clock. So a build that makes no calls can only come too late for an entry that was put ahead of the
    clock: what comes of it is settled by the file's entry, by the settings and by its own result
    (`BuildResult.verdict`), and it concerns no other file. -/

namespace Concordance

/-- What comes of a result, where the file has that entry. A clean build is too late for an entry that is as
    new. A failed build leaves an entry alone; without one it may have recovered something to begin with. -/
def BuildResult.verdict (settings : Settings) (current : Option Entry) (stamp : Stamp) : BuildResult → Outcome
  | .ok _ => match current with
    | none => .inserted
    | some entry => if stamp ≤ entry.stamp then .stale else .replaced
  | .error e => match current with
    | some _ => .retainedPrevious e
    | none =>
      if settings.publishPartialOnFirstFailure = true ∧ e.recovered?.isSome = true then .publishedPartial e
      else .rejected e

/-- The summary that a result holds, be it clean or recovered. -/
def BuildResult.summary? : BuildResult → Option Summary
  | .ok summary => some summary
  | .error e => e.recovered?

theorem BuildResult.summary?_of_offer {settings : Settings} {live : Bool} {result : BuildResult} {summary : Summary}
    (h : result.offer? settings live = some summary) : result.summary? = some summary := by
  cases result with
  | ok clean => exact h
  | error e => exact (offer?_error_eq_some_iff.mp h).2.2

variable {α : Type} {s : Service} {file : FileId} {stamp : Stamp} {settings : Settings}

/-! ### The states of a run -/

/-- Some trace leads to each state that a service goes through while a build runs. -/
theorem Build.exists_trace_of_mem_states {s₀ : Service} {build : Build α} (h : s ∈ build.states s₀) :
    ∃ l o, Trace [] s₀ l o s := by
  obtain ⟨l, o, -, htrace⟩ := trace_of_mem_states h
  exact ⟨l, o, htrace⟩

namespace Service

/-- Where the records account for the tombstones, the slot of a file is older than the next build if its entry
    is. -/
theorem Accounted.older_begin_iff (h : s.Accounted) (hin : s.InTime) :
    s.begin.2.registry.Older file s.begin.1 ↔ ∀ e, s.registry.get? file = some e → e.stamp < s.begin.1 := by
  constructor
  · exact fun hold e he => hold _ (Registry.get?_eq_some_iff.mp he)
  · intro hlive slot hslot
    have hslot : s.registry.slots[file]? = some slot := hslot
    cases slot with
    | live e => exact hlive e (Registry.get?_eq_some_iff.mpr hslot)
    | forgotten t => exact hin.lt_upcoming_iff.mpr (h.out _ (h.tracked file t hslot))

/-! ### One build -/

/-- Where the file's slot is older exactly if its entry is, the verdict is what comes of a result. -/
theorem publish_eq_verdict {r : Registry} (result : BuildResult)
    (hold : r.Older file stamp ↔ ∀ e, r.get? file = some e → e.stamp < stamp) :
    (publish settings r file stamp result).1 = result.verdict settings (r.get? file) stamp := by
  cases hentry : r.get? file with
  | none =>
    have hcontains : r.contains file = false := Registry.contains_eq_false_iff.mpr hentry
    have hold : r.Older file stamp := hold.mpr (by simp [hentry])
    cases ho : result.offer? settings (r.contains file) with
    | some summary =>
      rw [publish_of_offer ho hold, hcontains]
      cases result with
      | ok clean => rfl
      | error e =>
        obtain ⟨-, hpartial, hrecovered⟩ := BuildResult.offer?_error_eq_some_iff.mp ho
        simp [published, BuildResult.verdict, hpartial, hrecovered]
    | none =>
      obtain ⟨e, rfl, hpublish⟩ := publish_of_none stamp ho
      rw [hpublish, hcontains]
      have hnothing : ¬(settings.publishPartialOnFirstFailure = true ∧ e.recovered?.isSome = true) := fun h => by
        simpa [ho] using BuildResult.isSome_offer?_error.mpr ⟨hcontains, h⟩
      simp [unpublished, BuildResult.verdict, hnothing]
  | some entry =>
    have hcontains : r.contains file = true := by rw [Registry.contains, hentry, Option.isSome_some]
    have hold : r.Older file stamp ↔ ¬stamp ≤ entry.stamp := by simp [hold, hentry, Std.not_le]
    cases result with
    | ok clean =>
      have ho : BuildResult.offer? settings (r.contains file) (.ok clean) = some clean := rfl
      by_cases hle : stamp ≤ entry.stamp
      · rw [publish_of_stale ho (mt hold.mp (not_not.mpr hle)), BuildResult.verdict, if_pos hle]
      · rw [publish_of_offer ho (hold.mpr hle), hcontains, BuildResult.verdict, if_neg hle]
        rfl
    | error e =>
      have ho : BuildResult.offer? settings (r.contains file) (.error e) = none := by
        simp [BuildResult.offer?, hcontains]
      obtain ⟨e', he, hpublish⟩ := publish_of_none stamp ho
      obtain rfl := Except.error.inj he
      rw [hpublish, hcontains]
      rfl

/-- What comes of a build that makes no calls. -/
theorem Accounted.index_fst (h : s.Accounted) (hin : s.InTime) (ending : Ending) (notes : α) :
    (s.index file (.finish ending notes)).1.1 =
      ending.map fun result => result.verdict s.settings (s.registry.get? file) s.begin.1 := by
  cases ending with
  | error crash => rfl
  | ok result => exact congrArg Except.ok (publish_eq_verdict result (h.older_begin_iff hin))

/-- A build that makes no calls publishes at most its own summary, and that for its own file. -/
theorem get?_index (s : Service) (file : FileId) (ending : Ending) (notes : α) :
    let call := s.index file (.finish ending notes)
    (call.1.1.isPublished = true → ∃ result summary, ending = .ok result ∧ result.summary? = some summary ∧
      call.2.registry.get? file = some (.ofSummary summary s.begin.1)) ∧
    (call.1.1.isPublished = false → call.2.registry.get? file = s.registry.get? file) ∧
    ∀ f ≠ file, call.2.registry.get? f = s.registry.get? f := by
  intro call
  cases hp : call.1.1.isPublished with
  | true =>
    obtain ⟨summary, ho, hget⟩ := get?_conclude_of_isPublished hp
    refine ⟨fun _ => ?_, nofun, fun f hf => (hget f).trans (if_neg hf)⟩
    cases ending with
    | error crash => cases ho
    | ok result => exact ⟨result, summary, rfl, BuildResult.summary?_of_offer ho, (hget file).trans (if_pos rfl)⟩
  | false =>
    have hget : ∀ f, call.2.registry.get? f = s.registry.get? f := fun f =>
      (congrArg (fun s' : Service => s'.registry.get? f) (conclude_snd_of_not_isPublished hp)).trans get?_retire
    exact ⟨nofun, fun _ => hget file, fun f _ => hget f⟩

end Service

/-- The verdict on a failed build tells its error. -/
theorem BuildResult.error?_verdict (settings : Settings) (current : Option Entry) (stamp : Stamp) (e : BuildError) :
    (BuildResult.verdict settings current stamp (.error e)).error? = some e := by
  cases current with
  | some entry => rfl
  | none =>
    simp only [verdict]
    split <;> rfl

/-- What comes of an index call whose builder makes no calls is settled in every state of every run: it is the
    verdict on its result, by the file's entry, and a failed build is reported with its error. If something was
    published, it is the summary that the build gave or recovered, with the stamp of the call; if not, or if the
    builder crashed, the file keeps its entry. All other files keep theirs in any case. -/
theorem index_settled (settings : Settings) (program : Build α) (s : Service)
    (reached : s ∈ program.states (.fresh settings)) (few : s.InTime) (file : FileId) (ending : Ending) :
    let stamp := s.begin.1
    let call := s.index file (.finish ending ())
    call.1.1 = ending.map (fun result => result.verdict settings (s.registry.get? file) stamp) ∧
    (∀ e, ending = .ok (.error e) → ∃ outcome, call.1.1 = .ok outcome ∧ outcome ≠ .stale ∧
      outcome.error? = some e) ∧
    (call.1.1.isPublished = true → ∃ result summary, ending = .ok result ∧ result.summary? = some summary ∧
      call.2.registry.get? file = some (.ofSummary summary stamp)) ∧
    (call.1.1.isPublished = false → call.2.registry.get? file = s.registry.get? file) ∧
    ∀ f ≠ file, call.2.registry.get? f = s.registry.get? f := by
  intro stamp call
  obtain ⟨l, o, htrace⟩ := Build.exists_trace_of_mem_states reached
  have haccounted : s.Accounted := htrace.accounted (.fresh settings) few (.fresh settings)
  have hsettings : s.settings = settings := htrace.settings_eq
  have hverdict : call.1.1 = ending.map fun result => result.verdict settings (s.registry.get? file) stamp :=
    hsettings ▸ haccounted.index_fst few ending ()
  refine ⟨hverdict, ?_, s.get?_index file ending ()⟩
  rintro e rfl
  have herror := BuildResult.error?_verdict settings (s.registry.get? file) stamp e
  refine ⟨BuildResult.verdict settings (s.registry.get? file) stamp (.error e), hverdict, fun hstale => ?_, herror⟩
  rw [hstale] at herror
  cases herror

/-- A client that puts an entry ahead of the clock, and puts and forgets another. -/
def aheadProgram : Build Unit :=
  .ask (.put ⟨"A"⟩ (.ofSummary {} (.nth 7))) fun _ =>
  .ask (.put ⟨"B"⟩ (.ofSummary {} (.nth 5))) fun _ =>
  .ask (.remove ⟨"B"⟩) fun _ => .pure (.ok {}) ()

/-- A clean build comes too late for the entry ahead of the clock, while what a failed one recovers gets past the
    tombstone. -/
theorem index_settled_ahead :
    let settings := { Settings.standard with publishPartialOnFirstFailure := true }
    let broken : BuildError := .malformed ⟨"B"⟩ "" (Summary.empty.declare "B")
    let s := (aheadProgram.run (.fresh settings)).2
    (s.index ⟨"A"⟩ (.finish (.ok (.ok {})) ())).1.1 = .ok .stale ∧
    (s.index ⟨"B"⟩ (.finish (.ok (.error broken)) ())).1.1 = .ok (.publishedPartial broken) := by
  intro settings broken s
  have hreached : s ∈ aheadProgram.states (.fresh settings) :=
    List.mem_cons_of_mem _ (List.mem_cons_of_mem _ (List.mem_cons_of_mem _ (List.mem_singleton_self _)))
  have few : s.InTime := by cbv
  exact ⟨(index_settled settings aheadProgram s hreached few ⟨"A"⟩ (.ok (.ok {}))).1.trans (by cbv),
    (index_settled settings aheadProgram s hreached few ⟨"B"⟩ (.ok (.error broken))).1.trans (by cbv)⟩

end Concordance
