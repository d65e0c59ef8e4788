import Concordance.Proofs.Service.Compaction

/-! How a build ends. What it has to publish depends on its result, on the settings and on whether the file
    has an entry already; it is published if the file's slot is older than the build, and then takes the
    slot's place. In every other case the build leaves the entries as they are. -/

namespace Concordance

variable {settings : Settings} {live : Bool} {summary : Summary} {e : BuildError}

/-- What a result has to publish: a clean summary always, a recovered one if the settings ask for it and
    the file has no entry. -/
def BuildResult.offer? (settings : Settings) (live : Bool) : BuildResult → Option Summary
  | .ok summary => some summary
  | .error e => if !live && settings.publishPartialOnFirstFailure then e.recovered? else none

theorem BuildResult.offer?_error_eq_some_iff : BuildResult.offer? settings live (.error e) = some summary ↔
    live = false ∧ settings.publishPartialOnFirstFailure = true ∧ e.recovered? = some summary := by
  cases live <;> cases hp : settings.publishPartialOnFirstFailure <;> simp [BuildResult.offer?, hp]

theorem BuildResult.isSome_offer?_error : (BuildResult.offer? settings live (.error e)).isSome = true ↔
    live = false ∧ settings.publishPartialOnFirstFailure = true ∧ e.recovered?.isSome = true := by
  simp only [Option.isSome_iff_exists, offer?_error_eq_some_iff, exists_and_left]

/-- What an ending has to publish. A crash has nothing. -/
def Ending.offer? (settings : Settings) (live : Bool) : Ending → Option Summary
  | .ok result => BuildResult.offer? settings live result
  | .error _ => none

/-- Whether a call published a new entry. -/
def Attempt.isPublished : Attempt → Bool
  | .ok outcome => outcome.isPublished
  | .error _ => false

namespace Registry

variable {r : Registry} {file : FileId} {stamp : Stamp}

/-- The slot of a file, if it has one, is older than a stamp. -/
def Older (r : Registry) (file : FileId) (stamp : Stamp) : Prop :=
  ∀ slot, r.slots[file]? = some slot → slot.stamp < stamp

/-- The registry with a file's slot taken by the entry of a summary. -/
def publishing (r : Registry) (file : FileId) (stamp : Stamp) (summary : Summary) : Registry :=
  { r with slots := r.slots.insert file (.live (.ofSummary summary stamp)) }

@[simp] theorem publishing_issued : (r.publishing file stamp summary).issued = r.issued := rfl

theorem put_of_older (h : r.Older file stamp) :
    r.put file (.ofSummary summary stamp) =
      (if r.contains file then .replaced else .inserted, r.publishing file stamp summary) := by
  refine put_of_newer fun slot hs hle => ?_
  have hle : stamp ≤ slot.stamp := hle
  exact Std.not_le_of_gt (h slot hs) hle

theorem put_of_not_older (h : ¬r.Older file stamp) : r.put file (.ofSummary summary stamp) = (.stale, r) := by
  simp only [Older, Classical.not_forall, exists_prop] at h
  obtain ⟨slot, hs, hlt⟩ := h
  exact put_of_stale hs (Std.not_lt.mp hlt)

end Registry

namespace Service

variable {s : Service} {r : Registry} {file f : FileId} {stamp : Stamp} {result : BuildResult} {ending : Ending}

/-! ### Publishing a result -/

/-- The outcome of a result that has something to publish. -/
def published (live : Bool) : BuildResult → Outcome
  | .ok _ => if live then .replaced else .inserted
  | .error e => .publishedPartial e

/-- The outcome of a failed result that has nothing to publish. -/
def unpublished (live : Bool) (e : BuildError) : Outcome := if live then .retainedPrevious e else .rejected e

theorem isPublished_published : (published live result).isPublished = true := by
  cases result <;> cases live <;> rfl

theorem publish_of_offer (ho : result.offer? settings (r.contains file) = some summary)
    (h : r.Older file stamp) :
    publish settings r file stamp result =
      (published (r.contains file) result, r.publishing file stamp summary) := by
  cases result with
  | ok clean =>
    obtain rfl := Option.some.inj ho
    simp only [publish, Registry.put_of_older h, published]
    cases r.contains file <;> rfl
  | error e =>
    obtain ⟨hc, hp, hr⟩ := BuildResult.offer?_error_eq_some_iff.mp ho
    simp only [publish, hc, hp, hr, Registry.put_of_older h, published, Bool.not_true, Bool.false_eq_true,
      ↓reduceIte]

theorem publish_of_stale (ho : result.offer? settings (r.contains file) = some summary)
    (h : ¬r.Older file stamp) : publish settings r file stamp result = (.stale, r) := by
  cases result with
  | ok clean =>
    simp only [publish, Registry.put_of_not_older h]
    rfl
  | error e =>
    obtain ⟨hc, hp, hr⟩ := BuildResult.offer?_error_eq_some_iff.mp ho
    simp only [publish, hc, hp, hr, Registry.put_of_not_older h, Bool.not_true, Bool.false_eq_true, ↓reduceIte]

/-- Only a failed build has nothing to publish; it is reported, and nothing else happens. -/
theorem publish_of_none (stamp : Stamp) (ho : result.offer? settings (r.contains file) = none) :
    ∃ e, result = .error e ∧ publish settings r file stamp result = (unpublished (r.contains file) e, r) := by
  cases result with
  | ok clean => cases ho
  | error e =>
    refine ⟨e, rfl, ?_⟩
    cases hc : r.contains file with
    | true => simp only [publish, hc, ↓reduceIte, unpublished]
    | false =>
      cases hp : settings.publishPartialOnFirstFailure with
      | false => simp [publish, hc, hp, unpublished]
      | true =>
        simp only [BuildResult.offer?, hc, hp, Bool.not_false, Bool.and_self, ↓reduceIte] at ho
        simp [publish, hc, hp, ho, unpublished]

/-- Publishing uses no stamps. -/
theorem publish_issued (settings : Settings) (r : Registry) (file : FileId) (stamp : Stamp) (result : BuildResult) :
    (publish settings r file stamp result).2.issued = r.issued := by
  cases ho : result.offer? settings (r.contains file) with
  | none =>
    obtain ⟨e, -, hp⟩ := publish_of_none stamp ho
    rw [hp]
  | some summary =>
    by_cases h : r.Older file stamp
    · rw [publish_of_offer ho h, Registry.publishing_issued]
    · rw [publish_of_stale ho h]

/-! ### Ending a build -/

theorem conclude_of_offer (ho : ending.offer? s.settings (s.registry.contains file) = some summary)
    (h : s.registry.Older file stamp) :
    (s.conclude file stamp ending).1.isPublished = true ∧
      (s.conclude file stamp ending).2 =
        ({ s with registry := s.registry.publishing file stamp summary }).retire stamp := by
  cases ending with
  | error crash => cases ho
  | ok result =>
    simp only [conclude, publish_of_offer ho h, Attempt.isPublished, isPublished_published, and_self]

/-- A build that has nothing to publish, or comes too late, only ends. -/
theorem conclude_of_not (h : ending.offer? s.settings (s.registry.contains file) = none ∨
    ¬s.registry.Older file stamp) :
    (s.conclude file stamp ending).1.isPublished = false ∧ (s.conclude file stamp ending).2 = s.retire stamp := by
  cases ending with
  | error crash => exact ⟨rfl, rfl⟩
  | ok result =>
    cases ho : result.offer? s.settings (s.registry.contains file) with
    | none =>
      obtain ⟨e, -, hp⟩ := publish_of_none stamp ho
      simp only [conclude, hp, Attempt.isPublished, and_true, unpublished]
      split <;> rfl
    | some summary =>
      have h : ¬s.registry.Older file stamp := h.resolve_left fun hn => by
        rw [Ending.offer?, ho] at hn
        cases hn
      simp only [conclude, publish_of_stale ho h, Attempt.isPublished, Outcome.isPublished, and_true]

/-- A build publishes exactly if it has something to publish and its file's slot is older. -/
theorem isPublished_conclude_iff :
    (s.conclude file stamp ending).1.isPublished = true ↔
      (ending.offer? s.settings (s.registry.contains file)).isSome = true ∧ s.registry.Older file stamp := by
  cases ho : ending.offer? s.settings (s.registry.contains file) with
  | none =>
    have hn : (s.conclude file stamp ending).1.isPublished = false := (conclude_of_not (Or.inl ho)).1
    simp [hn]
  | some summary =>
    by_cases h : s.registry.Older file stamp
    · simp [(conclude_of_offer ho h).1, h]
    · simp [(conclude_of_not (Or.inr h)).1, h]

theorem isPublished_iff_of_conclude_eq {attempt : Attempt} {s' : Service}
    (h : s.conclude file stamp ending = (attempt, s')) :
    attempt.isPublished = true ↔
      (ending.offer? s.settings (s.registry.contains file)).isSome = true ∧ s.registry.Older file stamp := by
  rw [← isPublished_conclude_iff, h]

/-- A published build is the entry of its file from then on. -/
theorem get?_conclude_of_isPublished (h : (s.conclude file stamp ending).1.isPublished = true) :
    ∃ summary, ending.offer? s.settings (s.registry.contains file) = some summary ∧ ∀ f,
      (s.conclude file stamp ending).2.registry.get? f =
        if f = file then some (.ofSummary summary stamp) else s.registry.get? f := by
  obtain ⟨ho, hold⟩ := isPublished_conclude_iff.mp h
  obtain ⟨summary, ho⟩ := Option.isSome_iff_exists.mp ho
  refine ⟨summary, ho, fun f => ?_⟩
  rw [(conclude_of_offer ho hold).2, get?_retire]
  exact Registry.get?_insert _ _ _ _

/-- A build that is not published is retired, and nothing else. -/
theorem conclude_snd_of_not_isPublished (h : (s.conclude file stamp ending).1.isPublished = false) :
    (s.conclude file stamp ending).2 = s.retire stamp := by
  rw [← Bool.not_eq_true, isPublished_conclude_iff, Classical.not_and_iff_not_or_not, Bool.not_eq_true,
    Option.isSome_eq_false_iff, Option.isNone_iff_eq_none] at h
  exact (conclude_of_not h).2

/-- Whatever came of it, ending a build writes at most its file's slot, and that only to publish; then the
    build is retired. -/
theorem exists_conclude_snd (s : Service) (file : FileId) (stamp : Stamp) (ending : Ending) :
    ∃ r : Registry, r.issued = s.registry.issued ∧
      (∀ f, (f = file → (s.conclude file stamp ending).1.isPublished = false) →
        r.slots[f]? = s.registry.slots[f]?) ∧
      (s.conclude file stamp ending).2 = ({ s with registry := r }).retire stamp := by
  cases h : (s.conclude file stamp ending).1.isPublished with
  | true =>
    obtain ⟨ho, hold⟩ := isPublished_conclude_iff.mp h
    obtain ⟨summary, ho⟩ := Option.isSome_iff_exists.mp ho
    refine ⟨s.registry.publishing file stamp summary, rfl, fun f hf => ?_, (conclude_of_offer ho hold).2⟩
    have hne : f ≠ file := fun he => nomatch hf he
    exact (Registry.slots_insert _).trans (if_neg hne)
  | false => exact ⟨s.registry, rfl, fun _ _ => rfl, conclude_snd_of_not_isPublished h⟩

/-- The slots after the end of a build are from before it, or the build's own. -/
theorem slots_of_conclude {slot : Slot} (h : (s.conclude file stamp ending).2.registry.slots[f]? = some slot) :
    s.registry.slots[f]? = some slot ∨ slot.stamp = stamp := by
  cases hp : (s.conclude file stamp ending).1.isPublished with
  | false =>
    rw [conclude_snd_of_not_isPublished hp] at h
    exact Or.inl (slots_of_retire h)
  | true =>
    obtain ⟨ho, hold⟩ := isPublished_conclude_iff.mp hp
    obtain ⟨summary, ho⟩ := Option.isSome_iff_exists.mp ho
    rw [(conclude_of_offer ho hold).2] at h
    have h : (s.registry.publishing file stamp summary).slots[f]? = some slot := slots_of_retire h
    rw [Registry.publishing, Registry.slots_insert] at h
    split at h
    · obtain rfl := Option.some.inj h
      exact Or.inr rfl
    · exact Or.inl h

@[simp] theorem conclude_issued : (s.conclude file stamp ending).2.registry.issued = s.registry.issued := by
  obtain ⟨r, hr, -, h⟩ := exists_conclude_snd s file stamp ending
  rw [h, retire_issued, hr]

@[simp] theorem conclude_settings : (s.conclude file stamp ending).2.settings = s.settings := by
  obtain ⟨r, -, -, h⟩ := exists_conclude_snd s file stamp ending
  rw [h, retire_settings]

theorem mem_conclude_running {b : Stamp} :
    b ∈ (s.conclude file stamp ending).2.running ↔ b ≠ stamp ∧ b ∈ s.running := by
  obtain ⟨r, -, -, h⟩ := exists_conclude_snd s file stamp ending
  rw [h]
  exact mem_retire_running

end Service

end Concordance
