import Mathlib
import Concordance.Proofs.Service.Effect
import Concordance.Proofs.Service.Span

/-! Newest wins. A build takes its stamp when it begins and effect when it ends, while a forget takes both at
    once. The effects on a file still come in the order of their stamps (`effects_increase`): a build that
    something overtook comes to nothing, also when compaction has taken away what overtook it. -/

namespace Concordance

namespace Span.Through

variable {o o' o₁ o₂ : List Task} {s s' : Service} {l : List Moment} {b : Span l} {u : Stamp}

theorem not_older (h : b.Through o o' s s' o₁ o₂) (ho : ∀ m ∈ b.meanwhile, m.Asks Request.Orderly)
    (hu : u ∈ b.meanwhile.filterMap (·.effect? b.file)) : ¬b.before.registry.Older b.file b.stamp :=
  h.meanwhile.not_older h.begun h.before.inTime ho List.mem_cons_self (h.begun.issued _ List.mem_cons_self) hu

/-- A build that something overtook only ends. -/
theorem overtaken (h : b.Through o o' s s' o₁ o₂) (ho : ∀ m ∈ b.meanwhile, m.Asks Request.Orderly)
    (hu : u ∈ b.meanwhile.filterMap (·.effect? b.file)) :
    b.attempt.isPublished = false ∧ b.after = b.before.retire b.stamp := by
  have hconclude : (b.before.conclude b.file b.stamp b.ending).1.isPublished = false ∧
      (b.before.conclude b.file b.stamp b.ending).2 = b.before.retire b.stamp :=
    Service.conclude_of_not (Or.inr (h.not_older ho hu))
  rwa [h.conclude] at hconclude

end Span.Through

variable {α : Type}

/-- A publication leaves an entry with the stamp of its build. -/
theorem Step.stamp_of_isPublished {o o' : List Task} {m : Moment} (h : Step o m o') {file : FileId}
    {stamp : Stamp} {ending : Ending} {attempt : Attempt} (he : m.event = .ended file stamp ending attempt)
    (hp : attempt.isPublished = true) : (m.after.registry.get? file).map Entry.stamp = some stamp := by
  have hended := (h.ended_eq he).2
  have hp' : (m.before.conclude file stamp ending).1.isPublished = true := by rw [hended, hp]
  obtain ⟨summary, -, hget⟩ := Service.get?_conclude_of_isPublished hp'
  rw [hended] at hget
  rw [hget, if_pos rfl]
  rfl

/-- Newest wins, in every run of the service, whatever the builds do and however they are nested. The effects
    on a file come in the order of their stamps, and what an effect leaves in the file's slot has its stamp. A
    published build leaves its entry. A build during which something happened to its file comes to nothing. -/
theorem effects_increase (settings : Settings) (program : Build α)
    (orderly : ∀ m ∈ program.log (.fresh settings), m.Asks Request.Orderly)
    (few : (program.run (.fresh settings)).2.InTime) :
    (∀ file, ((program.log (.fresh settings)).filterMap (·.effect? file)).Pairwise (· < ·)) ∧
    (∀ m ∈ program.log (.fresh settings), ∀ file u, m.effect? file = some u →
      ∀ slot, m.after.registry.slots[file]? = some slot → slot.stamp = u) ∧
    (∀ m ∈ program.log (.fresh settings), ∀ file stamp ending attempt,
      m.event = .ended file stamp ending attempt → attempt.isPublished = true →
        (m.after.registry.get? file).map Entry.stamp = some stamp) ∧
    ∀ b : Span (program.log (.fresh settings)), b.meanwhile.filterMap (·.effect? b.file) ≠ [] →
      b.attempt.isPublished = false ∧ b.after.registry.get? b.file = b.before.registry.get? b.file := by
  have h := program.trace_log (.fresh settings) []
  have hs := Sound.fresh settings
  refine ⟨fun file => h.pairwise_effects hs few orderly, fun m hm file u he slot hslot => ?_,
    fun m hm file stamp ending attempt he hp => ?_, fun b hne => ?_⟩
  · obtain ⟨l₁, l₂, hl⟩ := List.append_of_mem hm
    obtain ⟨o₁, o₂, -, hsound, hstep, hsound', -⟩ := (hl ▸ h).sound_through hs few
    exact (hstep.took hsound hsound'.inTime he).stamp_eq hslot
  · obtain ⟨l₁, l₂, hl⟩ := List.append_of_mem hm
    obtain ⟨o₁, o₂, -, hstep, -⟩ := (hl ▸ h).through
    exact hstep.stamp_of_isPublished he hp
  · obtain ⟨o₁, o₂, hb⟩ := b.through h hs few
    obtain ⟨u, hu⟩ := List.exists_mem_of_ne_nil _ hne
    have ho : ∀ m ∈ b.meanwhile, m.Asks Request.Orderly := fun m hm => orderly m (by simp [b.log, hm])
    obtain ⟨hnot, hafter⟩ := hb.overtaken ho hu
    rw [hafter]
    exact ⟨hnot, Service.get?_retire⟩

/-- A build that forgets its file before it ends. -/
def forgetful (file : FileId) : Build Unit := .ask (.forget file) fun _ => .pure (.ok {}) ()

theorem effects_increase_forgetful :
    let program := Build.index ⟨"A.java"⟩ (forgetful ⟨"A.java"⟩) fun _ _ => .pure (.ok {}) ()
    (program.log (.fresh .standard)).filterMap (·.effect? ⟨"A.java"⟩) = [.nth 2] ∧
    ((program.log (.fresh .standard)).filterMap (·.effect? ⟨"A.java"⟩)).Pairwise (· < ·) ∧
    ((Service.fresh .standard).index ⟨"A.java"⟩ (forgetful ⟨"A.java"⟩)).1.1.isPublished = false := by
  intro program
  have orderly : ∀ m ∈ program.log (.fresh .standard), m.Asks Request.Orderly := by
    simp [program, forgetful, Build.log, Build.pure, Moment.Asks, Request.Orderly]
  have few : (program.run (.fresh .standard)).2.InTime := by
    simp [program, forgetful, Build.run, Build.pure, Service.InTime, Service.answer, Service.fresh]
  obtain ⟨increase, -, -, span⟩ := effects_increase .standard program orderly few
  refine ⟨by cbv, increase _, (span ⟨⟨"A.java"⟩, _, _, _, [], [_], _, _, _, _, _, rfl⟩ ?_).1⟩
  simp [Moment.effect?]

end Concordance
