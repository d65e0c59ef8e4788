import Mathlib
import Concordance.Proofs.Service.Clock
import Concordance.Proofs.Service.Order

/-! Whether a failed build is told of. A failed build is reported with its error, except where what it recovered
    was to be published and comes too late: then it counts as stale and the error is gone (`unreported_forget`).
    That takes a file without an entry to which something happened while the build ran. -/

namespace Concordance

variable {α : Type} {o o' o₁ o₂ : List Task} {s s' : Service} {l : List Moment} {file : FileId}
  {stamp : Stamp} {e : BuildError}

theorem Request.Orderly.clocked {request : Request} (h : request.Orderly) : request.Clocked := by
  cases request with
  | put file entry => exact h.elim
  | _ => trivial

/-- Where nothing happens to a file, its slot stays as old as it is. -/
theorem Trace.older (h : Trace o s l o' s') (hs : Sound o s) (hin : s'.InTime)
    (ho : ∀ m ∈ l, m.Asks Request.Orderly) (he : l.filterMap (·.effect? file) = [])
    (hold : s.registry.Older file stamp) : s'.registry.Older file stamp := by
  induction h with
  | nil => exact hold
  | cons hstep h ih =>
    have hmid := hin.of_le h.issued_le
    obtain ⟨ho₁, ho⟩ := List.forall_mem_cons.mp ho
    obtain ⟨he₁, he⟩ := List.forall_mem_cons.mp (List.filterMap_eq_nil_iff.mp he)
    refine ih (hstep.sound hs hmid) hin ho (List.filterMap_eq_nil_iff.mpr he) fun slot hslot => ?_
    rcases hstep.faded hs hmid ho₁ he₁ with hsame | ⟨hnone, -⟩
    · exact hold slot (hsame.symm.trans hslot)
    · exact nomatch hnone.symm.trans hslot

/-! ### Failed builds -/

/-- A failed build is reported with its error, except where what it recovered is to be published and the file has a
    slot that is as new. -/
theorem Service.publish_error (settings : Settings) (r : Registry) (file : FileId) (stamp : Stamp) (e : BuildError) :
    let outcome := (publish settings r file stamp (.error e)).1
    let late := (BuildResult.offer? settings (r.contains file) (.error e)).isSome = true ∧ ¬r.Older file stamp
    (outcome.error? = some e ↔ ¬late) ∧ (late → outcome = .stale) := by
  intro outcome late
  cases ho : BuildResult.offer? settings (r.contains file) (.error e) with
  | none =>
    have hlate : ¬late := fun h => nomatch (congrArg Option.isSome ho).symm.trans h.1
    obtain ⟨e', he, hpublish⟩ := publish_of_none stamp ho
    obtain rfl := Except.error.inj he
    have houtcome : outcome = unpublished (r.contains file) e := congrArg Prod.fst hpublish
    have herror : outcome.error? = some e := by
      rw [houtcome, unpublished]
      split <;> rfl
    exact ⟨iff_of_true herror hlate, fun h => absurd h hlate⟩
  | some summary =>
    by_cases hold : r.Older file stamp
    · have hlate : ¬late := fun h => h.2 hold
      have herror : outcome.error? = some e := congrArg (fun x => x.1.error?) (publish_of_offer ho hold)
      exact ⟨iff_of_true herror hlate, fun h => absurd h hlate⟩
    · have hstale : outcome = .stale := congrArg Prod.fst (publish_of_stale ho hold)
      refine ⟨iff_of_false (fun h => ?_) (not_not.mpr ⟨by rw [ho]; rfl, hold⟩), fun _ => hstale⟩
      rw [hstale] at h
      cases h

namespace Span

/-- A build begins with the next stamp. -/
theorem began_eq (b : Span l) (h : Trace o s l o' s') : b.stamp = b.idle.upcoming ∧ b.begun = b.idle.begin.2 := by
  obtain ⟨file, stamp, ending, attempt, earlier, meanwhile, later, idle, begun, before, after, rfl⟩ := b
  obtain ⟨o₁, o₂, -, hstep, -⟩ := h.through
  cases hstep with
  | began => exact ⟨rfl, rfl⟩

namespace Through

variable {b : Span l}

/-- When a build ends, the slot of its file is older than it exactly if nothing happened to the file meanwhile. -/
theorem older_iff (h : b.Through o o' s s' o₁ o₂) (htrace : Trace o s l o' s') (hs : Sound o s) (hp : s.Punctual)
    (ho : ∀ m ∈ l, m.Asks Request.Orderly) :
    b.before.registry.Older b.file b.stamp ↔ b.meanwhile.filterMap (·.effect? b.file) = [] := by
  have hlog := b.log
  have hearlier : ∀ m ∈ b.earlier, m.Asks Request.Orderly := fun m hm => ho m (by simp [hlog, hm])
  have hmeanwhile : ∀ m ∈ b.meanwhile, m.Asks Request.Orderly := fun m hm => ho m (by simp [hlog, hm])
  obtain ⟨hstamp, hbegun⟩ := b.began_eq htrace
  have hidle : b.idle.InTime := h.begun.inTime.of_le (by rw [hbegun]; exact Nat.le_succ _)
  constructor
  · intro hold
    refine Classical.byContradiction fun hne => ?_
    obtain ⟨u, hu⟩ := List.exists_mem_of_ne_nil _ hne
    exact h.not_older hmeanwhile hu hold
  · intro he
    refine h.meanwhile.older h.begun h.before.inTime hmeanwhile he fun slot hslot => ?_
    rw [hbegun] at hslot
    rw [hstamp]
    have hpunctual := h.earlier.punctual hs hidle (fun m hm => (hearlier m hm).imp fun _ => Request.Orderly.clocked) hp
    exact hpunctual.older hidle b.file slot hslot

end Through

end Span

/-- A failed build is reported with its error, in every run and whatever calls the builds make, but for one case:
    partial summaries are to be published, the build recovered one, and its file has no entry when it ends because
    of something that happened to the file while it ran. Then it is stale, and its error is lost. -/
theorem failure_reported (settings : Settings) (program : Build α)
    (orderly : ∀ m ∈ program.log (.fresh settings), m.Asks Request.Orderly)
    (few : (program.run (.fresh settings)).2.InTime) (b : Span (program.log (.fresh settings))) (e : BuildError)
    (failed : b.ending = .ok (.error e)) :
    let lost := settings.publishPartialOnFirstFailure = true ∧ e.recovered?.isSome = true ∧
      b.before.registry.contains b.file = false ∧ b.meanwhile.filterMap (·.effect? b.file) ≠ []
    ∃ outcome, b.attempt = .ok outcome ∧ (outcome.error? = some e ↔ ¬lost) ∧ (lost → outcome = .stale) := by
  intro lost
  have htrace := program.trace_log (.fresh settings) []
  have hs := Sound.fresh settings
  obtain ⟨o₁, o₂, h⟩ := b.through htrace hs few
  have hattempt : b.attempt = .ok (Service.publish settings b.before.registry b.file b.stamp (.error e)).1 := by
    have hconclude := congrArg Prod.fst h.conclude
    rw [failed, Service.conclude, h.settings] at hconclude
    exact hconclude.symm
  have hlost : (BuildResult.offer? settings (b.before.registry.contains b.file) (.error e)).isSome = true ∧
      ¬b.before.registry.Older b.file b.stamp ↔ lost := by
    rw [BuildResult.isSome_offer?_error, h.older_iff htrace hs (Service.punctual_fresh settings) orderly]
    simp only [lost, ne_eq, and_assoc, and_left_comm, and_comm]
  obtain ⟨herror, hstale⟩ := Service.publish_error settings b.before.registry b.file b.stamp e
  rw [hlost] at herror hstale
  exact ⟨_, hattempt, herror, hstale⟩

/-- A build that forgets its file and then fails, with a summary recovered. -/
def forgetfulFailure (file : FileId) : Build Unit :=
  .ask (.forget file) fun _ => .pure (.error (.malformed file "" (Summary.empty.declare "A"))) ()

/-- With the standard settings the error is told though the file was forgotten meanwhile. -/
theorem failure_reported_forgotten :
    let program := Build.index ⟨"A.java"⟩ (forgetfulFailure ⟨"A.java"⟩) fun _ _ => .pure (.ok {}) ()
    ∃ b : Span (program.log (.fresh .standard)), b.meanwhile.filterMap (·.effect? b.file) = [.nth 2] ∧
      ∃ outcome, b.attempt = .ok outcome ∧
        outcome.error? = some (.malformed ⟨"A.java"⟩ "" (Summary.empty.declare "A")) := by
  intro program
  have orderly : ∀ m ∈ program.log (.fresh .standard), m.Asks Request.Orderly := by
    simp [program, forgetfulFailure, Build.log, Build.pure, Moment.Asks, Request.Orderly]
  have few : (program.run (.fresh .standard)).2.InTime := by
    have hrun : (program.run (.fresh .standard)).2 = (((Service.fresh .standard).begin.2.forget ⟨"A.java"⟩).2.conclude
        ⟨"A.java"⟩ (.nth 1) (.ok (.error (.malformed ⟨"A.java"⟩ "" (Summary.empty.declare "A"))))).2 := rfl
    rw [hrun, Service.InTime, Service.conclude_issued, Service.forget_issued, Service.begin_issued]
    decide
  let b : Span (program.log (.fresh .standard)) := ⟨⟨"A.java"⟩, _, _, _, [], [_], _, _, _, _, _, rfl⟩
  obtain ⟨outcome, hattempt, herror, -⟩ := failure_reported .standard program orderly few b _ rfl
  exact ⟨b, by cbv, outcome, hattempt, herror.mpr (by simp [Settings.standard])⟩

/-- Where partial summaries are to be published, a build that forgets its file and then fails is stale, and nothing
    tells of its error. -/
theorem unreported_forget :
    let settings := { Settings.standard with publishPartialOnFirstFailure := true }
    let e : BuildError := .malformed ⟨"A.java"⟩ "" (Summary.empty.declare "A")
    let program := Build.index ⟨"A.java"⟩ (forgetfulFailure ⟨"A.java"⟩) fun _ _ => .pure (.ok {}) ()
    ∃ b : Span (program.log (.fresh settings)),
      b.ending = .ok (.error e) ∧ b.attempt = .ok .stale ∧ Outcome.stale.error? ≠ some e := by
  intro settings e program
  -- The build has stamp 1. The file has been forgotten at 2, so it has a slot and no entry.
  let r := ((Service.fresh settings).begin.2.forget ⟨"A.java"⟩).2.registry
  have hcontains : ((Service.fresh { Settings.standard with publishPartialOnFirstFailure := true }).begin.2.forget
      ⟨"A.java"⟩).2.registry.contains ⟨"A.java"⟩ = false := by cbv
  have hslot : ((Service.fresh { Settings.standard with publishPartialOnFirstFailure := true }).begin.2.forget
      ⟨"A.java"⟩).2.registry.slots[(⟨"A.java"⟩ : FileId)]? = some (.forgotten (.nth 2)) := by cbv
  have hoffer : BuildResult.offer? settings (r.contains ⟨"A.java"⟩) (.error e) = some (Summary.empty.declare "A") := by
    rw [show r.contains ⟨"A.java"⟩ = false from hcontains]
    rfl
  have hpublish : Service.publish settings r ⟨"A.java"⟩ (.nth 1) (.error e) = (.stale, r) :=
    Service.publish_of_stale hoffer fun hold => absurd (hold _ hslot) (by decide)
  have hattempt : ((Service.fresh settings).index ⟨"A.java"⟩ (forgetfulFailure ⟨"A.java"⟩)).1.1 =
      .ok (Service.publish settings r ⟨"A.java"⟩ (.nth 1) (.error e)).1 := rfl
  rw [hpublish] at hattempt
  exact ⟨⟨⟨"A.java"⟩, _, _, _, [], [_], _, _, _, _, _, rfl⟩, rfl, hattempt, fun h => Option.some_ne_none e h.symm⟩

end Concordance
