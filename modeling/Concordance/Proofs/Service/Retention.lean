import Mathlib
import Concordance.Proofs.Service.Answers

/-! Compaction cannot be told from the answers. Beside the service stands one that sweeps its tombstones in
    another way (`Build.runBy`), and for the way of `compact` it is the service itself. With a sweep that does
    nothing all tombstones are kept, and still every call has the same result, as long as nobody counts them:
    where the service has no slot any more, the other has a tombstone from before all running builds. -/

namespace Concordance

/-! ### The service with another sweep -/

namespace Service

variable (sweep : Service → Service)

/-- `forget`, with another sweep. -/
def forgetBy (s : Service) (file : FileId) : Bool × Service :=
  let (removed, registry) := s.registry.remove file
  (removed, sweep { s with registry })

/-- `retire`, with another sweep. -/
def retireBy (s : Service) (stamp : Stamp) : Service := sweep { s with running := s.running.erase stamp }

/-- `conclude`, with another sweep. -/
def concludeBy (s : Service) (file : FileId) (stamp : Stamp) : Ending → Attempt × Service
  | .error crash => (.error crash, s.retireBy sweep stamp)
  | .ok result =>
    let (outcome, registry) := publish s.settings s.registry file stamp result
    (.ok outcome, { s with registry }.retireBy sweep stamp)

/-- `answer`, with another sweep. -/
def answerBy (s : Service) : (request : Request) → request.Reply × Service
  | .forget file => s.forgetBy sweep file
  | request => s.answer request

theorem concludeBy_compact (s : Service) (file : FileId) (stamp : Stamp) (ending : Ending) :
    s.concludeBy compact file stamp ending = s.conclude file stamp ending := by
  cases ending <;> rfl

theorem answerBy_compact (s : Service) (request : Request) : s.answerBy compact request = s.answer request := by
  cases request <;> rfl

end Service

namespace Build

variable {α : Type} (sweep : Service → Service)

/-- `run`, with another sweep. -/
def runBy (s : Service) : Build α → (Ending × α) × Service
  | finish ending notes => ((ending, notes), s)
  | ask request next =>
    let (reply, s) := s.answerBy sweep request
    runBy s (next reply)
  | index file build next =>
    let (stamp, s) := s.begin
    let ((ending, notes), s) := runBy s build
    let (attempt, s) := s.concludeBy sweep file stamp ending
    runBy s (next attempt notes)

/-- `log`, with another sweep. -/
def logBy (s : Service) : Build α → List Moment
  | finish _ _ => []
  | ask request next =>
    ⟨s, .answered request (s.answerBy sweep request).1, (s.answerBy sweep request).2⟩ ::
      logBy (s.answerBy sweep request).2 (next (s.answerBy sweep request).1)
  | index file build next =>
    let (stamp, t) := s.begin
    let ((ending, notes), u) := build.runBy sweep t
    let (attempt, v) := u.concludeBy sweep file stamp ending
    (⟨s, .began file stamp, t⟩ :: build.logBy t) ++
      ⟨u, .ended file stamp ending attempt, v⟩ :: logBy v (next attempt notes)

end Build

/-- `Service.index`, with another sweep. -/
def Service.indexBy {α : Type} (sweep : Service → Service) (s : Service) (file : FileId) (build : Build α) :
    (Attempt × α) × Service :=
  let (stamp, s) := s.begin
  let ((ending, notes), s) := build.runBy sweep s
  let (attempt, s) := s.concludeBy sweep file stamp ending
  ((attempt, notes), s)

section

variable {α : Type} {sweep : Service → Service} {s : Service} {file : FileId} {build : Build α}
  {next : Attempt → α → Build α}

theorem Service.indexBy_eq : s.indexBy sweep file build =
    ((((build.runBy sweep s.begin.2).2.concludeBy sweep file s.begin.1 (build.runBy sweep s.begin.2).1.1).1,
        (build.runBy sweep s.begin.2).1.2),
      ((build.runBy sweep s.begin.2).2.concludeBy sweep file s.begin.1 (build.runBy sweep s.begin.2).1.1).2) := rfl

theorem Build.runBy_index : (index file build next).runBy sweep s =
    (next (s.indexBy sweep file build).1.1 (s.indexBy sweep file build).1.2).runBy sweep
      (s.indexBy sweep file build).2 := rfl

theorem Build.logBy_index : (index file build next).logBy sweep s =
    (⟨s, .began file s.begin.1, s.begin.2⟩ :: build.logBy sweep s.begin.2) ++
      ⟨(build.runBy sweep s.begin.2).2, .ended file s.begin.1 (build.runBy sweep s.begin.2).1.1
          (s.indexBy sweep file build).1.1, (s.indexBy sweep file build).2⟩ ::
      (next (s.indexBy sweep file build).1.1 (s.indexBy sweep file build).1.2).logBy sweep
        (s.indexBy sweep file build).2 := rfl

/-- The service itself sweeps by `compact`. -/
theorem Build.runBy_compact (b : Build α) (s : Service) : b.runBy Service.compact s = b.run s := by
  induction b generalizing s with
  | finish => rfl
  | ask request next ih => simp only [runBy, run, Service.answerBy_compact, ih]
  | index file build next ihb ihn => simp only [runBy, run, Service.concludeBy_compact, ihb, ihn]

theorem Build.logBy_compact (b : Build α) (s : Service) : b.logBy Service.compact s = b.log s := by
  induction b generalizing s with
  | finish => rfl
  | ask request next ih => simp only [logBy, log, Service.answerBy_compact, ih]
  | index file build next ihb ihn =>
    simp only [logBy, log, Service.concludeBy_compact, runBy_compact, ihb, ihn]

end

/-! ### The service that keeps its tombstones -/

/-- The requests that neither write past the service nor count tombstones: not `put`, `purge`, `clear` and
    `pending`. -/
def Request.Discreet : Request → Prop
  | put _ _ | purge _ | clear | pending => False
  | _ => True

namespace Service

variable {o : List Task} {s k : Service} {file : FileId} {stamp : Stamp}

/-- The service `k` is the service `s` with tombstones that faded in `s`. -/
structure Retains (k s : Service) : Prop where
  settings : k.settings = s.settings
  issued : k.registry.issued = s.registry.issued
  running : k.running = s.running
  slots : ∀ f : FileId, s.Faded k.registry.slots[f]? s.registry.slots[f]?

theorem Faded.trans {x y z : Option Slot} (h : s.Faded x y) (h' : s.Faded y z) : s.Faded x z := by
  rcases h with rfl | ⟨rfl, hx⟩
  · exact h'
  · exact Or.inr ⟨h'.of_none, hx⟩

namespace Retains

theorem refl (s : Service) : s.Retains s := ⟨rfl, rfl, rfl, fun _ => .refl _ _⟩

theorem get?_eq (h : k.Retains s) (f : FileId) : k.registry.get? f = s.registry.get? f := (h.slots f).live?.symm

/-- A file's slot is older than a running build in the one service if it is in the other. -/
theorem older_iff (h : k.Retains s) (hs : stamp ∈ s.running) :
    k.registry.Older file stamp ↔ s.registry.Older file stamp := by
  rcases h.slots file with hsame | ⟨hnone, t, ht, -, hrun⟩
  · rw [Registry.Older, Registry.Older, hsame]
  · have hlt : (Slot.forgotten t).stamp < stamp := hrun stamp hs
    simp [Registry.Older, hnone, ht, hlt]

/-- Writing the same slots in both, not before the clock, keeps them together. -/
theorem write {q r : Registry} (h : k.Retains s) (hin : ({ s with registry := r } : Service).InTime)
    (hle : s.registry.issued ≤ r.issued) (hissued : q.issued = r.issued)
    (hslots : ∀ f : FileId, q.slots[f]? = r.slots[f]? ∨
      q.slots[f]? = k.registry.slots[f]? ∧ r.slots[f]? = s.registry.slots[f]?) :
    Retains { k with registry := q } { s with registry := r } where
  settings := h.settings
  issued := hissued
  running := h.running
  slots f := by
    rcases hslots f with hsame | ⟨hq, hr⟩
    · exact Or.inl hsame.symm
    · show Faded _ q.slots[f]? r.slots[f]?
      rw [hq, hr]
      exact (h.slots f).mono (hin.now_le hle) fun b hb => Or.inl hb

theorem begin_fst (h : k.Retains s) : k.begin.1 = s.begin.1 := congrArg (fun n => Stamp.nth (n + 1)) h.issued

theorem begin (h : k.Retains s) (hin : s.begin.2.InTime) : k.begin.2.Retains s.begin.2 where
  settings := h.settings
  issued := congrArg (· + 1) h.issued
  running := by
    show k.running.insert (.nth (k.registry.issued + 1)) = s.running.insert (.nth (s.registry.issued + 1))
    rw [h.running, h.issued]
  slots f := by
    have hold : s.InTime := hin.of_le (Nat.le_succ _)
    refine (h.slots f).mono (hin.now_le (Nat.le_succ _)) fun b hb => ?_
    rcases mem_begin_running.mp hb with rfl | hb
    · exact Or.inr (hold.lt_upcoming_iff.mpr (Std.le_refl _))
    · exact Or.inl hb

/-- The service may sweep and the other need not. -/
theorem compact (h : k.Retains s) (hin : s.InTime) (hrun : ∀ b ∈ s.running, b ≤ s.now) : k.Retains s.compact where
  settings := h.settings
  issued := h.issued.trans compact_issued.symm
  running := h.running
  slots f := Faded.trans (faded_compact_iff.mpr (h.slots f)) (faded_compact hin hrun f)

theorem retire (h : k.Retains s) (hin : s.InTime) (hrun : ∀ b ∈ s.running, b ≤ s.now) (stamp : Stamp) :
    (k.retireBy id stamp).Retains (s.retire stamp) := by
  refine compact (s := { s with running := s.running.erase stamp }) ⟨h.settings, h.issued, ?_, fun f => ?_⟩ hin
    fun b hb => hrun b (Std.ExtTreeSet.mem_of_mem_erase hb)
  · show k.running.erase stamp = s.running.erase stamp
    rw [h.running]
  · exact (h.slots f).mono (Std.le_refl _) fun b hb => Or.inl (Std.ExtTreeSet.mem_of_mem_erase hb)

theorem contains_eq (h : k.Retains s) (f : FileId) : k.registry.contains f = s.registry.contains f :=
  congrArg Option.isSome (h.get?_eq f)

/-- What a running build gave is published in both or in none. -/
theorem publish (h : k.Retains s) (hin : s.InTime) (hs : stamp ∈ s.running) (settings : Settings) (file : FileId)
    (result : BuildResult) :
    (publish settings k.registry file stamp result).1 = (publish settings s.registry file stamp result).1 ∧
      Retains { k with registry := (publish settings k.registry file stamp result).2 }
        { s with registry := (publish settings s.registry file stamp result).2 } := by
  cases ho : result.offer? settings (s.registry.contains file) with
  | none =>
    obtain ⟨e, rfl, hp⟩ := publish_of_none stamp ho
    rw [← h.contains_eq] at ho
    obtain ⟨e', he, hp'⟩ := publish_of_none stamp ho
    cases he
    rw [hp, hp', h.contains_eq]
    exact ⟨rfl, h⟩
  | some summary =>
    have ho' := ho
    rw [← h.contains_eq] at ho'
    by_cases hold : s.registry.Older file stamp
    · rw [publish_of_offer ho hold, publish_of_offer ho' ((h.older_iff hs).mpr hold), h.contains_eq]
      refine ⟨rfl, h.write hin (Nat.le_refl _) h.issued fun f => ?_⟩
      simp only [Registry.publishing, Registry.slots_insert]
      split
      · exact Or.inl rfl
      · exact Or.inr ⟨rfl, rfl⟩
    · rw [publish_of_stale ho hold, publish_of_stale ho' (mt (h.older_iff hs).mp hold)]
      exact ⟨rfl, h⟩

theorem conclude (h : k.Retains s) (hs : Sound (⟨file, stamp⟩ :: o) s) (ending : Ending) :
    (k.concludeBy id file stamp ending).1 = (s.conclude file stamp ending).1 ∧
      (k.concludeBy id file stamp ending).2.Retains (s.conclude file stamp ending).2 := by
  cases ending with
  | error crash => exact ⟨rfl, h.retire hs.inTime hs.running_le stamp⟩
  | ok result =>
    have hmem : stamp ∈ s.running := hs.running.mpr ⟨_, List.mem_cons_self, rfl⟩
    obtain ⟨houtcome, hwritten⟩ := h.publish hs.inTime hmem s.settings file result
    have hissued := publish_issued s.settings s.registry file stamp result
    have hconclude : k.concludeBy id file stamp (.ok result) =
        (.ok (Service.publish s.settings k.registry file stamp result).1,
          { k with registry := (Service.publish s.settings k.registry file stamp result).2 }.retireBy id stamp) := by
      rw [← h.settings]
      rfl
    rw [hconclude]
    refine ⟨congrArg Except.ok houtcome, hwritten.retire ?_ (fun b hb => ?_) stamp⟩
    · exact Nat.lt_of_le_of_lt (Nat.le_of_eq hissued) hs.inTime
    · show b ≤ Stamp.nth (Service.publish s.settings s.registry file stamp result).2.issued
      rw [hissued]
      exact hs.running_le b hb

theorem remove (h : k.Retains s) (file : FileId)
    (hin : ({ s with registry := (s.registry.remove file).2 } : Service).InTime) :
    Retains { k with registry := (k.registry.remove file).2 } { s with registry := (s.registry.remove file).2 } := by
  refine h.write hin (Nat.le_succ _) (congrArg (· + 1) h.issued) fun f => ?_
  rw [Registry.slots_remove, Registry.slots_remove, h.issued]
  split
  · exact Or.inl rfl
  · exact Or.inr ⟨rfl, rfl⟩

theorem answer {request : Request} (h : k.Retains s) (hs : Sound o s) (hin : (s.answer request).2.InTime)
    (hd : request.Discreet) :
    (k.answerBy id request).1 = (s.answer request).1 ∧
      (k.answerBy id request).2.Retains (s.answer request).2 := by
  cases request with
  | put | purge | clear | pending => exact hd.elim
  | forget file =>
    have hin : ({ s with registry := (s.registry.remove file).2 } : Service).InTime := inTime_compact_iff.mp hin
    refine ⟨h.contains_eq file, (h.remove file hin).compact hin fun b hb => ?_⟩
    exact Std.le_trans (hs.running_le b hb) (hin.now_le (Nat.le_succ _))
  | remove file => exact ⟨h.contains_eq file, h.remove file hin⟩
  | nextStamp =>
    refine ⟨congrArg (fun n => Stamp.nth (n + 1)) h.issued, ?_⟩
    exact h.write hin (Nat.le_succ _) (congrArg (· + 1) h.issued) fun f => Or.inr ⟨rfl, rfl⟩
  | currentStamp => exact ⟨congrArg Stamp.nth h.issued, h⟩
  | get | contains | files | size | isEmpty | snapshot | candidates | declaring | explain | typesNamed | references =>
    exact ⟨reply_congr ⟨⟩ h.get?_eq, h⟩

end Retains

end Service

/-! ### Whole runs -/

variable {α : Type}

/-- What a build does in the service it also does in the one that keeps its tombstones. -/
structure Build.Alike (b : Build α) (k s : Service) : Prop where
  log : (b.logBy id k).map Moment.event = (b.log s).map Moment.event
  result : (b.runBy id k).1 = (b.run s).1
  retains : (b.runBy id k).2.Retains (b.run s).2

/-- Indexing a file by a build that does alike has the same result. -/
theorem Build.Alike.index {build : Build α} {k s : Service} {o : List Task} {file : FileId}
    (hb : build.Alike k.begin.2 s.begin.2) (h : k.Retains s)
    (hs : Sound (⟨file, s.begin.1⟩ :: o) (build.run s.begin.2).2) :
    (k.indexBy id file build).1 = (s.index file build).1 ∧
      (k.indexBy id file build).2.Retains (s.index file build).2 := by
  obtain ⟨hattempt, hretains⟩ := hb.retains.conclude hs (build.run s.begin.2).1.1
  rw [Service.indexBy_eq, Service.index_eq, hb.result, h.begin_fst, hattempt]
  exact ⟨rfl, hretains⟩

theorem Build.alike (b : Build α) {k s : Service} {o : List Task} (h : k.Retains s) (hs : Sound o s)
    (hin : (b.run s).2.InTime) (hd : ∀ m ∈ b.log s, m.Asks Request.Discreet) : b.Alike k s := by
  induction b generalizing k s o with
  | finish ending notes => exact ⟨rfl, rfl, h⟩
  | ask request next ih =>
    obtain ⟨hd₁, hd⟩ := List.forall_mem_cons.mp hd
    have hrest := (next (s.answer request).1).trace_log (s.answer request).2 o
    have hmid : (s.answer request).2.InTime := hin.of_le hrest.issued_le
    obtain ⟨hreply, hretains⟩ := h.answer hs hmid hd₁
    have hnext := ih (s.answer request).1 hretains (Step.answered.sound hs hmid) hin hd
    refine ⟨?_, ?_, ?_⟩
    · rw [logBy, log, List.map_cons, List.map_cons, hreply, hnext.log]
    · show ((next (k.answerBy id request).1).runBy id (k.answerBy id request).2).1 =
        ((next (s.answer request).1).run (s.answer request).2).1
      rw [hreply, hnext.result]
    · show ((next (k.answerBy id request).1).runBy id (k.answerBy id request).2).2.Retains
        ((next (s.answer request).1).run (s.answer request).2).2
      rw [hreply]
      exact hnext.retains
  | index file build next ihb ihn =>
    have hrest := (next (s.index file build).1.1 (s.index file build).1.2).trace_log (s.index file build).2 o
    obtain ⟨hbegun, hbuilt, hindexed⟩ := hs.index (hin.of_le hrest.issued_le)
    rw [log_index] at hd
    obtain ⟨hdb, hdn⟩ := List.forall_mem_append.mp hd
    have hb := ihb (h.begin hbegun.inTime) hbegun hbuilt.inTime (List.forall_mem_cons.mp hdb).2
    obtain ⟨hindex, hretains⟩ := hb.index h hbuilt
    have hn := ihn (s.index file build).1.1 (s.index file build).1.2 hretains hindexed hin
      (List.forall_mem_cons.mp hdn).2
    refine ⟨?_, ?_, ?_⟩
    · rw [logBy_index, log_index]
      simp only [List.map_append, List.map_cons, hb.log, hb.result, h.begin_fst, hindex, hn.log]
    · rw [runBy_index, run_index, hindex, hn.result]
    · rw [runBy_index, run_index, hindex]
      exact hn.retains

/-- Compaction is unobservable. In every run in which nobody counts tombstones, the same happens without it:
    the same stamps, the same outcome of each build, the same answer to each request. -/
theorem compaction_unobservable (settings : Settings) (program : Build α)
    (discreet : ∀ m ∈ program.log (.fresh settings), m.Asks Request.Discreet)
    (few : (program.run (.fresh settings)).2.InTime) :
    (program.log (.fresh settings)).map Moment.event = (program.logBy id (.fresh settings)).map Moment.event ∧
      (program.run (.fresh settings)).1 = (program.runBy id (.fresh settings)).1 := by
  have h := program.alike (.refl (.fresh settings)) (.fresh settings) few discreet
  exact ⟨h.log.symm, h.result.symm⟩

/-- A program that forgets a file while a build of it runs. -/
def interrupted (file : FileId) : Build Unit :=
  .index file (.ask (.forget file) fun _ => .pure (.ok {}) ()) fun _ _ => .pure (.ok {}) ()

theorem compaction_unobservable_interrupted :
    ((interrupted ⟨"A.java"⟩).run (.fresh .standard)).2.registry.pending = 0 ∧
    ((interrupted ⟨"A.java"⟩).runBy id (.fresh .standard)).2.registry.pending = 1 ∧
    ((interrupted ⟨"A.java"⟩).log (.fresh .standard)).map Moment.event =
      ((interrupted ⟨"A.java"⟩).logBy id (.fresh .standard)).map Moment.event := by
  have discreet : ∀ m ∈ (interrupted ⟨"A.java"⟩).log (.fresh .standard), m.Asks Request.Discreet := by
    simp [interrupted, Build.log, Build.pure, Moment.Asks, Request.Discreet]
  have few : ((interrupted ⟨"A.java"⟩).run (.fresh .standard)).2.InTime := by cbv
  exact ⟨by cbv, by cbv, (compaction_unobservable .standard (interrupted ⟨"A.java"⟩) discreet few).1⟩

end Concordance
