import Mathlib
import Concordance.Proofs.Registry.Tombstones
import Concordance.Proofs.Service.Effect

/-! What builds leave behind: nothing. However a build ends, it is off the list of running builds, and the
    tombstones that no running build is older than go with it. Every change that a run makes to the registry is
    made of writes, so each forgotten file keeps its record, and a record never has the stamp of a build
    (`Accounted`): what is left after a compaction is newer than the oldest running build. -/

namespace Concordance

def Moment.Begins (m : Moment) (x : Task) : Prop := m.event = .began x.file x.stamp

def Moment.Ends (m : Moment) (x : Task) : Prop :=
  ∃ ending attempt, m.event = .ended x.file x.stamp ending attempt

/-- A build is under way after some moments: it began in them and did not end in them. -/
def Underway (l : List Moment) (x : Task) : Prop := (∃ m ∈ l, m.Begins x) ∧ ∀ m ∈ l, ¬m.Ends x

/-- The moments at which the service compacts: a build ends, in whichever way, or a file is forgotten. -/
def Moment.Compacts (m : Moment) : Prop := match m.event with
  | .ended _ _ _ _ | .answered (.forget _) _ => True
  | _ => False

variable {α : Type} {o o' : List Task} {s s' : Service} {m : Moment} {l : List Moment} {x : Task}

/-! ### The builds under way -/

/-- What is on the stack after a moment was there before or begins at it, and does not end at it. -/
theorem Step.mem_stack_iff (h : Step o m o') (hs : Sound o m.before) :
    x ∈ o' ↔ (x ∈ o ∨ m.Begins x) ∧ ¬m.Ends x := by
  obtain ⟨file', stamp'⟩ := x
  cases h with
  | began => simp [Moment.Begins, Moment.Ends, or_comm, eq_comm]
  | answered => simp [Moment.Begins, Moment.Ends]
  | @ended o s file stamp ending =>
    have hnewest : ∀ y ∈ o', y.stamp < stamp := (List.pairwise_cons.mp hs.newest).1
    have hgone : ⟨file, stamp⟩ ∉ o' := fun h => Std.lt_irrefl (hnewest _ h)
    have hends : (∃ e a, Event.ended file stamp ending (s.conclude file stamp ending).1 = .ended file' stamp' e a) ↔
        Task.mk file' stamp' = ⟨file, stamp⟩ := by
      simp [eq_comm]
    simp only [Moment.Begins, Moment.Ends, hends, List.mem_cons, reduceCtorEq, or_false]
    constructor
    · exact fun h => ⟨Or.inr h, fun he => hgone (he ▸ h)⟩
    · exact fun h => h.1.resolve_left h.2

/-- A build that begins in a trace is newer than all builds from before. -/
theorem Trace.now_lt_of_begins (h : Trace o s l o' s') (hs : Sound o s) (hin : s'.InTime) (hm : m ∈ l)
    (hx : m.Begins x) : s.now < x.stamp := by
  obtain ⟨l₁, l₂, rfl⟩ := List.append_of_mem hm
  obtain ⟨o₁, o₂, h₁, hsound, hstep, -, -⟩ := h.sound_through hs hin
  cases hstep with
  | began =>
    rw [← (Event.began.inj hx).2]
    exact hsound.inTime.lt_upcoming_iff.mpr (hsound.inTime.now_le h₁.issued_le)
  | answered | ended => cases hx

theorem Trace.mem_stack_iff (h : Trace o s l o' s') (hs : Sound o s) (hin : s'.InTime) :
    x ∈ o' ↔ (x ∈ o ∨ ∃ m ∈ l, m.Begins x) ∧ ∀ m ∈ l, ¬m.Ends x := by
  induction h with
  | nil => simp
  | @cons o o₁ o₂ m l s' hstep h ih =>
    have hmid := hin.of_le h.issued_le
    have hsound := hstep.sound hs hmid
    have hlate : (∃ m ∈ l, m.Begins x) → ¬m.Ends x := by
      rintro ⟨m', hm', hbegins⟩ ⟨ending, attempt, hends⟩
      have hx : x ∈ o := (hstep.ended_eq hends).1 ▸ List.mem_cons_self
      have hle := Std.le_trans (hs.issued x hx) (hmid.now_le hstep.issued_le)
      exact Std.not_le_of_gt (h.now_lt_of_begins hsound hin hm' hbegins) hle
    rw [ih hsound hin, hstep.mem_stack_iff hs, List.forall_mem_cons]
    simp only [List.mem_cons, exists_eq_or_imp]
    constructor
    · rintro ⟨⟨h, hno⟩ | h, hnone⟩
      · exact ⟨h.elim Or.inl (Or.inr ∘ Or.inl), hno, hnone⟩
      · exact ⟨Or.inr (Or.inr h), hlate h, hnone⟩
    · rintro ⟨h | h | h, hno, hnone⟩
      · exact ⟨Or.inl ⟨Or.inl h, hno⟩, hnone⟩
      · exact ⟨Or.inl ⟨Or.inr h, hno⟩, hnone⟩
      · exact ⟨Or.inr h, hnone⟩

/-- After a trace of a fresh service the stack holds the builds under way. -/
theorem Trace.mem_stack_iff_underway {settings : Settings} (h : Trace [] (.fresh settings) l o s) (hin : s.InTime) :
    x ∈ o ↔ Underway l x := by
  rw [h.mem_stack_iff (.fresh settings) hin, Underway]
  simp

/-! ### The changes to the registry are writes -/

/-- Ending a build publishes it or not, and then compacts. -/
theorem Service.exists_writes_conclude (s : Service) (file : FileId) (stamp : Stamp) (ending : Ending) :
    ∃ writes, (s.conclude file stamp ending).2.registry = s.registry.writeAll writes := by
  cases hp : (s.conclude file stamp ending).1.isPublished with
  | true =>
    obtain ⟨ho, hold⟩ := isPublished_conclude_iff.mp hp
    obtain ⟨summary, ho⟩ := Option.isSome_iff_exists.mp ho
    rw [(conclude_of_offer ho hold).2]
    let published : Service := { s with
      registry := s.registry.publishing file stamp summary
      running := s.running.erase stamp }
    refine ⟨[.put file (.ofSummary summary stamp), .purge published.lowWater], ?_⟩
    simp only [Registry.writeAll, List.foldl_cons, List.foldl_nil, Registry.write, Registry.put_of_older hold]
    rfl
  | false =>
    rw [conclude_snd_of_not_isPublished hp]
    exact ⟨[.purge _], rfl⟩

theorem Service.exists_writes_answer (s : Service) (request : Request) :
    ∃ writes, (s.answer request).2.registry = s.registry.writeAll writes := by
  cases request with
  | forget file => exact ⟨[.remove file, .purge _], rfl⟩
  | put file entry => exact ⟨[.put file entry], rfl⟩
  | remove file => exact ⟨[.remove file], rfl⟩
  | nextStamp => exact ⟨[.nextStamp], rfl⟩
  | purge cutoff => exact ⟨[.purge cutoff], rfl⟩
  | clear => exact ⟨[.clear], rfl⟩
  | _ => exact ⟨[], rfl⟩

/-! ### The records -/

/-- Each forgotten file has its record, and the records have stamps that are out and belong to no running
    build. -/
structure Service.Accounted (s : Service) : Prop where
  tracked : s.registry.Tracked
  out : ∀ t ∈ s.registry.tombstones, t.stamp ≤ s.now
  apart : ∀ t ∈ s.registry.tombstones, t.stamp ∉ s.running

namespace Service.Accounted

theorem fresh (settings : Settings) : (Service.fresh settings).Accounted where
  tracked := Registry.tracked_empty
  out t ht := by simp [Service.fresh] at ht
  apart t ht := by simp [Service.fresh] at ht

/-- Writes make records of fresh stamps, which no build has that was running before. -/
theorem of_writes (h : s.Accounted) (hrun : ∀ b ∈ s.running, b ≤ s.now) (hin : s'.InTime) {writes : List Write}
    (hwrites : s'.registry = s.registry.writeAll writes) (hsub : ∀ b ∈ s'.running, b ∈ s.running) :
    s'.Accounted := by
  have hle : s.registry.issued ≤ s'.registry.issued := hwrites ▸ Registry.issued_le_writeAll _ writes
  have hcases : ∀ t ∈ s'.registry.tombstones,
      t ∈ s.registry.tombstones ∨ s.now < t.stamp ∧ t.stamp ≤ s'.now := by
    intro t ht
    rw [hwrites] at ht
    refine (Registry.mem_writeAll_tombstones writes ht).imp id ?_
    rintro ⟨n, hlt, hn, hstamp⟩
    rw [← hwrites] at hn
    rw [hstamp, Stamp.lt_iff, Stamp.le_iff, hin.toNat_nth hn, hin.toNat_now, (hin.of_le hle).toNat_now]
    exact ⟨hlt, hn⟩
  refine ⟨hwrites ▸ h.tracked.writeAll writes, fun t ht => ?_, fun t ht hmem => ?_⟩
  · rcases hcases t ht with hold | ⟨-, hnew⟩
    · exact Std.le_trans (h.out t hold) (hin.now_le hle)
    · exact hnew
  · rcases hcases t ht with hold | ⟨hnew, -⟩
    · exact h.apart t hold (hsub _ hmem)
    · exact Std.not_le_of_gt hnew (hrun _ (hsub _ hmem))

end Service.Accounted

theorem Step.accounted (h : Step o m o') (hs : Sound o m.before) (hin : m.after.InTime) (ha : m.before.Accounted) :
    m.after.Accounted := by
  cases h with
  | @began _ s file =>
    refine ⟨ha.tracked, fun t ht => ?_, fun t ht hmem => ?_⟩
    · exact Std.le_trans (ha.out t ht) (hin.now_le (Nat.le_succ _))
    · rcases Service.mem_begin_running.mp hmem with hnew | hold
      · exact Std.not_le_of_gt (hs.inTime.lt_upcoming_iff.mpr (ha.out t ht)) (Std.le_of_eq hnew.symm)
      · exact ha.apart t ht hold
  | @answered _ s request =>
    obtain ⟨writes, hwrites⟩ := s.exists_writes_answer request
    exact ha.of_writes hs.running_le hin hwrites fun b hb => Service.answer_running _ _ ▸ hb
  | @ended _ s file stamp ending =>
    obtain ⟨writes, hwrites⟩ := s.exists_writes_conclude file stamp ending
    exact ha.of_writes hs.running_le hin hwrites fun b hb => (Service.mem_conclude_running.mp hb).2

theorem Trace.accounted (h : Trace o s l o' s') (hs : Sound o s) (hin : s'.InTime) (ha : s.Accounted) :
    s'.Accounted := by
  induction h with
  | nil => exact ha
  | cons hstep h ih =>
    have hmid := hin.of_le h.issued_le
    exact ih (hstep.sound hs hmid) hin (hstep.accounted hs hmid ha)

/-! ### What a compaction leaves -/

namespace Service

theorem lowWater_compact (s : Service) : s.compact.lowWater = s.lowWater := by
  show s.running.min?.getD s.compact.now.next = s.running.min?.getD s.now.next
  rw [compact_now]

theorem lowWater_eq_of_oldest {oldest : Stamp} (hmem : oldest ∈ s.running) (hmin : ∀ b ∈ s.running, oldest ≤ b) :
    s.lowWater = oldest := by
  have hmin? : s.running.min? = some oldest := Std.ExtTreeSet.min?_eq_some_iff_mem_and_forall.mpr
    ⟨hmem, fun b hb => Stamp.isLE_compare.mpr (hmin b hb)⟩
  rw [lowWater, hmin?, Option.getD_some]

theorem lowWater_eq_of_none (hnone : ∀ b, b ∉ s.running) : s.lowWater = s.upcoming := by
  have hmin? : s.running.min? = none :=
    Std.ExtTreeSet.min?_eq_none_iff.mpr (Std.ExtTreeSet.ext_mem fun b => by simp [hnone b])
  rw [lowWater, hmin?, Option.getD_none, Registry.currentStamp, Stamp.next_nth]

/-- A compaction leaves no record from before the low-water mark. -/
def Swept (s : Service) : Prop := ∀ t ∈ s.registry.tombstones, s.lowWater ≤ t.stamp

theorem swept_compact (s : Service) : s.compact.Swept := by
  intro t ht
  rw [lowWater_compact]
  exact (Registry.mem_purge_tombstones.mp ht).2

namespace Accounted

/-- What is left of the records when builds are running is newer than the oldest of these. -/
theorem lt_of_oldest (h : s.Accounted) (hswept : s.Swept) {oldest : Stamp} (hmem : oldest ∈ s.running)
    (hmin : ∀ b ∈ s.running, oldest ≤ b) : ∀ t ∈ s.registry.tombstones, oldest < t.stamp := by
  intro t ht
  have hle : oldest ≤ t.stamp := lowWater_eq_of_oldest hmem hmin ▸ hswept t ht
  have hne : oldest ≠ t.stamp := fun heq => h.apart t ht (heq ▸ hmem)
  exact Std.lt_of_le_of_ne hle hne

/-- No record is left when no build is running. -/
theorem not_mem_tombstones (h : s.Accounted) (hswept : s.Swept) (hin : s.InTime) (hnone : ∀ b, b ∉ s.running)
    (t : Tombstone) : t ∉ s.registry.tombstones := by
  intro ht
  have hle : s.upcoming ≤ t.stamp := lowWater_eq_of_none hnone ▸ hswept t ht
  exact Std.not_le_of_gt (hin.lt_upcoming_iff.mpr (h.out t ht)) hle

/-- A slot without a record is live. -/
theorem isLive_of_not_mem (h : s.Accounted) (hnone : ∀ t, t ∉ s.registry.tombstones) {f : FileId} {slot : Slot}
    (hslot : s.registry.slots[f]? = some slot) : slot.isLive = true := by
  cases slot with
  | live entry => rfl
  | forgotten t => exact absurd (h.tracked f t hslot) (hnone _)

end Accounted

end Service

theorem Step.swept (h : Step o m o') (hm : m.Compacts) : m.after.Swept := by
  cases h with
  | began => cases hm
  | @answered _ s request =>
    cases request with
    | forget file => exact Service.swept_compact _
    | _ => cases hm
  | @ended _ s file stamp ending =>
    obtain ⟨r, -, -, hconclude⟩ := s.exists_conclude_snd file stamp ending
    rw [hconclude]
    exact Service.swept_compact _

/-- Nothing is pinned and nothing leaks, in every run of the service. Whenever a build has ended, by success,
    failure or crash, and whenever a file was forgotten, the service lists just the builds under way; the
    tombstones and the slots of forgotten files are newer than the oldest of these; and if there is none, no
    tombstone is left and every slot is live. -/
theorem nothing_left_over (settings : Settings) (program : Build α)
    (few : (program.run (.fresh settings)).2.InTime) (earlier later : List Moment) (m : Moment)
    (log : program.log (.fresh settings) = earlier ++ m :: later) (compacts : m.Compacts) :
    (∀ b, b ∈ m.after.running ↔ ∃ x, Underway (earlier ++ [m]) x ∧ x.stamp = b) ∧
    (∀ x, Underway (earlier ++ [m]) x → (∀ y, Underway (earlier ++ [m]) y → x.stamp ≤ y.stamp) →
      (∀ t ∈ m.after.registry.tombstones, x.stamp < t.stamp) ∧
      ∀ (f : FileId) t, m.after.registry.slots[f]? = some (.forgotten t) → x.stamp < t) ∧
    ((∀ x, ¬Underway (earlier ++ [m]) x) → m.after.registry.tombstones = ∅ ∧
      ∀ (f : FileId) slot, m.after.registry.slots[f]? = some slot → slot.isLive = true) := by
  have h := program.trace_log (.fresh settings) []
  rw [log] at h
  obtain ⟨o₁, o₂, hearlier, hs₁, hstep, hs₂, -⟩ := h.sound_through (.fresh settings) few
  have hin : m.after.InTime := hs₂.inTime
  have hstack : ∀ x, x ∈ o₂ ↔ Underway (earlier ++ [m]) x := fun x =>
    (hearlier.append (.cons hstep .nil)).mem_stack_iff_underway hin
  have hrunning : ∀ b, b ∈ m.after.running ↔ ∃ x, Underway (earlier ++ [m]) x ∧ x.stamp = b := by
    intro b
    rw [hs₂.running]
    simp only [hstack]
  have haccounted : m.after.Accounted :=
    hstep.accounted hs₁ hin (hearlier.accounted (.fresh settings) hs₁.inTime (.fresh settings))
  have hswept : m.after.Swept := hstep.swept compacts
  refine ⟨hrunning, fun x hx hmin => ?_, fun hnone => ?_⟩
  · have hnewer := haccounted.lt_of_oldest hswept ((hrunning _).mpr ⟨x, hx, rfl⟩) fun b hb => by
      obtain ⟨y, hy, rfl⟩ := (hrunning b).mp hb
      exact hmin y hy
    exact ⟨hnewer, fun f t hslot => hnewer _ (haccounted.tracked f t hslot)⟩
  · have hempty := haccounted.not_mem_tombstones hswept hin fun b hb => by
      obtain ⟨x, hx, -⟩ := (hrunning b).mp hb
      exact hnone x hx
    exact ⟨Std.ExtTreeSet.ext_mem fun t => by simp [hempty t], fun f slot => haccounted.isLive_of_not_mem hempty⟩

/-- A build that forgets another file and then crashes. -/
def crashing (file : FileId) : Build Unit := .ask (.forget file) fun _ => .finish (.error ⟨"crash"⟩) ()

/-- The tombstone that a build leaves stays while the build runs, and goes with it when it crashes. -/
theorem nothing_left_over_crashed :
    let program := Build.index ⟨"A.java"⟩ (crashing ⟨"B.java"⟩) fun _ _ => .pure (.ok {}) ()
    ∃ began forgot ended, program.log (.fresh .standard) = [began, forgot, ended] ∧
      forgot.after.registry.tombstones.toList = [⟨.nth 2, ⟨"B.java"⟩⟩] ∧
      (∀ t ∈ forgot.after.registry.tombstones, .nth 1 < t.stamp) ∧
      ended.after.registry.tombstones = ∅ := by
  intro program
  have few : (program.run (.fresh .standard)).2.InTime := by cbv
  refine ⟨_, _, _, rfl, by cbv, ?_, ?_⟩
  · have h := nothing_left_over .standard program few [_] [_] _ rfl trivial
    refine (h.2.1 ⟨⟨"A.java"⟩, .nth 1⟩ ?_ ?_).1
    · simp [Underway, Moment.Begins, Moment.Ends]
      rfl
    · simp [Underway, Moment.Begins, Moment.Ends]
      intro y _ hstamp
      exact Std.le_of_eq hstamp
  · have h := nothing_left_over .standard program few [_, _] [] _ rfl trivial
    refine (h.2.2 ?_).1
    simp [Underway, Moment.Begins, Moment.Ends]

end Concordance
