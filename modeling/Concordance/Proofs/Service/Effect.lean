import Concordance.Proofs.Service.Log

/-! What happens to one file in a run. A file is affected when it is forgotten and when a build of it is
    published, and each effect has a stamp. An effect stands (`Stands`) while the file's slot is no older than
    it or all running builds are newer: then no build can still overtake it, whatever compaction does. -/

namespace Concordance

/-- The requests that leave it to the service which stamps stand in the slots: not `put` and `purge`. -/
def Request.Orderly : Request → Prop
  | put _ _ | purge _ => False
  | _ => True

/-- The stamp of what happens to a file at a moment, if something does: it is forgotten at a fresh stamp, or
    a build of it is published, whose stamp is that of its beginning. Clearing forgets the files with slots. -/
def Moment.effect? (file : FileId) (m : Moment) : Option Stamp := match m.event with
  | .answered (.forget f) _ | .answered (.remove f) _ =>
    if f = file then some m.before.registry.nextStamp.1 else none
  | .answered .clear _ => m.after.registry.slots[file]?.map Slot.stamp
  | .ended f stamp _ attempt => if f = file ∧ attempt.isPublished = true then some stamp else none
  | _ => none

/-- What an effect with that stamp does to the slot of its file. -/
inductive Moment.Took (o : List Task) (m : Moment) (o' : List Task) (file : FileId) (u : Stamp) : Prop where
  /-- The file is forgotten at a fresh stamp; its tombstone may have faded at once. -/
  | forgotten (fresh : m.before.now < u) (out : u ≤ m.after.now)
    (slot : m.after.Faded (some (.forgotten u)) m.after.registry.slots[file]?)
  /-- The newest of the running builds ends and takes the place of an older slot, or of none. -/
  | published (top : o = ⟨file, u⟩ :: o') (old : m.before.registry.Older file u)
    (slot : ∃ entry, m.after.registry.slots[file]? = some (.live entry) ∧ entry.stamp = u)

/-- An effect on a file stands: it is out, and a build that would overtake it is too old, for the file's slot
    or for the builds that still run. -/
def Service.Stands (s : Service) (file : FileId) (t : Stamp) : Prop :=
  t ≤ s.now ∧ ((∃ slot, s.registry.slots[file]? = some slot ∧ t ≤ slot.stamp) ∨ ∀ b ∈ s.running, t < b)

variable {o o' : List Task} {s s' : Service} {m : Moment} {l : List Moment} {file : FileId} {t u : Stamp}

/-! ### One moment -/

theorem Step.running (h : Step o m o') (hs : Sound o m.before) :
    ∀ b ∈ m.after.running, b ∈ m.before.running ∨ m.before.now < b := by
  intro b hb
  cases h with
  | began =>
    rcases Service.mem_begin_running.mp hb with rfl | hb
    · exact Or.inr (hs.inTime.lt_upcoming_iff.mpr (Std.le_refl _))
    · exact Or.inl hb
  | answered => exact Or.inl (Service.answer_running _ _ ▸ hb)
  | ended => exact Or.inl (Service.mem_conclude_running.mp hb).2

/-- Forgetting a file replaces its slot by a tombstone, and lets old tombstones fade. -/
theorem Service.faded_forget (hs : Sound o s) (hin : (s.forget file).2.InTime) (f : FileId) :
    (s.forget file).2.Faded (if f = file then some (.forgotten s.upcoming) else s.registry.slots[f]?)
      (s.forget file).2.registry.slots[f]? := by
  have hin : ({ s with registry := (s.registry.remove file).2 } : Service).InTime :=
    Service.inTime_compact_iff.mp hin
  have hf := Service.faded_compact hin
    (fun b hb => Std.le_trans (hs.running_le b hb) (hin.now_le (Nat.le_succ _))) f
  rw [Registry.slots_remove] at hf
  exact hf

/-- Where nothing happens to a file, its slot fades at most. -/
theorem Step.faded (h : Step o m o') (hs : Sound o m.before) (hin : m.after.InTime) (ho : m.Asks Request.Orderly)
    (he : m.effect? file = none) : m.after.Faded m.before.registry.slots[file]? m.after.registry.slots[file]? := by
  cases h with
  | began => exact .refl _ _
  | @answered _ s request =>
    cases request with
    | put | purge => exact ho.elim
    | forget f =>
      have hf := Service.faded_forget hs hin file
      have hne : file ≠ f := fun heq => by simp [Moment.effect?, heq] at he
      rwa [if_neg hne] at hf
    | remove f =>
      have hne : file ≠ f := fun heq => by simp [Moment.effect?, heq] at he
      exact Or.inl (Registry.slots_remove.trans (if_neg hne))
    | clear =>
      have hnone : s.registry.clear.slots[file]? = none := Option.map_eq_none_iff.mp he
      cases hslot : s.registry.slots[file]? with
      | none => exact Or.inl hnone
      | some slot =>
        obtain ⟨n, -, -, hn⟩ := Registry.slots_clear_of_some hslot
        cases hnone.symm.trans hn
    | _ => exact .refl _ _
  | @ended o s f stamp ending =>
    obtain ⟨r, hr, hslots, heq⟩ := Service.exists_conclude_snd s f stamp ending
    have hfile : r.slots[file]? = s.registry.slots[file]? := hslots file fun hff => by
      simpa [Moment.effect?, hff] using he
    have hf := Service.faded_retire (s := { s with registry := r }) (t := stamp) (by
      rw [Service.InTime, hr]
      exact hs.inTime) (fun b hb => by
      rw [Service.now, Registry.currentStamp, hr]
      exact hs.running_le b hb) file
    rw [← heq] at hf
    rw [← hfile]
    exact hf

/-- Where something happens to a file, its slot is taken. -/
theorem Step.took (h : Step o m o') (hs : Sound o m.before) (hin : m.after.InTime)
    (he : m.effect? file = some u) : m.Took o o' file u := by
  have hnow : m.before.now < m.before.upcoming := hs.inTime.lt_upcoming_iff.mpr (Std.le_refl _)
  cases h with
  | began => cases he
  | @answered _ s request =>
    cases request with
    | forget f =>
      obtain ⟨rfl, hu⟩ := Option.ite_none_right_eq_some.mp he
      obtain rfl := Option.some.inj hu
      have hf := Service.faded_forget hs hin f
      rw [if_pos rfl] at hf
      exact .forgotten hnow (Std.le_of_eq Service.forget_now.symm) hf
    | remove f =>
      obtain ⟨rfl, hu⟩ := Option.ite_none_right_eq_some.mp he
      obtain rfl := Option.some.inj hu
      exact .forgotten hnow (Std.le_refl _) (Or.inl (Registry.slots_remove.trans (if_pos rfl)))
    | clear =>
      obtain ⟨slot, hslot, rfl⟩ := Option.map_eq_some_iff.mp he
      cases hold : s.registry.slots[file]? with
      | none => cases hslot.symm.trans (Registry.slots_clear_of_none hold)
      | some old =>
        obtain ⟨n, hlt, hle, hn⟩ := Registry.slots_clear_of_some hold
        obtain rfl : slot = .forgotten (.nth n) := Option.some.inj (hslot.symm.trans hn)
        have hnth : (Stamp.nth n).toNat = n := hin.toNat_nth hle
        refine .forgotten (Stamp.lt_iff.mpr ?_) (Stamp.le_iff.mpr ?_) (Or.inl hslot)
        · rw [Slot.stamp, hs.inTime.toNat_now, hnth]
          exact hlt
        · rw [Slot.stamp, hin.toNat_now, hnth]
          exact hle
    | _ => cases he
  | @ended o s f stamp ending =>
    obtain ⟨⟨rfl, hp⟩, hu⟩ := Option.ite_none_right_eq_some.mp he
    obtain rfl := Option.some.inj hu
    obtain ⟨summary, -, hget⟩ := Service.get?_conclude_of_isPublished hp
    have hlive := Registry.get?_eq_some_iff.mp ((hget f).trans (if_pos rfl))
    exact .published rfl (Service.isPublished_conclude_iff.mp hp).2 ⟨.ofSummary summary stamp, hlive, rfl⟩

/-- What stands is older than the next effect. -/
theorem Moment.Took.lt (h : m.Took o o' file u) (hs : Sound o m.before) (ht : m.before.Stands file t) : t < u := by
  cases h with
  | forgotten fresh => exact Std.lt_of_le_of_lt ht.1 fresh
  | published top old =>
    rcases ht.2 with ⟨slot, hslot, hle⟩ | hrun
    · exact Std.lt_of_le_of_lt hle (old slot hslot)
    · exact hrun u (hs.running.mpr ⟨⟨file, u⟩, top ▸ List.mem_cons_self, rfl⟩)

/-- An effect is newer than the builds that run on. -/
theorem Moment.Took.lt_of_mem {x : Task} (h : m.Took o o' file u) (hs : Sound o m.before) (hx : x ∈ o')
    (hold : x.stamp ≤ m.before.now) : x.stamp < u := by
  cases h with
  | forgotten fresh => exact Std.lt_of_le_of_lt hold fresh
  | published top =>
    have hnewest := hs.newest
    rw [top] at hnewest
    exact (List.pairwise_cons.mp hnewest).1 x hx

/-- If the file has a slot after an effect, it has the stamp of the effect. -/
theorem Moment.Took.stamp_eq (h : m.Took o o' file u) {slot : Slot}
    (hslot : m.after.registry.slots[file]? = some slot) : slot.stamp = u := by
  cases h with
  | forgotten fresh out faded =>
    rcases faded with hsame | ⟨hnone, -⟩
    · obtain rfl := Option.some.inj (hslot.symm.trans hsame)
      rfl
    · exact nomatch hslot.symm.trans hnone
  | published top old live =>
    obtain ⟨entry, hentry, rfl⟩ := live
    obtain rfl := Option.some.inj (hslot.symm.trans hentry)
    rfl

/-- An effect stands. -/
theorem Moment.Took.stands (h : m.Took o o' file u) (hs : Sound o m.before) (hnow : m.before.now ≤ m.after.now) :
    m.after.Stands file u := by
  cases h with
  | forgotten fresh out slot =>
    rcases slot with hslot | ⟨-, v, hv, -, hrun⟩
    · exact ⟨out, Or.inl ⟨_, hslot, Std.le_refl _⟩⟩
    · cases hv
      exact ⟨out, Or.inr hrun⟩
  | published top old slot =>
    obtain ⟨entry, hslot, rfl⟩ := slot
    have hout := hs.issued ⟨file, entry.stamp⟩ (top ▸ List.mem_cons_self)
    exact ⟨Std.le_trans hout hnow, Or.inl ⟨_, hslot, Std.le_refl _⟩⟩

/-- What stands goes on to stand, whether the file is affected again or its slot fades. -/
theorem Step.stands (h : Step o m o') (hs : Sound o m.before) (hin : m.after.InTime) (ho : m.Asks Request.Orderly)
    (ht : m.before.Stands file t) : m.after.Stands file t := by
  have hnow : m.before.now ≤ m.after.now := hin.now_le h.issued_le
  have hout : t ≤ m.after.now := Std.le_trans ht.1 hnow
  cases he : m.effect? file with
  | some u =>
    have htook := h.took hs hin he
    have hlt : t < u := htook.lt hs ht
    refine ⟨hout, (htook.stands hs hnow).2.imp ?_ fun hrun b hb => Std.lt_trans hlt (hrun b hb)⟩
    rintro ⟨slot, hslot, hle⟩
    exact ⟨slot, hslot, Std.le_of_lt (Std.lt_of_lt_of_le hlt hle)⟩
  | none =>
    refine ⟨hout, ?_⟩
    rcases ht.2 with ⟨slot, hslot, hle⟩ | hrun
    · rcases h.faded hs hin ho he with hsame | ⟨-, v, hv, -, hrun⟩
      · exact Or.inl ⟨slot, hsame.trans hslot, hle⟩
      · obtain rfl : slot = .forgotten v := Option.some.inj (hslot.symm.trans hv)
        exact Or.inr fun b hb => Std.lt_of_le_of_lt hle (hrun b hb)
    · refine Or.inr fun b hb => ?_
      rcases h.running hs b hb with hb | hb
      · exact hrun b hb
      · exact Std.lt_of_le_of_lt ht.1 hb

/-! ### Many moments -/

namespace Trace

variable {s s' : Service}

theorem stands (h : Trace o s l o' s') (hs : Sound o s) (hin : s'.InTime) (ho : ∀ m ∈ l, m.Asks Request.Orderly)
    (ht : s.Stands file t) : s'.Stands file t := by
  induction h with
  | nil => exact ht
  | cons hstep h ih =>
    have hmid := hin.of_le h.issued_le
    obtain ⟨ho₁, ho⟩ := List.forall_mem_cons.mp ho
    exact ih (hstep.sound hs hmid) hin ho (hstep.stands hs hmid ho₁ ht)

/-- Each effect belongs to a moment that takes the file's slot. -/
theorem exists_took (h : Trace o s l o' s') (hs : Sound o s) (hin : s'.InTime)
    (hu : u ∈ l.filterMap (·.effect? file)) :
    ∃ l₁ m l₂ o₁ o₂, l = l₁ ++ m :: l₂ ∧ Trace o s l₁ o₁ m.before ∧ Trace o₂ m.after l₂ o' s' ∧
      Sound o₁ m.before ∧ Sound o₂ m.after ∧ m.Took o₁ o₂ file u ∧ m.before.now ≤ m.after.now := by
  obtain ⟨m, hm, he⟩ := List.mem_filterMap.mp hu
  obtain ⟨l₁, l₂, rfl⟩ := List.append_of_mem hm
  obtain ⟨o₁, o₂, h₁, hsound, hstep, hsound', h₂⟩ := h.sound_through hs hin
  exact ⟨l₁, m, l₂, o₁, o₂, rfl, h₁, h₂, hsound, hsound', hstep.took hsound hsound'.inTime he,
    hsound'.inTime.now_le hstep.issued_le⟩

/-- What stands is older than every effect to come. -/
theorem lt_of_effect (h : Trace o s l o' s') (hs : Sound o s) (hin : s'.InTime) (ho : ∀ m ∈ l, m.Asks Request.Orderly)
    (ht : s.Stands file t) (hu : u ∈ l.filterMap (·.effect? file)) : t < u := by
  obtain ⟨l₁, m, l₂, o₁, o₂, rfl, h₁, -, hsound, -, htook, -⟩ := h.exists_took hs hin hu
  have ho₁ := (List.forall_mem_append.mp ho).1
  exact htook.lt hsound (h₁.stands hs hsound.inTime ho₁ ht)

/-- An effect stands for the rest of the trace. -/
theorem stands_of_effect (h : Trace o s l o' s') (hs : Sound o s) (hin : s'.InTime)
    (ho : ∀ m ∈ l, m.Asks Request.Orderly) (hu : u ∈ l.filterMap (·.effect? file)) : s'.Stands file u := by
  obtain ⟨l₁, m, l₂, o₁, o₂, rfl, -, h₂, hsound, hsound', htook, hnow⟩ := h.exists_took hs hin hu
  have ho₂ := (List.forall_mem_cons.mp (List.forall_mem_append.mp ho).2).2
  exact h₂.stands hsound' hin ho₂ (htook.stands hsound hnow)

/-- The effects that come while a build runs are newer than the build. -/
theorem lt_of_running {x : Task} (h : Trace o s l o' s') (hs : Sound o s) (hin : s'.InTime) (hx : x ∈ o')
    (hold : x.stamp ≤ s.now) (hu : u ∈ l.filterMap (·.effect? file)) : x.stamp < u := by
  obtain ⟨l₁, m, l₂, o₁, o₂, rfl, h₁, h₂, hsound, -, htook, hnow⟩ := h.exists_took hs hin hu
  have hold₁ : x.stamp ≤ m.before.now := Std.le_trans hold (hsound.inTime.now_le h₁.issued_le)
  exact htook.lt_of_mem hsound (h₂.mem_of_mem hin hx (Std.le_trans hold₁ hnow)) hold₁

/-- A build that something overtook finds nothing older to replace. -/
theorem not_older {x : Task} (h : Trace o s l o' s') (hs : Sound o s) (hin : s'.InTime)
    (ho : ∀ m ∈ l, m.Asks Request.Orderly) (hx : x ∈ o') (hold : x.stamp ≤ s.now)
    (hu : u ∈ l.filterMap (·.effect? file)) : ¬s'.registry.Older file x.stamp := by
  intro holder
  have hlt : x.stamp < u := h.lt_of_running hs hin hx hold hu
  rcases (h.stands_of_effect hs hin ho hu).2 with ⟨slot, hslot, hle⟩ | hrun
  · exact Std.lt_irrefl (Std.lt_trans hlt (Std.lt_of_le_of_lt hle (holder slot hslot)))
  · exact Std.lt_irrefl (Std.lt_trans hlt (hrun _ ((h.sound hs hin).running.mpr ⟨x, hx, rfl⟩)))

/-- Where nothing happens to a file that has no slot, it gets none. -/
theorem slots_eq_none (h : Trace o s l o' s') (hs : Sound o s) (hin : s'.InTime)
    (ho : ∀ m ∈ l, m.Asks Request.Orderly) (he : l.filterMap (·.effect? file) = [])
    (hnone : s.registry.slots[file]? = none) :
    s'.registry.slots[file]? = none := by
  induction h with
  | nil => exact hnone
  | cons hstep h ih =>
    have hmid := hin.of_le h.issued_le
    obtain ⟨ho₁, ho⟩ := List.forall_mem_cons.mp ho
    obtain ⟨he₁, he⟩ := List.forall_mem_cons.mp (List.filterMap_eq_nil_iff.mp he)
    exact ih (hstep.sound hs hmid) hin ho (List.filterMap_eq_nil_iff.mpr he)
      (hnone ▸ hstep.faded hs hmid ho₁ he₁).of_none

/-- The effects on a file are in the order of their stamps. -/
theorem pairwise_effects (h : Trace o s l o' s') (hs : Sound o s) (hin : s'.InTime)
    (ho : ∀ m ∈ l, m.Asks Request.Orderly) : (l.filterMap (·.effect? file)).Pairwise (· < ·) := by
  induction h with
  | nil => exact .nil
  | @cons o o₁ o₂ m l s' hstep h ih =>
    have hmid := hin.of_le h.issued_le
    have hsound := hstep.sound hs hmid
    obtain ⟨ho₁, ho⟩ := List.forall_mem_cons.mp ho
    cases he : m.effect? file with
    | none =>
      rw [List.filterMap_cons_none he]
      exact ih hsound hin ho
    | some u =>
      rw [List.filterMap_cons_some he, List.pairwise_cons]
      have hu := (hstep.took hs hmid he).stands hs (hmid.now_le hstep.issued_le)
      exact ⟨fun v hv => h.lt_of_effect hsound hin ho hu hv, ih hsound hin ho⟩

end Trace

end Concordance
