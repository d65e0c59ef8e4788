import Concordance.Proofs.Service.Log

/-! Slots and the clock. Unless entries are put past the service, whatever stands in a slot has a stamp that the clock
    has handed out. So a build is newer, when it begins, than all that is known of its file. -/

namespace Concordance

/-- The requests that bring in no stamps of their own: all but `put`. -/
def Request.Clocked : Request → Prop
  | put _ _ => False
  | _ => True

variable {o o' : List Task} {s s' : Service} {m : Moment} {l : List Moment} {f file : FileId} {slot : Slot}

namespace Service

/-- No slot is ahead of the clock. -/
def Punctual (s : Service) : Prop :=
  ∀ (f : FileId) (slot : Slot), s.registry.slots[f]? = some slot → slot.stamp ≤ s.now

theorem punctual_fresh (settings : Settings) : (fresh settings).Punctual := by
  intro f slot hslot
  simp [fresh] at hslot

theorem Punctual.older (h : s.Punctual) (hin : s.InTime) (file : FileId) :
    s.begin.2.registry.Older file s.begin.1 := by
  intro slot hslot
  exact hin.lt_upcoming_iff.mpr (h file slot hslot)

theorem slots_of_remove (h : (s.registry.remove file).2.slots[f]? = some slot) :
    s.registry.slots[f]? = some slot ∨ slot.stamp = s.upcoming := by
  rw [Registry.slots_remove] at h
  split at h
  · obtain rfl := Option.some.inj h
    exact Or.inr rfl
  · exact Or.inl h

/-- A request leaves older slots, or writes some at the time of the request. -/
theorem slots_of_answer (request : Request) (ho : request.Clocked) (hin : (s.answer request).2.InTime)
    (h : (s.answer request).2.registry.slots[f]? = some slot) :
    s.registry.slots[f]? = some slot ∨ slot.stamp ≤ (s.answer request).2.now := by
  cases request with
  | put file entry => exact ho.elim
  | forget file =>
    have hnow : (s.answer (.forget file)).2.now = s.upcoming := forget_now
    rw [hnow]
    exact (slots_of_remove (slots_of_compact h)).imp id Std.le_of_eq
  | remove file => exact (slots_of_remove h).imp id Std.le_of_eq
  | purge cutoff =>
    rcases Registry.slots_purge s.registry cutoff f with hsame | ⟨hnone, -⟩
    · exact Or.inl (hsame.symm.trans h)
    · exact nomatch hnone.symm.trans h
  | clear =>
    have h : s.registry.clear.slots[f]? = some slot := h
    cases hold : s.registry.slots[f]? with
    | none => exact nomatch (Registry.slots_clear_of_none hold).symm.trans h
    | some old =>
      obtain ⟨n, -, hle, hn⟩ := Registry.slots_clear_of_some hold
      obtain rfl := Option.some.inj (hn.symm.trans h)
      refine Or.inr (Stamp.le_iff.mpr ?_)
      rw [Slot.stamp, hin.toNat_nth hle, hin.toNat_now]
      exact hle
  | _ => exact Or.inl h

end Service

theorem Step.punctual (h : Step o m o') (hs : Sound o m.before) (hin : m.after.InTime)
    (ho : m.Asks Request.Clocked) (hp : m.before.Punctual) : m.after.Punctual := by
  intro f slot hslot
  have hold : m.before.registry.slots[f]? = some slot → slot.stamp ≤ m.after.now := fun hold =>
    Std.le_trans (hp f slot hold) (hin.now_le h.issued_le)
  cases h with
  | began => exact hold hslot
  | answered =>
    rcases Service.slots_of_answer _ ho hin hslot with hbefore | hnew
    · exact hold hbefore
    · exact hnew
  | @ended _ s file stamp ending =>
    rcases Service.slots_of_conclude hslot with hbefore | hstamp
    · exact hold hbefore
    · rw [hstamp]
      exact Std.le_trans (hs.issued _ List.mem_cons_self) (hin.now_le (Nat.le_of_eq Service.conclude_issued.symm))

theorem Trace.punctual (h : Trace o s l o' s') (hs : Sound o s) (hin : s'.InTime)
    (ho : ∀ m ∈ l, m.Asks Request.Clocked) (hp : s.Punctual) : s'.Punctual := by
  induction h with
  | nil => exact hp
  | cons hstep h ih =>
    have hmid := hin.of_le h.issued_le
    obtain ⟨ho₁, ho⟩ := List.forall_mem_cons.mp ho
    exact ih (hstep.sound hs hmid) hin ho (hstep.punctual hs hmid ho₁ hp)

theorem Build.punctual_of_mem_states {α : Type} {settings : Settings} {program : Build α}
    (ho : ∀ m ∈ program.log (.fresh settings), m.Asks Request.Clocked)
    (hs : s ∈ program.states (.fresh settings)) (hin : s.InTime) : s.Punctual := by
  obtain ⟨l, o, hsub, h⟩ := trace_of_mem_states hs
  exact h.punctual (.fresh settings) hin (fun m hm => ho m (hsub hm)) (Service.punctual_fresh settings)

end Concordance
