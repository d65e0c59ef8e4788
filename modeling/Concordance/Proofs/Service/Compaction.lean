import Concordance.Proofs.Registry.Reads
import Concordance.Service.Basic

/-! Compaction, and what a service does beside publishing. A tombstone goes only when no running build is
    older than it, and builds that begin later are newer anyway: so a slot that compaction took away held
    nothing that a build could still be compared with (`Faded`). -/

namespace Concordance.Service

variable {s : Service} {file f : FileId} {a b t : Stamp}

/-- Fewer stamps are out than a word can count, so that the clock has not come round. -/
def InTime (s : Service) : Prop := s.registry.issued < UInt64.size - 1

/-- The last stamp handed out. -/
abbrev now (s : Service) : Stamp := s.registry.currentStamp

/-- The stamp that is handed out next. -/
abbrev upcoming (s : Service) : Stamp := .nth (s.registry.issued + 1)

namespace InTime

theorem of_le {s' : Service} (h : s'.InTime) (hle : s.registry.issued ≤ s'.registry.issued) : s.InTime :=
  Nat.lt_of_le_of_lt hle h

theorem toNat_now (h : s.InTime) : s.now.toNat = s.registry.issued :=
  Stamp.toNat_nth (by unfold InTime at h; omega)

/-- A stamp that is out is older than the next one. -/
theorem lt_upcoming_iff (h : s.InTime) : a < s.upcoming ↔ a ≤ s.now := Registry.lt_nextStamp_iff h

/-- The clock does not go back. -/
theorem now_le {s' : Service} (h : s'.InTime) (hle : s.registry.issued ≤ s'.registry.issued) : s.now ≤ s'.now := by
  rw [Stamp.le_iff, h.toNat_now, (h.of_le hle).toNat_now]
  exact hle

theorem toNat_nth {n : Nat} (h : s.InTime) (hn : n ≤ s.registry.issued) : (Stamp.nth n).toNat = n :=
  Stamp.toNat_nth (by unfold InTime at h; omega)

end InTime

/-! ### The low-water mark -/

/-- What is older than the low-water mark is older than every running build. -/
theorem lt_of_lt_lowWater (h : t < s.lowWater) (hb : b ∈ s.running) : t < b := by
  unfold lowWater at h
  cases hm : s.running.min? with
  | none =>
    rw [Std.ExtTreeSet.min?_eq_none_iff.mp hm] at hb
    exact absurd hb Std.ExtTreeSet.not_mem_empty
  | some oldest =>
    rw [hm, Option.getD_some] at h
    have hle := (Std.ExtTreeSet.min?_eq_some_iff_mem_and_forall.mp hm).2 b hb
    exact Std.lt_of_lt_of_le h (Stamp.isLE_compare.mp hle)

/-- What is older than the low-water mark is out, whether builds run or not. -/
theorem le_now_of_lt_lowWater (hin : s.InTime) (hrun : ∀ b ∈ s.running, b ≤ s.now) (h : t < s.lowWater) :
    t ≤ s.now := by
  unfold lowWater at h
  cases hm : s.running.min? with
  | none =>
    rw [hm, Option.getD_none, Registry.currentStamp, Stamp.next_nth] at h
    exact hin.lt_upcoming_iff.mp h
  | some oldest =>
    rw [hm, Option.getD_some] at h
    have hle := hrun oldest (Std.ExtTreeSet.min?_eq_some_iff_mem_and_forall.mp hm).1
    exact Std.le_of_lt (Std.lt_of_lt_of_le h hle)

/-! ### Fading tombstones -/

/-- The slot `y` is the slot `x`, or `x` was a tombstone from before all running builds and is gone. -/
def Faded (s : Service) (x y : Option Slot) : Prop :=
  y = x ∨ y = none ∧ ∃ t, x = some (.forgotten t) ∧ t ≤ s.now ∧ ∀ b ∈ s.running, t < b

namespace Faded

variable {x y : Option Slot}

theorem refl (s : Service) (x : Option Slot) : s.Faded x x := Or.inl rfl

theorem of_none (h : s.Faded none y) : y = none := by
  rcases h with h | ⟨h, -⟩ <;> exact h

/-- Entries do not fade. -/
theorem live? (h : s.Faded x y) : y.bind Slot.live? = x.bind Slot.live? := by
  rcases h with rfl | ⟨rfl, t, rfl, -, -⟩ <;> rfl

/-- Time goes on, builds end and new ones begin: what has faded stays so. -/
theorem mono {s' : Service} (h : s.Faded x y) (hnow : s.now ≤ s'.now)
    (hrun : ∀ b ∈ s'.running, b ∈ s.running ∨ s.now < b) : s'.Faded x y := by
  rcases h with h | ⟨hy, t, hx, ht, hb⟩
  · exact Or.inl h
  · refine Or.inr ⟨hy, t, hx, Std.le_trans ht hnow, fun b hb' => ?_⟩
    rcases hrun b hb' with h' | h'
    · exact hb b h'
    · exact Std.lt_of_le_of_lt ht h'

end Faded

/-! ### Compaction -/

@[simp] theorem compact_issued : s.compact.registry.issued = s.registry.issued := Registry.purge_issued

@[simp] theorem compact_now : s.compact.now = s.now := congrArg Stamp.nth compact_issued

theorem inTime_compact_iff : s.compact.InTime ↔ s.InTime := by rw [InTime, InTime, compact_issued]

/-- Compaction leaves the clock and the running builds, on which fading depends. -/
theorem faded_compact_iff {x y : Option Slot} : s.compact.Faded x y ↔ s.Faded x y := by
  rw [Faded, Faded, compact_now]
  rfl

theorem get?_compact (s : Service) (f : FileId) : s.compact.registry.get? f = s.registry.get? f :=
  Registry.get?_purge s.registry s.lowWater f

/-- All that compaction does to the slots is to let old tombstones fade. -/
theorem faded_compact (hin : s.InTime) (hrun : ∀ b ∈ s.running, b ≤ s.now) (f : FileId) :
    s.compact.Faded s.registry.slots[f]? s.compact.registry.slots[f]? := by
  rw [faded_compact_iff]
  rcases Registry.slots_purge s.registry s.lowWater f with h | ⟨h, t, hs, ht⟩
  · exact Or.inl h
  · exact Or.inr ⟨h, t, hs, le_now_of_lt_lowWater hin hrun ht, fun b hb => lt_of_lt_lowWater ht hb⟩

/-- Compaction makes no slots. -/
theorem slots_of_compact {slot : Slot} (h : s.compact.registry.slots[f]? = some slot) :
    s.registry.slots[f]? = some slot := by
  rcases Registry.slots_purge s.registry s.lowWater f with hsame | ⟨hnone, -⟩
  · exact hsame.symm.trans h
  · exact nomatch hnone.symm.trans h

/-! ### Forgetting, beginning and ending -/

@[simp] theorem forget_issued : (s.forget file).2.registry.issued = s.registry.issued + 1 := compact_issued

theorem forget_now : (s.forget file).2.now = s.upcoming := compact_now

theorem get?_forget : (s.forget file).2.registry.get? f = if f = file then none else s.registry.get? f :=
  (get?_compact _ f).trans Registry.get?_remove

@[simp] theorem begin_fst (s : Service) : s.begin.1 = s.upcoming := rfl
@[simp] theorem begin_issued (s : Service) : s.begin.2.registry.issued = s.registry.issued + 1 := rfl

theorem mem_begin_running : b ∈ s.begin.2.running ↔ b = s.upcoming ∨ b ∈ s.running := by
  show b ∈ s.running.insert s.upcoming ↔ _
  rw [Std.ExtTreeSet.mem_insert, Std.LawfulEqCmp.compare_eq_iff_eq, eq_comm]

@[simp] theorem retire_settings : (s.retire t).settings = s.settings := rfl
@[simp] theorem retire_issued : (s.retire t).registry.issued = s.registry.issued := compact_issued

theorem mem_retire_running : b ∈ (s.retire t).running ↔ b ≠ t ∧ b ∈ s.running := by
  show b ∈ s.running.erase t ↔ _
  rw [Std.ExtTreeSet.mem_erase, ne_eq, Std.LawfulEqCmp.compare_eq_iff_eq, ne_eq, eq_comm]

/-- The builds that run on do not go back behind the clock, so retiring one lets tombstones fade at most. -/
theorem faded_retire (hin : s.InTime) (hrun : ∀ b ∈ s.running, b ≤ s.now) (f : FileId) :
    (s.retire t).Faded s.registry.slots[f]? (s.retire t).registry.slots[f]? := by
  refine faded_compact (s := { s with running := s.running.erase t }) hin (fun b hb => hrun b ?_) f
  exact Std.ExtTreeSet.mem_of_mem_erase hb

theorem slots_of_retire {slot : Slot} (h : (s.retire t).registry.slots[f]? = some slot) :
    s.registry.slots[f]? = some slot :=
  slots_of_compact (s := { s with running := s.running.erase t }) h

theorem get?_retire : (s.retire t).registry.get? f = s.registry.get? f := get?_compact _ f

end Concordance.Service
