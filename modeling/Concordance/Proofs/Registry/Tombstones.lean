import Concordance.Proofs.Registry.Reads

/-! Tombstones and the slots they speak of. The records of tombstones are kept apart from the slots and may
    outlive them, but whatever is written, each forgotten file has the record that says so (`Tracked`). So a
    purge, which looks at the records alone, takes the same slots as a scan of all slots would
    (`purge_eq_scan`). -/

namespace Concordance

/-- A write to the registry. -/
inductive Write where
  | put (file : FileId) (entry : Entry)
  | remove (file : FileId)
  | clear
  | nextStamp
  | purge (cutoff : Stamp)

/-- Whether a slot says that its file was forgotten before a stamp. -/
def Slot.expired (cutoff : Stamp) : Slot → Bool
  | live _ => false
  | forgotten stamp => stamp < cutoff

theorem Slot.expired_iff {cutoff : Stamp} {slot : Slot} :
    slot.expired cutoff = true ↔ ∃ t, slot = .forgotten t ∧ t < cutoff := by
  cases slot <;> simp [expired]

namespace Registry

def write (r : Registry) : Write → Registry
  | .put file entry => (r.put file entry).2
  | .remove file => (r.remove file).2
  | .clear => r.clear
  | .nextStamp => r.nextStamp.2
  | .purge cutoff => (r.purge cutoff).2

def writeAll (r : Registry) (writes : List Write) : Registry := writes.foldl write r

/-- Each forgotten file has the tombstone that says so. -/
def Tracked (r : Registry) : Prop :=
  ∀ (f : FileId) (t : Stamp), r.slots[f]? = some (.forgotten t) → ⟨t, f⟩ ∈ r.tombstones

/-- A purge that goes through all slots. -/
def scan (r : Registry) (cutoff : Stamp) : Nat × Registry :=
  ((r.slots.filter fun _ slot => slot.expired cutoff).size,
    { r with
      slots := r.slots.filter fun _ slot => !slot.expired cutoff
      tombstones := r.tombstones.filter fun t => cutoff ≤ t.stamp })

variable {r : Registry} {file f : FileId} {entry : Entry} {cutoff : Stamp} {u : Tombstone}

/-! ### The records -/

theorem mem_remove_tombstones :
    u ∈ (r.remove file).2.tombstones ↔ u = ⟨.nth (r.issued + 1), file⟩ ∨ u ∈ r.tombstones := by
  show u ∈ r.tombstones.insert ⟨.nth (r.issued + 1), file⟩ ↔ _
  rw [Std.ExtTreeSet.mem_insert, Std.LawfulEqCmp.compare_eq_iff_eq, eq_comm]

@[simp] theorem put_tombstones : (r.put file entry).2.tombstones = r.tombstones := by
  unfold put
  split
  · rfl
  · split <;> rfl

theorem mem_purge_tombstones : u ∈ (r.purge cutoff).2.tombstones ↔ u ∈ r.tombstones ∧ cutoff ≤ u.stamp := by
  rw [purge_eq, Tombstone.mem_filter, decide_eq_true_iff, Std.not_lt]

/-- Forgetting files one after the other leaves the old records and makes fresh ones. -/
theorem mem_removeAll_tombstones (files : List FileId) (r : Registry)
    (h : u ∈ (files.foldl (fun r file => (r.remove file).2) r).tombstones) :
    u ∈ r.tombstones ∨ ∃ n, r.issued < n ∧
      n ≤ (files.foldl (fun r file => (r.remove file).2) r).issued ∧ u.stamp = .nth n := by
  induction files generalizing r with
  | nil => exact Or.inl h
  | cons file files ih =>
    have hissued := (slots_removeAll (f := file) files (r.remove file).2).1
    rw [remove_issued] at hissued
    rcases ih (r.remove file).2 h with hold | ⟨n, hlt, hle, hn⟩
    · rcases mem_remove_tombstones.mp hold with rfl | hold
      · exact Or.inr ⟨r.issued + 1, Nat.lt_succ_self _, hissued, rfl⟩
      · exact Or.inl hold
    · rw [remove_issued] at hlt
      exact Or.inr ⟨n, by omega, hle, hn⟩

theorem issued_le_write (r : Registry) (w : Write) : r.issued ≤ (r.write w).issued := by
  cases w with
  | put file entry => exact Nat.le_of_eq put_issued.symm
  | remove file => exact Nat.le_succ _
  | clear => exact issued_le_clear r
  | nextStamp => exact Nat.le_succ _
  | purge cutoff => exact Nat.le_of_eq purge_issued.symm

theorem issued_le_writeAll (r : Registry) (writes : List Write) : r.issued ≤ (r.writeAll writes).issued := by
  induction writes generalizing r with
  | nil => exact Nat.le_refl _
  | cons w writes ih => exact Nat.le_trans (issued_le_write r w) (ih _)

/-- The records that writes make have stamps that the clock gave meanwhile. -/
theorem mem_write_tombstones (w : Write) (h : u ∈ (r.write w).tombstones) :
    u ∈ r.tombstones ∨ ∃ n, r.issued < n ∧ n ≤ (r.write w).issued ∧ u.stamp = .nth n := by
  cases w with
  | put file entry =>
    rw [write, put_tombstones] at h
    exact Or.inl h
  | remove file => exact mem_removeAll_tombstones [file] r h
  | clear => exact mem_removeAll_tombstones _ r h
  | nextStamp => exact Or.inl h
  | purge cutoff => exact Or.inl (mem_purge_tombstones.mp h).1

theorem mem_writeAll_tombstones (writes : List Write) (h : u ∈ (r.writeAll writes).tombstones) :
    u ∈ r.tombstones ∨ ∃ n, r.issued < n ∧ n ≤ (r.writeAll writes).issued ∧ u.stamp = .nth n := by
  induction writes generalizing r with
  | nil => exact Or.inl h
  | cons w writes ih =>
    rcases ih h with hmid | ⟨n, hlt, hle, hn⟩
    · rcases mem_write_tombstones w hmid with hold | ⟨n, hlt, hle, hn⟩
      · exact Or.inl hold
      · exact Or.inr ⟨n, hlt, Nat.le_trans hle (issued_le_writeAll _ writes), hn⟩
    · exact Or.inr ⟨n, Nat.lt_of_le_of_lt (issued_le_write r w) hlt, hle, hn⟩

/-! ### Purging -/

theorem size_pos_of_mem {slots : Slots} (h : f ∈ slots) : 0 < slots.size := by
  refine Nat.pos_of_ne_zero fun hzero => ?_
  rw [Std.ExtTreeMap.eq_empty_iff_size_eq_zero.mpr hzero] at h
  exact Std.ExtTreeMap.not_mem_empty h

/-- Burying counts the slots that it takes. -/
theorem count_buryAll (ts : List Tombstone) (done : Nat × Slots) :
    (ts.foldl bury done).1 + (ts.foldl bury done).2.size = done.1 + done.2.size := by
  induction ts generalizing done with
  | nil => rfl
  | cons t ts ih =>
    rw [List.foldl_cons, ih, bury]
    split
    next h =>
      have hmem : t.file ∈ done.2 := by
        rw [Std.ExtTreeMap.mem_iff_isSome_getElem?, h]
        rfl
      have hpos := size_pos_of_mem hmem
      rw [Std.ExtTreeMap.size_erase, if_pos (Std.ExtTreeMap.contains_iff_mem.mpr hmem)]
      omega
    next => rfl

theorem size_filter_add (slots : Slots) (p : Slot → Bool) :
    (slots.filter fun _ slot => p slot).size + (slots.filter fun _ slot => !p slot).size = slots.size := by
  simp only [← Std.ExtTreeMap.length_toList, Std.ExtTreeMap.toList_filter]
  exact length_filter_add (fun x : FileId × Slot => p x.2) slots.toList

/-- Where all records are at hand, the records from before the cutoff name the slots that a scan would take. -/
theorem Tracked.exists_record_iff (h : r.Tracked) :
    (∃ t ∈ (r.tombstones.filter fun t => t.stamp < cutoff).toList,
        t.file = f ∧ r.slots[f]? = some (.forgotten t.stamp)) ↔
      ∃ slot, r.slots[f]? = some slot ∧ slot.expired cutoff = true := by
  simp only [Std.ExtTreeSet.mem_toList, Tombstone.mem_filter, decide_eq_true_iff]
  constructor
  · rintro ⟨t, ⟨-, hlt⟩, -, hslot⟩
    exact ⟨_, hslot, Slot.expired_iff.mpr ⟨t.stamp, rfl, hlt⟩⟩
  · rintro ⟨slot, hslot, hexpired⟩
    obtain ⟨t, rfl, hlt⟩ := Slot.expired_iff.mp hexpired
    exact ⟨⟨t, f⟩, ⟨h f t hslot, hlt⟩, rfl, hslot⟩

theorem Tracked.slots_purge_eq (h : r.Tracked) (cutoff : Stamp) :
    (r.purge cutoff).2.slots = r.slots.filter fun _ slot => !slot.expired cutoff := by
  apply Std.ExtTreeMap.ext_getElem?
  intro f
  rw [purge_eq, Std.ExtTreeMap.getElem?_filter']
  show (_ : Nat × Slots).2[f]? = _
  rw [slots_buryAll]
  simp only [h.exists_record_iff]
  cases hslot : r.slots[f]? with
  | none => simp
  | some slot => cases he : slot.expired cutoff <;> simp [Option.filter_some, he]

theorem Tracked.count_purge_eq (h : r.Tracked) (cutoff : Stamp) :
    (r.purge cutoff).1 = (r.slots.filter fun _ slot => slot.expired cutoff).size := by
  have hcount := count_buryAll (r.tombstones.filter fun t => t.stamp < cutoff).toList (0, r.slots)
  have hsplit := size_filter_add r.slots (Slot.expired cutoff)
  rw [← h.slots_purge_eq cutoff] at hsplit
  rw [purge_eq] at hsplit ⊢
  simp only at hcount hsplit ⊢
  omega

/-- A purge by the records is a scan of the slots. -/
theorem Tracked.purge_eq (h : r.Tracked) (cutoff : Stamp) : r.purge cutoff = r.scan cutoff := by
  have htombstones : (r.purge cutoff).2.tombstones = r.tombstones.filter fun t => cutoff ≤ t.stamp := by
    apply Std.ExtTreeSet.ext_mem
    intro t
    rw [mem_purge_tombstones, Tombstone.mem_filter, decide_eq_true_iff]
  have hissued : (r.purge cutoff).2.issued = r.issued := purge_issued
  rw [scan, ← h.count_purge_eq, ← h.slots_purge_eq, ← htombstones, ← hissued]

/-! ### What every write keeps -/

theorem tracked_empty : empty.Tracked := by
  intro f t h
  simp [empty] at h

namespace Tracked

theorem put (h : r.Tracked) (file : FileId) (entry : Entry) : (r.put file entry).2.Tracked := by
  intro f t hslot
  rw [put_tombstones]
  by_cases hstale : (r.put file entry).1 = .stale
  · obtain ⟨slot, hs, hle⟩ := put_eq_stale_iff.mp hstale
    rw [put_of_stale hs hle] at hslot
    exact h f t hslot
  · have hnewer (slot : Slot) (hs : r.slots[file]? = some slot) : ¬entry.stamp ≤ slot.stamp := fun hle =>
      hstale (put_eq_stale_iff.mpr ⟨slot, hs, hle⟩)
    rw [put_of_newer hnewer, slots_insert] at hslot
    split at hslot
    · cases hslot
    · exact h f t hslot

theorem remove (h : r.Tracked) (file : FileId) : (r.remove file).2.Tracked := by
  intro f t hslot
  rw [slots_remove] at hslot
  rw [mem_remove_tombstones]
  split at hslot
  next hf =>
    cases hslot
    exact Or.inl (by rw [hf])
  next => exact Or.inr (h f t hslot)

theorem removeAll (h : r.Tracked) (files : List FileId) :
    (files.foldl (fun r file => (r.remove file).2) r).Tracked := by
  induction files generalizing r with
  | nil => exact h
  | cons file files ih => exact ih (h.remove file)

theorem purge (h : r.Tracked) (cutoff : Stamp) : (r.purge cutoff).2.Tracked := by
  intro f t hslot
  rw [h.slots_purge_eq, Std.ExtTreeMap.getElem?_filter', Option.filter_eq_some_iff] at hslot
  obtain ⟨hslot, hnew⟩ := hslot
  rw [mem_purge_tombstones]
  refine ⟨h f t hslot, ?_⟩
  rw [← Std.not_lt]
  intro hlt
  simp [Slot.expired, hlt] at hnew

theorem write (h : r.Tracked) (w : Write) : (r.write w).Tracked := by
  cases w with
  | put file entry => exact h.put file entry
  | remove file => exact h.remove file
  | clear => exact h.removeAll _
  | nextStamp => exact h
  | purge cutoff => exact h.purge cutoff

theorem writeAll (h : r.Tracked) (writes : List Write) : (r.writeAll writes).Tracked := by
  induction writes generalizing r with
  | nil => exact h
  | cons w writes ih => exact ih (h.write w)

end Tracked

/-- Whatever was written before, a purge does what a scan of all slots would: it takes the slots of the files
    forgotten before the cutoff and no others, tells how many these are, and keeps the tombstones from the
    cutoff on. No entry is touched, nor is the clock. -/
theorem purge_eq_scan (writes : List Write) (cutoff : Stamp) :
    let r := empty.writeAll writes
    r.purge cutoff = r.scan cutoff ∧ (∀ file, (r.purge cutoff).2.get? file = r.get? file) ∧
      (r.purge cutoff).2.issued = r.issued := by
  intro r
  have h : r.Tracked := tracked_empty.writeAll writes
  exact ⟨h.purge_eq cutoff, fun file => get?_purge r cutoff file, purge_issued⟩

end Registry

end Concordance
