import Concordance.Proofs.Stamps
import Concordance.Registry.Basic

/-! What each write of the registry does to the slot of one file, to the tombstones and to the clock.
    Nothing else about the writes is used later on. -/

namespace Concordance

namespace Registry

variable {r : Registry} {file f : FileId} {entry : Entry} {slot : Slot}

/-! ### The clock -/

/-- While the clock has not come round, a stamp that is out is older than the next one. -/
theorem lt_nextStamp_iff (h : r.issued < UInt64.size - 1) {t : Stamp} : t < r.nextStamp.1 ↔ t ≤ r.currentStamp := by
  have hnow : r.currentStamp.toNat = r.issued := Stamp.toNat_nth (by omega)
  have hnext : r.nextStamp.1.toNat = r.issued + 1 := Stamp.toNat_nth (by omega)
  rw [Stamp.lt_iff, Stamp.le_iff, hnow, hnext]
  omega

/-! ### Putting an entry -/

theorem put_of_stale (hs : r.slots[file]? = some slot) (h : entry.stamp ≤ slot.stamp) :
    r.put file entry = (.stale, r) := by
  simp only [put, hs, h, ↓reduceIte]

/-- An entry that is newer than the file's slot takes its place. -/
theorem put_of_newer (h : ∀ slot, r.slots[file]? = some slot → ¬entry.stamp ≤ slot.stamp) :
    r.put file entry =
      (if r.contains file then .replaced else .inserted,
        { r with slots := r.slots.insert file (.live entry) }) := by
  cases hs : r.slots[file]? with
  | none => simp [put, contains, get?, hs]
  | some slot =>
    have hc : r.contains file = slot.isLive := by simp [contains, get?, hs, Slot.isLive]
    simp only [put, hs, h slot hs, ↓reduceIte, hc]

theorem put_eq_stale_iff :
    (r.put file entry).1 = .stale ↔ ∃ slot, r.slots[file]? = some slot ∧ entry.stamp ≤ slot.stamp := by
  constructor
  · intro h
    apply Classical.byContradiction
    intro hn
    rw [put_of_newer fun slot hs hle => hn ⟨slot, hs, hle⟩] at h
    revert h
    split <;> nofun
  · rintro ⟨slot, hs, hle⟩
    rw [put_of_stale hs hle]

@[simp] theorem put_issued : (r.put file entry).2.issued = r.issued := by
  unfold put
  split
  · rfl
  · split <;> rfl

theorem slots_insert (slots : Slots) : (slots.insert file slot)[f]? = if f = file then some slot else slots[f]? := by
  simp only [Std.ExtTreeMap.getElem?_insert, Std.LawfulEqCmp.compare_eq_iff_eq, @eq_comm _ file f]

/-- Registries in which the entry would be stale or not alike, and of which both or none have an entry of the file,
    take it alike: each slot is then the same in both, or as it was in each. -/
theorem put_alike {q : Registry} (hc : q.contains file = r.contains file)
    (hstale : (∃ slot, q.slots[file]? = some slot ∧ entry.stamp ≤ slot.stamp) ↔
      ∃ slot, r.slots[file]? = some slot ∧ entry.stamp ≤ slot.stamp) :
    (q.put file entry).1 = (r.put file entry).1 ∧
      ∀ f : FileId, (q.put file entry).2.slots[f]? = (r.put file entry).2.slots[f]? ∨
        (q.put file entry).2.slots[f]? = q.slots[f]? ∧ (r.put file entry).2.slots[f]? = r.slots[f]? := by
  by_cases h : ∃ slot, r.slots[file]? = some slot ∧ entry.stamp ≤ slot.stamp
  · obtain ⟨slot, hs, hle⟩ := h
    obtain ⟨slot', hs', hle'⟩ := hstale.mpr ⟨slot, hs, hle⟩
    rw [put_of_stale hs hle, put_of_stale hs' hle']
    exact ⟨rfl, fun _ => Or.inr ⟨rfl, rfl⟩⟩
  · rw [put_of_newer fun slot hs hle => h ⟨slot, hs, hle⟩, put_of_newer fun slot hs hle => h (hstale.mp ⟨slot, hs, hle⟩)]
    refine ⟨by rw [hc], fun f => ?_⟩
    simp only [slots_insert]
    split
    · exact Or.inl rfl
    · exact Or.inr ⟨rfl, rfl⟩

/-! ### Forgetting files -/

@[simp] theorem remove_issued : (r.remove file).2.issued = r.issued + 1 := rfl

/-- A file that is forgotten has the next stamp of the clock for its tombstone. -/
theorem slots_remove :
    (r.remove file).2.slots[f]? = if f = file then some (.forgotten (.nth (r.issued + 1))) else r.slots[f]? :=
  slots_insert r.slots

/-- Forgetting files one after the other moves the clock on and leaves a fresh tombstone for each. -/
theorem slots_removeAll (files : List FileId) (r : Registry) :
    r.issued ≤ (files.foldl (fun r file => (r.remove file).2) r).issued ∧
    (f ∉ files → (files.foldl (fun r file => (r.remove file).2) r).slots[f]? = r.slots[f]?) ∧
    (f ∈ files → ∃ n, r.issued < n ∧ n ≤ (files.foldl (fun r file => (r.remove file).2) r).issued ∧
      (files.foldl (fun r file => (r.remove file).2) r).slots[f]? = some (.forgotten (.nth n))) := by
  induction files generalizing r with
  | nil => exact ⟨Nat.le_refl _, fun _ => rfl, nofun⟩
  | cons g files ih =>
    obtain ⟨hle, hout, hin⟩ := ih (r.remove g).2
    simp only [remove_issued] at hle hin
    refine ⟨by simp only [List.foldl_cons]; omega, fun hf => ?_, fun hf => ?_⟩
    · rw [List.mem_cons, not_or] at hf
      rw [List.foldl_cons, hout hf.2, slots_remove, if_neg hf.1]
    · by_cases hmem : f ∈ files
      · obtain ⟨n, hlt, hn, hslot⟩ := hin hmem
        exact ⟨n, by omega, hn, hslot⟩
      · obtain rfl := (List.mem_cons.mp hf).resolve_right hmem
        exact ⟨r.issued + 1, by omega, hle, by rw [List.foldl_cons, hout hmem, slots_remove, if_pos rfl]⟩

theorem mem_slots : f ∈ r.slots ↔ ∃ slot, r.slots[f]? = some slot := by
  rw [Std.ExtTreeMap.mem_iff_isSome_getElem?, Option.isSome_iff_exists]

theorem issued_le_clear (r : Registry) : r.issued ≤ r.clear.issued := (slots_removeAll (f := default) _ r).1

/-- Clearing makes no slot where there is none: a file is forgotten by it if it has a slot. -/
theorem slots_clear_of_none (h : r.slots[f]? = none) : r.clear.slots[f]? = none := by
  have hf : f ∉ r.slots.keys := fun hf => by
    obtain ⟨slot, hs⟩ := mem_slots.mp (Std.ExtTreeMap.mem_keys.mp hf)
    rw [h] at hs
    cases hs
  exact ((slots_removeAll _ r).2.1 hf).trans h

theorem slots_clear_of_some (h : r.slots[f]? = some slot) :
    ∃ n, r.issued < n ∧ n ≤ r.clear.issued ∧ r.clear.slots[f]? = some (.forgotten (.nth n)) :=
  (slots_removeAll _ r).2.2 (Std.ExtTreeMap.mem_keys.mpr (mem_slots.mpr ⟨slot, h⟩))

end Registry

/-! ### Purging tombstones -/

/-- The empty text comes first. -/
theorem FileId.compare_empty_ne_lt (file : FileId) : compare file ⟨""⟩ ≠ .lt := by
  intro h
  have hlt : ¬file.text < "" := List.not_lt_nil file.text.toList
  have h : compareOfLessAndEq file.text "" = .lt := h
  rw [compareOfLessAndEq, if_neg hlt] at h
  split at h <;> cases h

namespace Tombstone

variable {t u : Tombstone} {stamp : Stamp}

theorem compare_eq : compare t u = (compare t.stamp u.stamp).then (compare t.file u.file) := rfl

/-- The tombstones that come before those of a stamp are the older ones. -/
theorem compare_earliest : compare t (.earliest stamp) = .lt ↔ t.stamp < stamp := by
  rw [compare_eq, Ordering.then_eq_lt]
  constructor
  · rintro (h | ⟨-, h⟩)
    · exact Stamp.compare_eq_lt.mp h
    · exact absurd h t.file.compare_empty_ne_lt
  · exact fun h => Or.inl (Stamp.compare_eq_lt.mpr h)

theorem mem_filter {records : Std.ExtTreeSet Tombstone} {p : Tombstone → Bool} :
    t ∈ records.filter p ↔ t ∈ records ∧ p t = true := by
  simp [Std.ExtTreeSet.mem_filter]

theorem stamp_le_of_isLE (h : (compare t u).isLE = true) : t.stamp ≤ u.stamp := by
  rw [compare_eq, Ordering.isLE_then_iff_and] at h
  exact Stamp.isLE_compare.mp h.1

end Tombstone

namespace Registry

variable {r : Registry} {f : FileId} {cutoff : Stamp}

/-- A purge buries the tombstones from before the cutoff and keeps the others, whether it looks for them or sees
    at the oldest that there are none. -/
theorem purge_eq (r : Registry) (cutoff : Stamp) :
    r.purge cutoff =
      (((r.tombstones.filter fun t => t.stamp < cutoff).toList.foldl bury (0, r.slots)).1,
        { r with
          slots := ((r.tombstones.filter fun t => t.stamp < cutoff).toList.foldl bury (0, r.slots)).2
          tombstones := r.tombstones.filter fun t => ¬t.stamp < cutoff }) := by
  have unexpired (h : ∀ t ∈ r.tombstones, ¬t.stamp < cutoff) :
      (r.tombstones.filter fun t => t.stamp < cutoff) = ∅ ∧
        (r.tombstones.filter fun t => ¬t.stamp < cutoff) = r.tombstones := by
    rw [Std.ExtTreeSet.filter_eq_empty_iff, Std.ExtTreeSet.filter_eq_self_iff]
    exact ⟨by simpa using h, by simpa using h⟩
  simp only [purge, Tombstone.compare_earliest, ne_eq]
  cases hmin : r.tombstones.min? with
  | none =>
    have hempty := Std.ExtTreeSet.min?_eq_none_iff.mp hmin
    obtain ⟨hexpired, hnewer⟩ := unexpired (by simp [hempty])
    rw [hexpired, hnewer]
    rfl
  | some oldest =>
    have holdest := (Std.ExtTreeSet.min?_eq_some_iff_mem_and_forall.mp hmin).2
    by_cases hlt : oldest.stamp < cutoff
    · simp only [hlt, ↓reduceIte]
    · obtain ⟨hexpired, hnewer⟩ := unexpired fun t ht h =>
        hlt (Std.lt_of_le_of_lt (Tombstone.stamp_le_of_isLE (holdest t ht)) h)
      simp only [hlt, ↓reduceIte]
      rw [hexpired, hnewer]
      rfl

@[simp] theorem purge_issued : (r.purge cutoff).2.issued = r.issued := by rw [purge_eq]

theorem slots_bury (done : Nat × Slots) (t : Tombstone) :
    (bury done t).2[f]? = if f = t.file ∧ done.2[f]? = some (.forgotten t.stamp) then none else done.2[f]? := by
  unfold bury
  by_cases hf : f = t.file
  · subst hf
    split <;> simp_all
  · split
    · simp [Std.ExtTreeMap.getElem?_erase, hf, Ne.symm hf]
    · simp [hf]

/-- Burying tombstones takes out of the slots what they say was forgotten, and leaves the rest. -/
theorem slots_buryAll (ts : List Tombstone) (done : Nat × Slots) :
    (ts.foldl bury done).2[f]? =
      if ∃ t ∈ ts, t.file = f ∧ done.2[f]? = some (.forgotten t.stamp) then none else done.2[f]? := by
  induction ts generalizing done with
  | nil => simp
  | cons t ts ih =>
    rw [List.foldl_cons, ih, slots_bury]
    simp only [List.mem_cons, exists_eq_or_imp]
    by_cases ht : f = t.file ∧ done.2[f]? = some (.forgotten t.stamp)
    · obtain ⟨rfl, hslot⟩ := ht
      simp [hslot]
    · simp [ht, @eq_comm _ t.file f]

/-- A purge takes away slots of files forgotten before the cutoff, and leaves all other slots alone. -/
theorem slots_purge (r : Registry) (cutoff : Stamp) (f : FileId) :
    (r.purge cutoff).2.slots[f]? = r.slots[f]? ∨
      (r.purge cutoff).2.slots[f]? = none ∧ ∃ t, r.slots[f]? = some (.forgotten t) ∧ t < cutoff := by
  rw [purge_eq]
  simp only [slots_buryAll]
  split
  next h =>
    obtain ⟨t, ht, -, hslot⟩ := h
    rw [Std.ExtTreeSet.mem_toList, Tombstone.mem_filter, decide_eq_true_iff] at ht
    exact Or.inr ⟨rfl, t.stamp, hslot, ht.2⟩
  next => exact Or.inl rfl

end Registry

end Concordance
