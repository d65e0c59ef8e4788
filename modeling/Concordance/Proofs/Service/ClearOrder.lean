import Mathlib
import Concordance.Proofs.Registry.Tombstones
import Concordance.Proofs.Service.Answers

/-! Clearing in any order. Each file that is forgotten by a clear gets a stamp of its own, so the tombstones depend on
    the order in which the clear comes to the files. But all these stamps are from the span between the clock
    before the clear and the clock after it, and nobody asks later for a stamp of that span: registries that differ
    only there (`Shuffled`) answer alike, and the difference stays within the span whatever is written. -/

namespace Concordance

namespace Stamp

variable {since till stamp t : Stamp}

/-- The stamp was handed out after one stamp, and no later than another. -/
def Within (stamp since till : Stamp) : Prop := since < stamp ∧ stamp ≤ till

/-- The stamp is from before the span or from after it. -/
def Apart (stamp since till : Stamp) : Prop := stamp ≤ since ∨ till < stamp

theorem Apart.not_within (h : stamp.Apart since till) : ¬stamp.Within since till := by
  rintro ⟨hlt, hle⟩
  rcases h with h | h
  · exact Std.lt_irrefl (Std.lt_of_lt_of_le hlt h)
  · exact Std.lt_irrefl (Std.lt_of_lt_of_le h hle)

/-- To a stamp outside the span all stamps within it compare alike. -/
theorem Apart.le_iff (h : stamp.Apart since till) (ht : t.Within since till) : stamp ≤ t ↔ stamp ≤ since := by
  constructor
  · intro hle
    exact h.resolve_right fun hlt => Std.lt_irrefl (Std.lt_of_lt_of_le hlt (Std.le_trans hle ht.2))
  · exact fun hle => Std.le_of_lt (Std.lt_of_le_of_lt hle ht.1)

theorem within_nth {since till n : Nat} (few : till < UInt64.size) (hlt : since < n) (hle : n ≤ till) :
    (nth n).Within (nth since) (nth till) := by
  rw [Within, lt_iff, le_iff, toNat_nth (by omega), toNat_nth (by omega), toNat_nth few]
  exact ⟨hlt, hle⟩

end Stamp

/-- The requests that bring in no stamps from within a span and forget at most one file, and that without the
    service's own purge. -/
def Request.Apart (since till : Stamp) : Request → Prop
  | put _ entry => entry.stamp.Apart since till
  | purge cutoff => cutoff.Apart since till
  | clear | forget _ => False
  | _ => True

namespace Registry

variable {q r q' r' : Registry} {since till cutoff : Stamp} {file f : FileId} {entry : Entry} {u : Tombstone}
  {order : List FileId}

/-! ### Clearing -/

/-- A clear that comes to the files in some order. -/
def clearIn (r : Registry) (order : List FileId) : Registry := order.foldl (fun r file => (r.remove file).2) r

theorem clearIn_issued (r : Registry) (order : List FileId) : (r.clearIn order).issued = r.issued + order.length := by
  induction order generalizing r with
  | nil => rfl
  | cons file order ih =>
    rw [clearIn, List.foldl_cons, ← clearIn, ih, remove_issued, List.length_cons]
    omega

/-- The files that the clear comes to are forgotten, each at a stamp since the clear began. -/
theorem slots_clearIn (r : Registry) (order : List FileId) (f : FileId) :
    (f ∉ order → (r.clearIn order).slots[f]? = r.slots[f]?) ∧
    (f ∈ order → ∃ n, r.issued < n ∧ n ≤ (r.clearIn order).issued ∧
      (r.clearIn order).slots[f]? = some (.forgotten (.nth n))) := (slots_removeAll order r).2

/-- No record is ahead of the clock. -/
def Dated (r : Registry) : Prop := ∀ u ∈ r.tombstones, u.stamp ≤ r.currentStamp

theorem dated_writeAll {writes : List Write} (few : (empty.writeAll writes).issued < UInt64.size - 1) :
    (empty.writeAll writes).Dated := by
  intro u hu
  rcases mem_writeAll_tombstones writes hu with hold | ⟨n, -, hle, hn⟩
  · exact absurd hold Std.ExtTreeSet.not_mem_empty
  · rw [hn, currentStamp, Stamp.le_iff, Stamp.toNat_nth (by omega), Stamp.toNat_nth (by omega)]
    exact hle

theorem pending_remove (r : Registry) (file : FileId) : (r.remove file).2.pending =
    if r.tombstones.contains ⟨r.nextStamp.1, file⟩ then r.pending else r.pending + 1 := Std.ExtTreeSet.size_insert

/-- A fresh record is none of those that are there. -/
theorem Dated.pending_remove (h : r.Dated) (few : r.issued < UInt64.size - 1) (file : FileId) :
    (r.remove file).2.pending = r.pending + 1 := by
  rw [Registry.pending_remove, if_neg]
  intro hmem
  exact Std.lt_irrefl ((lt_nextStamp_iff few).mpr (h _ (Std.ExtTreeSet.contains_iff_mem.mp hmem)))

theorem Dated.remove (h : r.Dated) (few : r.issued < UInt64.size - 1) (file : FileId) : (r.remove file).2.Dated := by
  intro u hu
  rcases mem_remove_tombstones.mp hu with rfl | hu
  · exact Std.le_refl _
  · exact Std.le_of_lt ((lt_nextStamp_iff few).mpr (h u hu))

theorem Dated.pending_clearIn (h : r.Dated) (few : (r.clearIn order).issued < UInt64.size - 1) :
    (r.clearIn order).pending = r.pending + order.length := by
  induction order generalizing r with
  | nil => rfl
  | cons file order ih =>
    have hr : r.issued < UInt64.size - 1 := by
      rw [clearIn_issued] at few
      omega
    have hrest : ((r.remove file).2.clearIn order).pending = (r.remove file).2.pending + order.length :=
      ih (h.remove hr file) few
    rw [clearIn, List.foldl_cons, ← clearIn, hrest, h.pending_remove hr, List.length_cons]
    omega

/-- Clearing leaves the records that are there. -/
theorem mem_clearIn_tombstones (hu : u ∈ r.tombstones) : u ∈ (r.clearIn order).tombstones := by
  induction order generalizing r with
  | nil => exact hu
  | cons file order ih => exact ih (mem_remove_tombstones.mpr (Or.inr hu))

/-! ### Registries that differ in the stamps of a span -/

/-- Where one registry has a tombstone with a stamp of the span, the other has one too; they are the same otherwise,
    and they have as many records. -/
structure Shuffled (since till : Stamp) (q r : Registry) : Prop where
  issued : q.issued = r.issued
  till_le : till ≤ r.currentStamp
  slots : ∀ f : FileId, q.slots[f]? = r.slots[f]? ∨ ∃ t u, q.slots[f]? = some (.forgotten t) ∧
    r.slots[f]? = some (.forgotten u) ∧ t.Within since till ∧ u.Within since till
  records : ∀ {u : Tombstone}, u.stamp.Apart since till → (u ∈ q.tombstones ↔ u ∈ r.tombstones)
  pending : q.pending = r.pending
  tracked : q.Tracked
  tracked' : r.Tracked

/-- Slots that stand at the same files are as many. -/
theorem size_eq_of_isSome {slots slots' : Slots} (h : ∀ f : FileId, slots[f]?.isSome = slots'[f]?.isSome) :
    slots.size = slots'.size := by
  have hkeys : slots.map (fun _ _ => ()) = slots'.map fun _ _ => () := by
    apply Std.ExtTreeMap.ext_getElem?
    intro f
    have hf := h f
    rw [Std.ExtTreeMap.getElem?_map, Std.ExtTreeMap.getElem?_map]
    cases hs : slots[f]? <;> cases hs' : slots'[f]? <;> rw [hs, hs'] at hf <;> first | rfl | cases hf
  rw [← Std.ExtTreeMap.size_map (f := fun _ _ => ()), hkeys, Std.ExtTreeMap.size_map]

/-- A purge keeps the records from the cutoff on. -/
theorem pending_purge (r : Registry) (cutoff : Stamp) :
    r.pending = (r.tombstones.filter fun t => t.stamp < cutoff).size + (r.purge cutoff).2.pending := by
  simp only [purge_eq, pending, ← Std.ExtTreeSet.length_toList, Std.ExtTreeSet.toList_filter, decide_not]
  exact (length_filter_add _ _).symm

namespace Shuffled

theorem get?_eq (h : Shuffled since till q r) (f : FileId) : q.get? f = r.get? f := by
  rcases h.slots f with hsame | ⟨t, u, ht, hu, -⟩
  · exact get?_of_slots hsame
  · rw [get?_of_forgotten ht, get?_of_forgotten hu]

theorem contains_eq (h : Shuffled since till q r) (f : FileId) : q.contains f = r.contains f :=
  congrArg Option.isSome (h.get?_eq f)

theorem put (h : Shuffled since till q r) (hapart : entry.stamp.Apart since till) (file : FileId) :
    (q.put file entry).1 = (r.put file entry).1 ∧
      Shuffled since till (q.put file entry).2 (r.put file entry).2 := by
  have hstale : (∃ slot, q.slots[file]? = some slot ∧ entry.stamp ≤ slot.stamp) ↔
      ∃ slot, r.slots[file]? = some slot ∧ entry.stamp ≤ slot.stamp := by
    rcases h.slots file with hsame | ⟨t, u, ht, hu, htw, huw⟩
    · rw [hsame]
    · simp [ht, hu, Slot.stamp, hapart.le_iff htw, hapart.le_iff huw]
  obtain ⟨houtcome, hslots⟩ := put_alike (h.contains_eq file) hstale
  refine ⟨houtcome, ?_, ?_, fun f => ?_, ?_, ?_, h.tracked.put file entry, h.tracked'.put file entry⟩
  · rw [put_issued, put_issued, h.issued]
  · rw [currentStamp, put_issued]
    exact h.till_le
  · rcases hslots f with hsame | ⟨hq, hr⟩
    · exact Or.inl hsame
    · rw [hq, hr]
      exact h.slots f
  · rw [put_tombstones, put_tombstones]
    exact h.records
  · rw [Registry.pending, Registry.pending, put_tombstones, put_tombstones]
    exact h.pending

theorem nextStamp (h : Shuffled since till q r) (few : r.issued < UInt64.size - 1) :
    Shuffled since till q.nextStamp.2 r.nextStamp.2 :=
  { h with
    issued := congrArg (· + 1) h.issued
    till_le := Std.le_of_lt ((lt_nextStamp_iff few).mpr h.till_le) }

theorem remove (h : Shuffled since till q r) (few : r.issued < UInt64.size - 1) (file : FileId) :
    Shuffled since till (q.remove file).2 (r.remove file).2 := by
  have hfresh : till < r.nextStamp.1 := (lt_nextStamp_iff few).mpr h.till_le
  refine ⟨congrArg (· + 1) h.issued, Std.le_of_lt hfresh, fun f => ?_, fun hu => ?_, ?_, h.tracked.remove file,
    h.tracked'.remove file⟩
  · rw [slots_remove, slots_remove, h.issued]
    split
    · exact Or.inl rfl
    · exact h.slots f
  · rw [mem_remove_tombstones, mem_remove_tombstones, h.issued, h.records hu]
  · have hrecord : q.tombstones.contains ⟨r.nextStamp.1, file⟩ = r.tombstones.contains ⟨r.nextStamp.1, file⟩ := by
      rw [Bool.eq_iff_iff, Std.ExtTreeSet.contains_iff_mem, Std.ExtTreeSet.contains_iff_mem]
      exact h.records (Or.inr hfresh)
    have hnext : q.nextStamp.1 = r.nextStamp.1 := congrArg (fun n => Stamp.nth (n + 1)) h.issued
    rw [Registry.pending_remove, Registry.pending_remove, hnext, hrecord, h.pending]

/-- A purge takes all records of the span or none of them. -/
theorem purge (h : Shuffled since till q r) (hapart : cutoff.Apart since till) :
    (q.purge cutoff).1 = (r.purge cutoff).1 ∧ Shuffled since till (q.purge cutoff).2 (r.purge cutoff).2 := by
  have hexpired {t u : Stamp} (ht : t.Within since till) (hu : u.Within since till) :
      (Slot.forgotten t).expired cutoff = (Slot.forgotten u).expired cutoff := by
    have hiff : t < cutoff ↔ u < cutoff := by rw [← Std.not_le, ← Std.not_le, hapart.le_iff ht, hapart.le_iff hu]
    exact decide_eq_decide.mpr hiff
  refine ⟨?_, ?_, ?_, fun f => ?_, fun hu => ?_, ?_, h.tracked.purge cutoff, h.tracked'.purge cutoff⟩
  · rw [h.tracked.count_purge_eq, h.tracked'.count_purge_eq]
    refine size_eq_of_isSome fun f => ?_
    rw [Std.ExtTreeMap.getElem?_filter', Std.ExtTreeMap.getElem?_filter']
    rcases h.slots f with hsame | ⟨t, u, ht, hu, htw, huw⟩
    · rw [hsame]
    · rw [ht, hu, Option.filter_some, Option.filter_some, hexpired htw huw]
      split <;> rfl
  · rw [purge_issued, purge_issued, h.issued]
  · rw [currentStamp, purge_issued]
    exact h.till_le
  · rw [h.tracked.slots_purge_eq, h.tracked'.slots_purge_eq, Std.ExtTreeMap.getElem?_filter',
      Std.ExtTreeMap.getElem?_filter']
    rcases h.slots f with hsame | ⟨t, u, ht, hu, htw, huw⟩
    · exact Or.inl (by rw [hsame])
    · rw [ht, hu, Option.filter_some, Option.filter_some, hexpired htw huw]
      split
      · exact Or.inr ⟨t, u, rfl, rfl, htw, huw⟩
      · exact Or.inl rfl
  · rw [mem_purge_tombstones, mem_purge_tombstones, h.records hu]
  · rcases hapart with hold | hnew
    · -- The records that go are from before the span, so they are the same.
      have hgone : (q.tombstones.filter fun t => t.stamp < cutoff) = r.tombstones.filter fun t => t.stamp < cutoff := by
        apply Std.ExtTreeSet.ext_mem
        intro u
        rw [Tombstone.mem_filter, Tombstone.mem_filter, decide_eq_true_iff]
        exact and_congr_left fun hlt => h.records (Or.inl (Std.le_trans (Std.le_of_lt hlt) hold))
      have hpending := h.pending
      rw [pending_purge q cutoff, pending_purge r cutoff, hgone] at hpending
      exact Nat.add_left_cancel hpending
    · -- The records that stay are from after the span.
      have hkept : (q.purge cutoff).2.tombstones = (r.purge cutoff).2.tombstones := by
        apply Std.ExtTreeSet.ext_mem
        intro u
        rw [mem_purge_tombstones, mem_purge_tombstones]
        exact and_congr_left fun hle => h.records (Or.inr (Std.lt_of_lt_of_le hnew hle))
      rw [Registry.pending, Registry.pending, hkept]

/-- Two clears that come to the same files in different orders. -/
theorem cleared {order order' : List FileId} (hdated : r.Dated) (htracked : r.Tracked)
    (few : (r.clearIn order).issued < UInt64.size - 1) (hperm : order'.Perm order) :
    Shuffled r.currentStamp (r.clearIn order).currentStamp (r.clearIn order') (r.clearIn order) := by
  have hissued : (r.clearIn order').issued = (r.clearIn order).issued := by
    rw [clearIn_issued, clearIn_issued, hperm.length_eq]
  have hwithin {n : Nat} (hlt : r.issued < n) (hle : n ≤ (r.clearIn order).issued) :
      (Stamp.nth n).Within r.currentStamp (r.clearIn order).currentStamp :=
    Stamp.within_nth (by omega) hlt hle
  have hrecords {o : List FileId} {u : Tombstone} (ho : (r.clearIn o).issued = (r.clearIn order).issued)
      (hu : u.stamp.Apart r.currentStamp (r.clearIn order).currentStamp) :
      u ∈ (r.clearIn o).tombstones ↔ u ∈ r.tombstones := by
    refine ⟨fun hmem => ?_, mem_clearIn_tombstones⟩
    rcases mem_removeAll_tombstones o r hmem with hold | ⟨n, hlt, hle, hn⟩
    · exact hold
    · rw [hn] at hu
      exact absurd (hwithin hlt (Nat.le_trans hle (Nat.le_of_eq ho))) hu.not_within
  refine ⟨hissued, Std.le_refl _, fun f => ?_, fun hu => (hrecords hissued hu).trans (hrecords rfl hu).symm, ?_,
    htracked.removeAll order', htracked.removeAll order⟩
  · obtain ⟨hout, hin⟩ := slots_clearIn r order f
    obtain ⟨hout', hin'⟩ := slots_clearIn r order' f
    by_cases hf : f ∈ order
    · obtain ⟨n, hlt, hle, hn⟩ := hin hf
      obtain ⟨n', hlt', hle', hn'⟩ := hin' (hperm.mem_iff.mpr hf)
      exact Or.inr ⟨_, _, hn', hn, hwithin hlt' (Nat.le_trans hle' (Nat.le_of_eq hissued)), hwithin hlt hle⟩
    · exact Or.inl ((hout' (mt hperm.mem_iff.mp hf)).trans (hout hf).symm)
  · rw [hdated.pending_clearIn few, hdated.pending_clearIn (hissued ▸ few), hperm.length_eq]

end Shuffled

end Registry

namespace Service

variable {s k : Service} {since till : Stamp} {request : Request} {order order' : List FileId}

/-- A clear of the service's registry that comes to the files in some order. -/
def clearIn (s : Service) (order : List FileId) : Service := { s with registry := s.registry.clearIn order }

/-- The service clears its files in the order in which it keeps them, that of their names. -/
theorem answer_clear (s : Service) : (s.answer .clear).2 = s.clearIn s.registry.slots.keys := rfl

/-- What happens to one of the services happens to the other, and is answered alike. -/
theorem answer_shuffled (h : Registry.Shuffled since till k.registry s.registry)
    (hrequest : request.Apart since till) (hin : (s.answer request).2.InTime) :
    (k.answer request).1 = (s.answer request).1 ∧
      Registry.Shuffled since till (k.answer request).2.registry (s.answer request).2.registry := by
  have few : s.registry.issued < UInt64.size - 1 := hin.of_le (issued_le_answer s request)
  cases request with
  | clear | forget => exact hrequest.elim
  | put file entry => exact h.put hrequest file
  | remove file => exact ⟨h.contains_eq file, h.remove few file⟩
  | purge cutoff => exact h.purge hrequest
  | nextStamp => exact ⟨congrArg (fun n => Stamp.nth (n + 1)) h.issued, h.nextStamp few⟩
  | currentStamp => exact ⟨congrArg Stamp.nth h.issued, h⟩
  | pending => exact ⟨h.pending, h⟩
  | get | contains | files | size | isEmpty | snapshot | candidates | declaring | explain | typesNamed | references =>
    exact ⟨reply_congr ⟨⟩ h.get?_eq, h⟩

/-- Each of the requests draws one stamp at most. -/
theorem issued_answerAll_le {requests : List Request} (h : ∀ request ∈ requests, request.Apart since till) :
    (s.answerAll requests).registry.issued ≤ s.registry.issued + requests.length := by
  induction requests generalizing s with
  | nil => exact Nat.le_refl _
  | cons request requests ih =>
    obtain ⟨hrequest, h⟩ := List.forall_mem_cons.mp h
    have hone : (s.answer request).2.registry.issued ≤ s.registry.issued + 1 := by
      cases request with
      | clear | forget => exact hrequest.elim
      | put => exact Nat.le_succ_of_le (Nat.le_of_eq Registry.put_issued)
      | purge => exact Nat.le_succ_of_le (Nat.le_of_eq Registry.purge_issued)
      | remove | nextStamp => exact Nat.le_refl _
      | _ => exact Nat.le_succ _
    have hrest : (s.answerAll (request :: requests)).registry.issued ≤ _ := ih (s := (s.answer request).2) h
    rw [List.length_cons]
    omega

/-- In whatever order a clear comes to the files that have slots, and the service's own order is one: afterwards none
    has an entry, the clock has advanced by one for each, and what a build from before the clear puts in any of them
    is stale. And while stamps are left and no stamp of the clear's own span is asked for, nothing that is put,
    removed, purged, drawn, counted or read later shows in which order it was. -/
theorem clear_in_any_order {writes : List Write} (reached : s.registry = Registry.empty.writeAll writes)
    (all : order.Perm s.registry.slots.keys) (all' : order'.Perm s.registry.slots.keys) {requests : List Request}
    (later : ∀ request ∈ requests, request.Apart s.now (s.clearIn order).now)
    (few : ((s.clearIn order).answerAll requests).InTime) :
    (s.answer .clear).2 = s.clearIn s.registry.slots.keys ∧
    (s.clearIn order').answers requests = (s.clearIn order).answers requests ∧
    (∀ f, (s.clearIn order).registry.get? f = none) ∧
    (s.clearIn order).now.toNat = s.now.toNat + s.registry.slots.size ∧
    ∀ file ∈ s.registry.slots, ∀ entry : Entry, entry.stamp ≤ s.now →
      ((s.clearIn order).registry.put file entry).1 = .stale := by
  have back {s : Service} {request : Request} (h : (s.answer request).2.InTime) : s.InTime :=
    h.of_le (issued_le_answer s request)
  have hin : (s.clearIn order).InTime := of_answerAll back few
  have hissued : (s.clearIn order).registry.issued = s.registry.issued + order.length :=
    Registry.clearIn_issued s.registry order
  have hbefore : s.InTime := hin.of_le (hissued ▸ Nat.le_add_right _ _)
  have hslot (f : FileId) : f ∈ order ↔ f ∈ s.registry.slots := all.mem_iff.trans Std.ExtTreeMap.mem_keys
  have hcleared := Registry.slots_clearIn s.registry order
  refine ⟨answer_clear s, ?_, fun f => ?_, ?_, fun file hfile entry hle => ?_⟩
  · have hdated : s.registry.Dated := by
      rw [reached]
      exact Registry.dated_writeAll (reached ▸ hbefore)
    have htracked : s.registry.Tracked := reached ▸ Registry.tracked_empty.writeAll writes
    have hcleared : Registry.Shuffled s.now (s.clearIn order).now (s.clearIn order').registry
        (s.clearIn order).registry := .cleared hdated htracked hin (all'.trans all.symm)
    have hall := answers_eq_of_kept (fun _ => true) InTime back (fun h hrequest hin =>
      And.imp_left (fun hreply _ => hreply) (answer_shuffled h hrequest hin)) hcleared later few
    rwa [List.filter_eq_self.mpr fun _ _ => rfl, List.filter_eq_self.mpr fun _ _ => rfl] at hall
  · by_cases hf : f ∈ order
    · obtain ⟨n, -, -, hn⟩ := (hcleared f).2 hf
      exact Registry.get?_of_forgotten hn
    · refine Registry.get?_of_none (((hcleared f).1 hf).trans ?_)
      exact Std.ExtTreeMap.getElem?_eq_none (mt (hslot f).mpr hf)
  · rw [hin.toNat_now, hbefore.toNat_now, hissued, all.length_eq, Std.ExtTreeMap.length_keys]
  · obtain ⟨n, hlt, hle', hn⟩ := (hcleared file).2 ((hslot file).mpr hfile)
    refine Registry.put_eq_stale_iff.mpr ⟨_, hn, Std.le_trans hle (Stamp.le_iff.mpr ?_)⟩
    rw [hbefore.toNat_now, Slot.stamp, hin.toNat_nth hle']
    exact Nat.le_of_lt hlt

/-- Two files, of which one was forgotten already, are cleared in either order. A purge up to the clear takes neither
    tombstone, a late build is stale, a new one is not, and a purge after the clear takes what is left. -/
theorem clear_in_any_order_of_two :
    let s : Service := { settings := .standard, registry := Registry.empty.writeAll [.nextStamp,
      .put ⟨"A.java"⟩ (.ofSummary {} (.nth 1)), .remove ⟨"B.java"⟩] }
    let requests : List Request := [.pending, .purge (.nth 2), .put ⟨"B.java"⟩ (.ofSummary {} (.nth 1)), .nextStamp,
      .put ⟨"B.java"⟩ (.ofSummary {} (.nth 5)), .purge (.nth 5), .pending, .files, .currentStamp]
    (∀ request ∈ requests, request.Apart s.now (s.clearIn [⟨"A.java"⟩, ⟨"B.java"⟩]).now) ∧
    (s.clearIn [⟨"B.java"⟩, ⟨"A.java"⟩]).answers requests = (s.clearIn [⟨"A.java"⟩, ⟨"B.java"⟩]).answers requests ∧
    (s.clearIn [⟨"B.java"⟩, ⟨"A.java"⟩]).registry ≠ (s.clearIn [⟨"A.java"⟩, ⟨"B.java"⟩]).registry := by
  intro s requests
  have hnow : s.now = .nth 2 := by cbv
  have hafter : (s.clearIn [⟨"A.java"⟩, ⟨"B.java"⟩]).now = .nth 4 := by cbv
  have later : ∀ request ∈ requests, request.Apart s.now (s.clearIn [⟨"A.java"⟩, ⟨"B.java"⟩]).now := by
    simp only [requests, hnow, hafter, List.forall_mem_cons, Request.Apart, Stamp.Apart, Entry.ofSummary]
    exact ⟨⟨⟩, by decide, by decide, ⟨⟩, by decide, by decide, ⟨⟩, ⟨⟩, ⟨⟩, List.forall_mem_nil _⟩
  have all : [⟨"A.java"⟩, ⟨"B.java"⟩].Perm s.registry.slots.keys := .of_eq (by cbv)
  have all' : [⟨"B.java"⟩, ⟨"A.java"⟩].Perm s.registry.slots.keys := (List.Perm.swap _ _ []).trans all
  have few : ((s.clearIn [⟨"A.java"⟩, ⟨"B.java"⟩]).answerAll requests).InTime := by
    have hissued : (s.clearIn [⟨"A.java"⟩, ⟨"B.java"⟩]).registry.issued = 4 := by cbv
    refine Nat.lt_of_le_of_lt (issued_answerAll_le later) ?_
    rw [hissued]
    decide
  have h := clear_in_any_order (s := s) rfl all all' later few
  exact ⟨later, h.2.1, by decide⟩

end Service

end Concordance
