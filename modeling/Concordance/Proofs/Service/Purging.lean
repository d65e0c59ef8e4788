import Mathlib
import Concordance.Proofs.Registry.Tombstones
import Concordance.Proofs.Service.Answers

/-! Purging what nobody can ask for any more. A tombstone matters only to entries that are no newer than it. So
    while all that is put has the stamp of the cutoff or a newer one, a registry that lacks some tombstones from
    before the cutoff (`Lacks`) cannot be told from the one that has them, even where files are forgotten, put and
    forgotten again, and where either registry is purged some more. -/

namespace Concordance

/-- The requests that put nothing from before a stamp and do not ask how many slots or tombstones there are. -/
def Request.NotBefore (cutoff : Stamp) : Request → Prop
  | put _ entry => cutoff ≤ entry.stamp
  | clear | pending => False
  | _ => True

/-- Whether something other than tombstones is told. A purge tells how many it took. -/
def Request.isTelling : Request → Bool
  | purge _ => false
  | _ => true

namespace Registry

variable {q r q' r' : Registry} {cutoff : Stamp} {file f : FileId} {entry : Entry}

/-- The registry `q` is the registry `r` without some tombstones from before a stamp. -/
structure Lacks (cutoff : Stamp) (q r : Registry) : Prop where
  issued : q.issued = r.issued
  slots : ∀ f : FileId, q.slots[f]? = r.slots[f]? ∨
    q.slots[f]? = none ∧ ∃ t, r.slots[f]? = some (.forgotten t) ∧ t < cutoff
  tracked : q.Tracked
  tracked' : r.Tracked

namespace Lacks

theorem purged (h : r.Tracked) (cutoff : Stamp) : Lacks cutoff (r.purge cutoff).2 r where
  issued := purge_issued
  slots := slots_purge r cutoff
  tracked := h.purge cutoff
  tracked' := h

theorem get?_eq (h : Lacks cutoff q r) (f : FileId) : q.get? f = r.get? f := by
  rcases h.slots f with hsame | ⟨hnone, t, ht, -⟩
  · exact get?_of_slots hsame
  · rw [get?_of_none hnone, get?_of_forgotten ht]

theorem contains_eq (h : Lacks cutoff q r) (f : FileId) : q.contains f = r.contains f :=
  congrArg Option.isSome (h.get?_eq f)

/-- Both registries are written alike: each slot is the same in both, or as it was in each. -/
theorem write (h : Lacks cutoff q r) (hissued : q'.issued = r'.issued) (hq : q'.Tracked) (hr : r'.Tracked)
    (hslots : ∀ f : FileId, q'.slots[f]? = r'.slots[f]? ∨
      q'.slots[f]? = q.slots[f]? ∧ r'.slots[f]? = r.slots[f]?) : Lacks cutoff q' r' where
  issued := hissued
  slots f := by
    rcases hslots f with hsame | ⟨hqf, hrf⟩
    · exact Or.inl hsame
    · rw [hqf, hrf]
      exact h.slots f
  tracked := hq
  tracked' := hr

theorem put (h : Lacks cutoff q r) (hle : cutoff ≤ entry.stamp) (file : FileId) :
    (q.put file entry).1 = (r.put file entry).1 ∧ Lacks cutoff (q.put file entry).2 (r.put file entry).2 := by
  have hstale : (∃ slot, q.slots[file]? = some slot ∧ entry.stamp ≤ slot.stamp) ↔
      ∃ slot, r.slots[file]? = some slot ∧ entry.stamp ≤ slot.stamp := by
    rcases h.slots file with hsame | ⟨hnone, t, ht, hlt⟩
    · rw [hsame]
    · -- The entry is newer than the tombstone that is missing.
      have hnewer : ¬entry.stamp ≤ t := Std.not_le.mpr (Std.lt_of_lt_of_le hlt hle)
      simp [hnone, ht, Slot.stamp, hnewer]
  obtain ⟨houtcome, hslots⟩ := put_alike (h.contains_eq file) hstale
  exact ⟨houtcome, h.write (put_issued.trans (h.issued.trans put_issued.symm)) (h.tracked.put file entry)
    (h.tracked'.put file entry) hslots⟩

theorem remove (h : Lacks cutoff q r) (file : FileId) : Lacks cutoff (q.remove file).2 (r.remove file).2 := by
  refine h.write (congrArg (· + 1) h.issued) (h.tracked.remove file) (h.tracked'.remove file) fun f => ?_
  rw [slots_remove, slots_remove, h.issued]
  split
  · exact Or.inl rfl
  · exact Or.inr ⟨rfl, rfl⟩

theorem nextStamp (h : Lacks cutoff q r) : Lacks cutoff q.nextStamp.2 r.nextStamp.2 :=
  h.write (congrArg (· + 1) h.issued) h.tracked h.tracked' fun _ => Or.inr ⟨rfl, rfl⟩

/-- Whatever else is purged, from each of them by its own records. -/
theorem purge (h : Lacks cutoff q r) (stamp : Stamp) : Lacks cutoff (q.purge stamp).2 (r.purge stamp).2 where
  issued := purge_issued.trans (h.issued.trans purge_issued.symm)
  slots f := by
    rw [h.tracked.slots_purge_eq, h.tracked'.slots_purge_eq, Std.ExtTreeMap.getElem?_filter',
      Std.ExtTreeMap.getElem?_filter']
    rcases h.slots f with hsame | ⟨hnone, t, ht, hlt⟩
    · exact Or.inl (by rw [hsame])
    · rw [hnone, ht]
      by_cases hexpired : (Slot.forgotten t).expired stamp = true
      · exact Or.inl (by simp [Option.filter_some, hexpired])
      · exact Or.inr ⟨rfl, t, by simp [Option.filter_some, hexpired], hlt⟩
  tracked := h.tracked.purge stamp
  tracked' := h.tracked'.purge stamp

end Lacks

end Registry

namespace Service

variable {s k : Service} {cutoff : Stamp} {request : Request}

/-- Services that run the same builds over registries of which one lacks old tombstones of the other. -/
structure Lacks (cutoff : Stamp) (k s : Service) : Prop where
  registry : k.registry.Lacks cutoff s.registry
  running : k.running = s.running

namespace Lacks

theorem read (h : Lacks cutoff k s) (hreads : request.Reads) :
    (k.answer request).1 = (s.answer request).1 ∧ Lacks cutoff (k.answer request).2 (s.answer request).2 := by
  rw [answer_of_reads hreads, answer_of_reads hreads]
  exact ⟨reply_congr hreads h.registry.get?_eq, h⟩

/-- Both compact up to the same stamp. -/
theorem compact (h : Lacks cutoff k s) : Lacks cutoff k.compact s.compact where
  registry := by
    have hmark : k.lowWater = s.lowWater := by
      rw [lowWater, lowWater, h.running, Registry.currentStamp, h.registry.issued]
      rfl
    rw [Service.compact, Service.compact, hmark]
    exact h.registry.purge s.lowWater
  running := h.running

theorem remove (h : Lacks cutoff k s) (file : FileId) :
    Lacks cutoff { k with registry := (k.registry.remove file).2 } { s with registry := (s.registry.remove file).2 } :=
  ⟨h.registry.remove file, h.running⟩

/-- What happens to one of the services happens to the other, and is told alike. -/
theorem answer (h : Lacks cutoff k s) (hrequest : request.NotBefore cutoff) :
    (request.isTelling = true → (k.answer request).1 = (s.answer request).1) ∧
      Lacks cutoff (k.answer request).2 (s.answer request).2 := by
  cases request with
  | clear | pending => exact hrequest.elim
  | put file entry =>
    obtain ⟨houtcome, hput⟩ := h.registry.put hrequest file
    exact ⟨fun _ => houtcome, hput, h.running⟩
  | remove file => exact ⟨fun _ => h.registry.contains_eq file, h.remove file⟩
  | forget file => exact ⟨fun _ => h.registry.contains_eq file, (h.remove file).compact⟩
  | purge stamp => exact ⟨nofun, h.registry.purge stamp, h.running⟩
  | nextStamp =>
    exact ⟨fun _ => congrArg (fun n => Stamp.nth (n + 1)) h.registry.issued, h.registry.nextStamp, h.running⟩
  | currentStamp => exact ⟨fun _ => congrArg Stamp.nth h.registry.issued, h⟩
  | get | contains | files | size | isEmpty | snapshot | candidates | declaring | explain | typesNamed | references =>
    exact And.imp_left (fun hread _ => hread) (h.read ⟨⟩)

end Lacks

/-- A purge goes unnoticed while nothing is put that is older than its cutoff. Whatever was written before, and
    whatever is put, removed, forgotten, purged, drawn and read afterwards, all answers are the same with the purge
    and without it, but for how many tombstones later purges find. -/
theorem purge_unnoticed {writes : List Write} (reached : s.registry = Registry.empty.writeAll writes)
    {requests : List Request} (later : ∀ request ∈ requests, request.NotBefore cutoff) :
    ((s.answer (.purge cutoff)).2.answers requests).filter (fun a => a.1.isTelling) =
      (s.answers requests).filter fun a => a.1.isTelling := by
  have htracked : s.registry.Tracked := reached ▸ Registry.tracked_empty.writeAll writes
  have hpurged : Lacks cutoff (s.answer (.purge cutoff)).2 s := ⟨.purged htracked cutoff, rfl⟩
  exact answers_eq_of_kept Request.isTelling (fun _ => True) id (fun h hrequest _ => h.answer hrequest) hpurged later
    trivial

/-- A file is forgotten, and the purge takes its tombstone. Then the file comes back with the stamp of the cutoff, is
    forgotten again and purged again, and comes too late with the same entry. -/
theorem purge_unnoticed_returning :
    let s : Service := { settings := .standard, registry := Registry.empty.writeAll [.remove ⟨"A.java"⟩] }
    let requests : List Request := [.put ⟨"A.java"⟩ (.ofSummary {} (.nth 2)), .get ⟨"A.java"⟩, .remove ⟨"A.java"⟩,
      .put ⟨"A.java"⟩ (.ofSummary {} (.nth 2)), .purge (.nth 9), .files]
    (s.answer (.purge (.nth 2))).1 = 1 ∧
    (∀ request ∈ requests, request.NotBefore (.nth 2)) ∧
    ((s.answer (.purge (.nth 2))).2.answers requests).filter (fun a => a.1.isTelling) =
      (s.answers requests).filter fun a => a.1.isTelling := by
  intro s requests
  have later : ∀ request ∈ requests, request.NotBefore (.nth 2) := by
    simp [requests, Request.NotBefore, Entry.ofSummary]
  exact ⟨by cbv, later, purge_unnoticed rfl later⟩

end Service

end Concordance
