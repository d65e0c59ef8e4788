import Mathlib
import Concordance.Proofs.Registry.Tombstones

/-! The order in which entries arrive. A client may draw its stamps early and put its entries late, in any
    order: each file ends up with the newest thing that was said of it, and an entry that comes later than it
    did still leads to the same slots. -/

namespace Concordance

/-- Whether a write draws a stamp or is about one file. -/
def Write.Plain : Write → Prop
  | .put .. | .remove _ | .nextStamp => True
  | .clear | .purge _ => False

/-- The stamp that a write puts. -/
def Write.stamp? : Write → Option Stamp
  | .put _ entry => some entry.stamp
  | .remove _ | .clear | .nextStamp | .purge _ => none

/-- A report is in time after another if no earlier one has its stamp, and if it is newer whenever it says
    that its file is forgotten. -/
def Slot.Follows (slot earlier : Slot) : Prop :=
  earlier.stamp ≠ slot.stamp ∧ (slot.isLive = false → earlier.stamp < slot.stamp)

namespace Registry

section

variable {β : Type} (read : Registry → Write → Option β)

/-- What is read off the writes of a run, each with the registry that it finds. -/
def trail (r : Registry) : List Write → List β
  | [] => []
  | w :: rest => (read r w).toList ++ (r.write w).trail rest

end

/-- What a write says of a file: that it has an entry, or that it is forgotten. -/
def report? (r : Registry) : Write → Option (FileId × Slot)
  | .put file entry => some (file, .live entry)
  | .remove file => some (file, .forgotten r.nextStamp.1)
  | .clear | .nextStamp | .purge _ => none

/-- The stamp that a client draws by a write. -/
def drawn? (r : Registry) : Write → Option Stamp
  | .nextStamp => some r.nextStamp.1
  | .put .. | .remove _ | .clear | .purge _ => none

/-- What some writes say of files, in the order of time. -/
abbrev reports (r : Registry) (writes : List Write) : List (FileId × Slot) := r.trail report? writes

/-- The stamps that a client draws by some writes. -/
abbrev drawn (r : Registry) (writes : List Write) : List Stamp := r.trail drawn? writes

/-- Each slot is the newest report on its file. -/
structure Newest (r : Registry) (reports : List (FileId × Slot)) : Prop where
  reported : ∀ {f : FileId} {slot : Slot}, r.slots[f]? = some slot → (f, slot) ∈ reports
  covers : ∀ {f : FileId} {slot : Slot}, (f, slot) ∈ reports → ∃ top, r.slots[f]? = some top ∧ slot.stamp ≤ top.stamp

end Registry

/-- Writes of a client that puts each entry under a stamp of its own, which it drew before. -/
structure Deliveries (writes : List Write) : Prop where
  plain : ∀ w ∈ writes, w.Plain
  drawn : ∀ before file entry later, writes = before ++ .put file entry :: later →
    entry.stamp ∈ Registry.empty.drawn before
  once : (writes.filterMap Write.stamp?).Nodup
  few : (Registry.empty.writeAll writes).issued < UInt64.size - 1

namespace Registry

variable {β : Type} {read : Registry → Write → Option β} {r q : Registry} {w : Write} {writes more : List Write}
  {file f : FileId} {slot other : Slot} {entry : Entry} {l : List (FileId × Slot)}

/-! ### Runs -/

theorem writeAll_append (r : Registry) (writes more : List Write) :
    r.writeAll (writes ++ more) = (r.writeAll writes).writeAll more := List.foldl_append

theorem writeAll_concat (r : Registry) (writes : List Write) (w : Write) :
    r.writeAll (writes ++ [w]) = (r.writeAll writes).write w := writeAll_append r writes [w]

theorem trail_append (r : Registry) (writes more : List Write) :
    r.trail read (writes ++ more) = r.trail read writes ++ (r.writeAll writes).trail read more := by
  induction writes generalizing r with
  | nil => rfl
  | cons w writes ih => rw [List.cons_append, trail, trail, ih, List.append_assoc]; rfl

theorem trail_concat (r : Registry) (writes : List Write) (w : Write) :
    r.trail read (writes ++ [w]) = r.trail read writes ++ (read (r.writeAll writes) w).toList := by
  rw [trail_append, trail, trail, List.append_nil]

/-- The clock goes on alike whatever stands in the slots, and so do the stamps of forgotten files. -/
theorem write_congr (hw : w.Plain) (h : q.issued = r.issued) :
    (q.write w).issued = (r.write w).issued ∧ q.report? w = r.report? w := by
  cases w with
  | put file entry => exact ⟨put_issued.trans (h.trans put_issued.symm), rfl⟩
  | remove file | nextStamp => simp [write, report?, nextStamp, remove, h]
  | clear | purge => exact hw.elim

theorem run_congr (hplain : ∀ w ∈ writes, w.Plain) (h : q.issued = r.issued) :
    (q.writeAll writes).issued = (r.writeAll writes).issued ∧ q.reports writes = r.reports writes := by
  induction writes generalizing q r with
  | nil => exact ⟨h, rfl⟩
  | cons w writes ih =>
    obtain ⟨hw, hplain⟩ := List.forall_mem_cons.mp hplain
    obtain ⟨hstep, hreport⟩ := write_congr hw h
    obtain ⟨hissued, hrest⟩ := ih hplain hstep
    refine ⟨hissued, ?_⟩
    rw [reports, trail, hreport]
    exact congrArg _ hrest

/-! ### Slots and reports -/

namespace Newest

/-- A report that is as new as all reports on its file so far makes the slot. -/
theorem insert (h : r.Newest l) (hq : q.slots = r.slots.insert file slot)
    (hnew : ∀ other, (file, other) ∈ l → other.stamp ≤ slot.stamp) : q.Newest (l ++ [(file, slot)]) where
  reported {f top} htop := by
    rw [hq, slots_insert] at htop
    rw [List.mem_append, List.mem_singleton]
    split at htop
    next hf =>
      obtain rfl := Option.some.inj htop
      exact Or.inr (by rw [hf])
    next => exact Or.inl (h.reported htop)
  covers {f other} hmem := by
    rw [hq, slots_insert]
    rw [List.mem_append, List.mem_singleton] at hmem
    by_cases hf : f = file
    · subst hf
      refine ⟨slot, if_pos rfl, ?_⟩
      rcases hmem with hold | hnow
      · exact hnew other hold
      · cases hnow
        exact Std.le_refl _
    · rw [if_neg hf]
      rcases hmem with hold | hnow
      · exact h.covers hold
      · cases hnow
        exact absurd rfl hf

/-- A report that is no newer than its file's slot changes nothing. -/
theorem skip (h : r.Newest l) (hs : r.slots[file]? = some slot) (hle : other.stamp ≤ slot.stamp) :
    r.Newest (l ++ [(file, other)]) where
  reported htop := List.mem_append_left _ (h.reported htop)
  covers {f x} hmem := by
    rcases List.mem_append.mp hmem with hold | hnow
    · exact h.covers hold
    · cases List.mem_singleton.mp hnow
      exact ⟨slot, hs, hle⟩

theorem write (h : r.Newest l) (hw : w.Plain)
    (hnew : ∀ file slot, r.report? w = some (file, slot) → ∀ x ∈ l, slot.Follows x.2) :
    (r.write w).Newest (l ++ (r.report? w).toList) := by
  cases w with
  | put file entry =>
    by_cases hstale : ∃ slot, r.slots[file]? = some slot ∧ entry.stamp ≤ slot.stamp
    · obtain ⟨slot, hs, hle⟩ := hstale
      rw [Registry.write, put_of_stale hs hle]
      exact h.skip hs hle
    · have hnewer : ∀ slot, r.slots[file]? = some slot → ¬entry.stamp ≤ slot.stamp :=
        fun slot hs hle => hstale ⟨slot, hs, hle⟩
      rw [Registry.write, put_of_newer hnewer]
      refine h.insert rfl fun other hmem => ?_
      obtain ⟨top, htop, hle⟩ := h.covers hmem
      exact Std.le_trans hle (Std.le_of_lt (Std.not_le.mp (hnewer top htop)))
  | remove file =>
    refine h.insert rfl fun other hmem => ?_
    exact Std.le_of_lt ((hnew file _ rfl _ hmem).2 rfl)
  | nextStamp => exact (List.append_nil l).symm ▸ ⟨h.reported, h.covers⟩
  | clear | purge => exact hw.elim

/-- If no two reports have one stamp, the newest report on a file is its slot. -/
theorem getElem?_eq_some_iff (h : r.Newest l) (hl : l.Pairwise fun x y => y.2.Follows x.2) :
    r.slots[f]? = some slot ↔ (f, slot) ∈ l ∧ ∀ other, (f, other) ∈ l → other.stamp ≤ slot.stamp := by
  have hnodup : (l.map fun x => x.2.stamp).Nodup := List.pairwise_map.mpr (hl.imp fun h => h.1)
  constructor
  · intro hs
    refine ⟨h.reported hs, fun other hmem => ?_⟩
    obtain ⟨top, htop, hle⟩ := h.covers hmem
    obtain rfl := Option.some.inj (htop.symm.trans hs)
    exact hle
  · rintro ⟨hmem, hmax⟩
    obtain ⟨top, htop, hle⟩ := h.covers hmem
    have hge := hmax top (h.reported htop)
    have heq : (f, slot) = (f, top) :=
      List.inj_on_of_nodup_map hnodup hmem (h.reported htop) (Std.le_antisymm hle hge)
    rw [htop, (Prod.mk.inj heq).2]

end Newest

/-- Whatever plain writes say in time, the newest of it is in the slots. -/
theorem newest_writeAll (hplain : ∀ w ∈ writes, w.Plain)
    (htime : (empty.reports writes).Pairwise fun x y => y.2.Follows x.2) :
    (empty.writeAll writes).Newest (empty.reports writes) := by
  induction writes using List.reverseRecOn with
  | nil => exact ⟨fun h => by simp [writeAll, empty] at h, nofun⟩
  | append_singleton writes w ih =>
    rw [List.forall_mem_append, List.forall_mem_singleton] at hplain
    rw [reports, trail_concat, List.pairwise_append] at htime
    rw [writeAll_concat, reports, trail_concat]
    refine (ih hplain.1 htime.1).write hplain.2 fun file slot hreport x hx => ?_
    exact htime.2.2 x hx (file, slot) (by rw [hreport]; exact List.mem_singleton_self _)

/-- A run of which the reports are the same but for their order, and in time too, has the same slots. -/
theorem slots_eq_of_perm (hplain : ∀ w ∈ writes, w.Plain) (hplain' : ∀ w ∈ more, w.Plain)
    (htime : (empty.reports writes).Pairwise fun x y => y.2.Follows x.2)
    (htime' : (empty.reports more).Pairwise fun x y => y.2.Follows x.2)
    (hperm : (empty.reports more).Perm (empty.reports writes)) :
    (empty.writeAll more).slots = (empty.writeAll writes).slots := by
  apply Std.ExtTreeMap.ext_getElem?
  intro f
  apply Option.ext
  intro slot
  rw [(newest_writeAll hplain htime).getElem?_eq_some_iff htime,
    (newest_writeAll hplain' htime').getElem?_eq_some_iff htime']
  simp only [hperm.mem_iff]

end Registry

/-! ### Deliveries -/

namespace Deliveries

variable {writes more before mid later rest : List Write} {w : Write} {file : FileId} {entry : Entry}

theorem of_append (h : Deliveries (writes ++ more)) : Deliveries writes where
  plain w hw := h.plain w (List.mem_append_left _ hw)
  drawn before file entry later heq := h.drawn before file entry (later ++ more) (by simp [heq])
  once := by
    have hnodup := h.once
    rw [List.filterMap_append] at hnodup
    exact (List.nodup_append.mp hnodup).1
  few := by
    have hfew := h.few
    rw [Registry.writeAll_append] at hfew
    exact Nat.lt_of_le_of_lt (Registry.issued_le_writeAll _ more) hfew

/-- What holds of the stamps in a run: each report is in time after those before it, entries have stamps that
    were drawn and put, and tombstones have stamps that were not drawn. -/
structure Timely (writes : List Write) : Prop where
  inTime : (Registry.empty.reports writes).Pairwise fun x y => y.2.Follows x.2
  drawn : ∀ t ∈ Registry.empty.drawn writes, t ≤ (Registry.empty.writeAll writes).currentStamp
  live : ∀ x ∈ Registry.empty.reports writes, x.2.isLive = true →
    x.2.stamp ∈ Registry.empty.drawn writes ∧ x.2.stamp ∈ writes.filterMap Write.stamp?
  forgotten : ∀ x ∈ Registry.empty.reports writes, x.2.isLive = false →
    x.2.stamp ≤ (Registry.empty.writeAll writes).currentStamp ∧ x.2.stamp ∉ Registry.empty.drawn writes

namespace Timely

theorem le_now (h : Timely writes) {x : FileId × Slot} (hx : x ∈ Registry.empty.reports writes) :
    x.2.stamp ≤ (Registry.empty.writeAll writes).currentStamp := by
  cases hlive : x.2.isLive with
  | true => exact h.drawn _ (h.live x hx hlive).1
  | false => exact (h.forgotten x hx hlive).1

/-- An entry may come at any time after its stamp was drawn. -/
theorem put (h : Timely writes) (hdrawn : entry.stamp ∈ Registry.empty.drawn writes)
    (honce : entry.stamp ∉ writes.filterMap Write.stamp?) : Timely (writes ++ [.put file entry]) := by
  have hreports : Registry.empty.reports (writes ++ [.put file entry]) =
      Registry.empty.reports writes ++ [(file, .live entry)] := Registry.trail_concat ..
  have hdraws : Registry.empty.drawn (writes ++ [.put file entry]) = Registry.empty.drawn writes :=
    (Registry.trail_concat ..).trans (List.append_nil _)
  have hnow : (Registry.empty.writeAll (writes ++ [.put file entry])).currentStamp =
      (Registry.empty.writeAll writes).currentStamp := by
    rw [Registry.writeAll_concat]
    exact congrArg Stamp.nth Registry.put_issued
  constructor
  · rw [hreports, List.pairwise_append]
    refine ⟨h.inTime, List.pairwise_singleton _ _, fun x hx y hy => ?_⟩
    obtain rfl := List.mem_singleton.mp hy
    refine ⟨fun heq => ?_, nofun⟩
    cases hlive : x.2.isLive with
    | true => exact honce (heq.subst (motive := (· ∈ writes.filterMap Write.stamp?)) (h.live x hx hlive).2)
    | false => exact (h.forgotten x hx hlive).2 (heq.symm.subst hdrawn)
  · rw [hdraws, hnow]
    exact h.drawn
  · rw [hreports, hdraws, List.filterMap_append, List.forall_mem_append, List.forall_mem_singleton]
    refine ⟨fun x hx hlive => ?_, fun _ => ⟨hdrawn, List.mem_append_right _ (List.mem_singleton_self _)⟩⟩
    exact (h.live x hx hlive).imp_right (List.mem_append_left _)
  · rw [hreports, hdraws, hnow, List.forall_mem_append, List.forall_mem_singleton]
    exact ⟨h.forgotten, nofun⟩

/-- A tombstone has a stamp of its own, newer than all that is out. -/
theorem remove (h : Timely writes) (few : (Registry.empty.writeAll writes).issued < UInt64.size - 1) :
    Timely (writes ++ [.remove file]) := by
  have hreports : Registry.empty.reports (writes ++ [.remove file]) = Registry.empty.reports writes ++
      [(file, .forgotten (Registry.empty.writeAll writes).nextStamp.1)] := Registry.trail_concat ..
  have hdraws : Registry.empty.drawn (writes ++ [.remove file]) = Registry.empty.drawn writes :=
    (Registry.trail_concat ..).trans (List.append_nil _)
  have hnow : (Registry.empty.writeAll (writes ++ [.remove file])).currentStamp =
      (Registry.empty.writeAll writes).nextStamp.1 := by
    rw [Registry.writeAll_concat]
    rfl
  have hnext : ∀ t ≤ (Registry.empty.writeAll writes).currentStamp,
      t < (Registry.empty.writeAll writes).nextStamp.1 := fun t => (Registry.lt_nextStamp_iff few).mpr
  constructor
  · rw [hreports, List.pairwise_append]
    refine ⟨h.inTime, List.pairwise_singleton _ _, fun x hx y hy => ?_⟩
    obtain rfl := List.mem_singleton.mp hy
    have hlt := hnext _ (h.le_now hx)
    exact ⟨Std.ne_of_lt hlt, fun _ => hlt⟩
  · rw [hdraws, hnow]
    exact fun t ht => Std.le_of_lt (hnext t (h.drawn t ht))
  · rw [hreports, hdraws, List.filterMap_append, List.forall_mem_append, List.forall_mem_singleton]
    exact ⟨fun x hx hlive => (h.live x hx hlive).imp_right (List.mem_append_left _), nofun⟩
  · rw [hreports, hdraws, hnow, List.forall_mem_append, List.forall_mem_singleton]
    refine ⟨fun x hx hlive => ?_, fun _ => ⟨Std.le_refl _, fun hmem => ?_⟩⟩
    · exact (h.forgotten x hx hlive).imp_left fun hle => Std.le_of_lt (hnext _ hle)
    · exact Std.lt_irrefl (hnext _ (h.drawn _ hmem))

/-- A stamp that is drawn is newer than all that is out, so no tombstone has it. -/
theorem nextStamp (h : Timely writes) (few : (Registry.empty.writeAll writes).issued < UInt64.size - 1) :
    Timely (writes ++ [.nextStamp]) := by
  have hreports : Registry.empty.reports (writes ++ [.nextStamp]) = Registry.empty.reports writes :=
    (Registry.trail_concat ..).trans (List.append_nil _)
  have hdraws : Registry.empty.drawn (writes ++ [.nextStamp]) =
      Registry.empty.drawn writes ++ [(Registry.empty.writeAll writes).nextStamp.1] := Registry.trail_concat ..
  have hnow : (Registry.empty.writeAll (writes ++ [.nextStamp])).currentStamp =
      (Registry.empty.writeAll writes).nextStamp.1 := by
    rw [Registry.writeAll_concat]
    rfl
  have hnext : ∀ t ≤ (Registry.empty.writeAll writes).currentStamp,
      t < (Registry.empty.writeAll writes).nextStamp.1 := fun t => (Registry.lt_nextStamp_iff few).mpr
  constructor
  · rw [hreports]
    exact h.inTime
  · rw [hdraws, hnow, List.forall_mem_append, List.forall_mem_singleton]
    exact ⟨fun t ht => Std.le_of_lt (hnext t (h.drawn t ht)), Std.le_refl _⟩
  · rw [hreports, hdraws, List.filterMap_append]
    exact fun x hx hlive => (h.live x hx hlive).imp (List.mem_append_left _) (List.mem_append_left _)
  · rw [hreports, hdraws, hnow]
    intro x hx hlive
    obtain ⟨hle, hnot⟩ := h.forgotten x hx hlive
    have hlt := hnext _ hle
    refine ⟨Std.le_of_lt hlt, fun hmem => ?_⟩
    rcases List.mem_append.mp hmem with hold | hnew
    · exact hnot hold
    · exact Std.ne_of_lt hlt (List.mem_singleton.mp hnew)

end Timely

theorem timely (h : Deliveries writes) : Timely writes := by
  induction writes using List.reverseRecOn with
  | nil => exact ⟨.nil, nofun, nofun, nofun⟩
  | append_singleton writes w ih =>
    have ht := ih h.of_append
    have hw := h.plain w (by simp)
    cases w with
    | put file entry =>
      refine ht.put (h.drawn writes file entry [] rfl) fun hmem => ?_
      have hnodup := h.once
      rw [List.filterMap_append, List.nodup_append] at hnodup
      exact hnodup.2.2 _ hmem _ (List.mem_singleton_self _) rfl
    | remove file => exact ht.remove h.of_append.few
    | nextStamp => exact ht.nextStamp h.of_append.few
    | clear | purge => exact hw.elim

/-- A put that comes later makes the same reports, only in another order, and they are still in time. -/
theorem reports_delayed (h : Deliveries (before ++ .put file entry :: (mid ++ rest))) :
    (Registry.empty.reports (before ++ mid ++ .put file entry :: rest)).Perm
      (Registry.empty.reports (before ++ .put file entry :: (mid ++ rest))) ∧
    (Registry.empty.reports (before ++ mid ++ .put file entry :: rest)).Pairwise fun x y => y.2.Follows x.2 := by
  let r := Registry.empty.writeAll before
  have hput : ∀ q : Registry, (q.write (.put file entry)).issued = q.issued := fun _ => Registry.put_issued
  have hmid : ∀ w ∈ mid, w.Plain := fun w hw => h.plain w (by simp [hw])
  have hrest : ∀ w ∈ rest, w.Plain := fun w hw => h.plain w (by simp [hw])
  obtain ⟨hissued, hmid⟩ := Registry.run_congr hmid (hput r)
  have hlast : ((r.write (.put file entry)).writeAll mid).reports rest =
      ((r.writeAll mid).write (.put file entry)).reports rest :=
    (Registry.run_congr hrest (hissued.trans (hput _).symm)).2
  have hearly : Registry.empty.reports (before ++ .put file entry :: (mid ++ rest)) =
      Registry.empty.reports before ++ (file, .live entry) ::
        (r.reports mid ++ ((r.writeAll mid).write (.put file entry)).reports rest) := by
    rw [← hmid, ← hlast, ← Registry.trail_append]
    exact Registry.trail_append ..
  have hlate : Registry.empty.reports (before ++ mid ++ .put file entry :: rest) =
      Registry.empty.reports before ++ (r.reports mid ++ (file, .live entry) ::
        ((r.writeAll mid).write (.put file entry)).reports rest) := by
    rw [List.append_assoc]
    exact (Registry.trail_append ..).trans (congrArg _ (Registry.trail_append ..))
  have htime := h.timely.inTime
  rw [hlate, hearly]
  rw [hearly] at htime
  refine ⟨List.perm_middle.append_left _, ?_⟩
  -- The entry follows the reports that it followed before, and those it let pass have other stamps.
  simp only [List.pairwise_append, List.pairwise_cons, List.mem_append, List.mem_cons] at htime ⊢
  obtain ⟨hbefore, ⟨hx, hmid, hlast, hacross⟩, hold⟩ := htime
  refine ⟨hbefore, ⟨hmid, ⟨fun y hy => hx y (Or.inr hy), hlast⟩, fun y hy z hz => ?_⟩, fun y hy z hz => ?_⟩
  · rcases hz with rfl | hz
    · exact ⟨(hx y (Or.inl hy)).1.symm, nofun⟩
    · exact hacross y hy z hz
  · refine hold y hy z ?_
    rcases hz with hz | rfl | hz
    · exact Or.inr (Or.inl hz)
    · exact Or.inl rfl
    · exact Or.inr (Or.inr hz)

theorem slots_delayed (h : Deliveries (before ++ .put file entry :: (mid ++ rest))) :
    (Registry.empty.writeAll (before ++ mid ++ .put file entry :: rest)).slots =
      (Registry.empty.writeAll (before ++ .put file entry :: (mid ++ rest))).slots := by
  obtain ⟨hperm, htime⟩ := h.reports_delayed
  refine Registry.slots_eq_of_perm h.plain (fun w hw => h.plain w ?_) h.timely.inTime htime hperm
  simp only [List.append_assoc, List.mem_append, List.mem_cons] at hw ⊢
  rcases hw with hw | hw | hw | hw
  · exact Or.inl hw
  · exact Or.inr (Or.inr (Or.inl hw))
  · exact Or.inr (Or.inl hw)
  · exact Or.inr (Or.inr (Or.inr hw))

theorem newest (h : Deliveries writes) :
    (Registry.empty.writeAll writes).Newest (Registry.empty.reports writes) :=
  Registry.newest_writeAll h.plain h.timely.inTime

/-- What makes a put stale is a newer report on its file. -/
theorem stale_iff (h : Deliveries (before ++ .put file entry :: later)) :
    ((Registry.empty.writeAll before).put file entry).1 = .stale ↔
      ∃ slot, (file, slot) ∈ Registry.empty.reports before ∧ entry.stamp < slot.stamp := by
  have hnewest := h.of_append.newest
  rw [Registry.put_eq_stale_iff]
  constructor
  · rintro ⟨slot, hs, hle⟩
    have hmem := hnewest.reported hs
    refine ⟨slot, hmem, Std.lt_of_le_of_ne hle fun heq => ?_⟩
    have htime := h.timely.inTime
    have hreports : Registry.empty.reports (before ++ .put file entry :: later) =
        Registry.empty.reports before ++ (file, .live entry) :: _ := Registry.trail_append ..
    rw [hreports, List.pairwise_append] at htime
    exact (htime.2.2 _ hmem _ List.mem_cons_self).1 heq.symm
  · rintro ⟨slot, hmem, hlt⟩
    obtain ⟨top, htop, hle⟩ := hnewest.covers hmem
    exact ⟨top, htop, Std.le_trans (Std.le_of_lt hlt) hle⟩

end Deliveries

/-- Of all that was said of a file the newest counts, in whichever order it came. A put is stale exactly if
    something newer came before it, and then changes nothing; else it tells whether the file had an entry. If
    a put is delayed, past whatever is put, removed or drawn meanwhile, the slots end up the same. -/
theorem newest_wins {writes : List Write} (h : Deliveries writes) :
    (∀ (f : FileId) slot, (Registry.empty.writeAll writes).slots[f]? = some slot ↔
      (f, slot) ∈ Registry.empty.reports writes ∧
        ∀ other, (f, other) ∈ Registry.empty.reports writes → other.stamp ≤ slot.stamp) ∧
    ∀ before file entry later, writes = before ++ .put file entry :: later →
      let r := Registry.empty.writeAll before
      ((r.put file entry).1 = .stale ↔
        ∃ slot, (file, slot) ∈ Registry.empty.reports before ∧ entry.stamp < slot.stamp) ∧
      ((r.put file entry).1 = .stale → (r.put file entry).2 = r) ∧
      ((r.put file entry).1 ≠ .stale → (r.put file entry).1 = if r.contains file then .replaced else .inserted) ∧
      ∀ mid rest, later = mid ++ rest →
        (Registry.empty.writeAll (before ++ mid ++ .put file entry :: rest)).slots =
          (Registry.empty.writeAll writes).slots := by
  refine ⟨fun f slot => h.newest.getElem?_eq_some_iff h.timely.inTime, ?_⟩
  rintro before file entry later rfl r
  refine ⟨h.stale_iff, fun hstale => ?_, fun hfresh => ?_, ?_⟩
  · obtain ⟨slot, hs, hle⟩ := Registry.put_eq_stale_iff.mp hstale
    rw [Registry.put_of_stale hs hle]
  · rw [Registry.put_of_newer fun slot hs hle => hfresh (Registry.put_eq_stale_iff.mpr ⟨slot, hs, hle⟩)]
  · rintro mid rest rfl
    exact h.slots_delayed

/-- A stamp is drawn, a file is forgotten, another stamp is drawn; then come two entries, the newer one first. -/
def lateWrites : List Write :=
  [.nextStamp, .remove ⟨"A"⟩, .nextStamp, .put ⟨"A"⟩ (.ofSummary {} (.nth 3)), .put ⟨"A"⟩ (.ofSummary {} (.nth 1))]

theorem deliveries_lateWrites : Deliveries lateWrites where
  plain := by simp [lateWrites, Write.Plain]
  drawn before f entry later h := by
    simp only [lateWrites, List.cons_eq_append_iff, List.nil_eq_append_iff, reduceCtorEq, List.cons.injEq,
      Write.put.injEq, false_and, and_false, false_or, exists_false, or_false] at h
    rcases h with ⟨_, rfl, _, rfl, _, rfl, ⟨rfl, ⟨rfl, rfl⟩, -⟩ | ⟨_, rfl, rfl, ⟨rfl, rfl⟩, -⟩⟩
    · exact List.mem_cons_of_mem _ (List.mem_singleton_self _)
    · exact List.mem_cons_self
  once := by decide
  few := by cbv

/-- What comes too late is stale, and nothing would change if it had come in time. -/
theorem newest_wins_late :
    let r := Registry.empty.writeAll
      [.nextStamp, .remove ⟨"A"⟩, .nextStamp, .put ⟨"A"⟩ (.ofSummary {} (.nth 3))]
    (r.put ⟨"A"⟩ (.ofSummary {} (.nth 1))).1 = .stale ∧
    (Registry.empty.writeAll [.nextStamp, .remove ⟨"A"⟩, .nextStamp, .put ⟨"A"⟩ (.ofSummary {} (.nth 1)),
      .put ⟨"A"⟩ (.ofSummary {} (.nth 3))]).slots = (Registry.empty.writeAll lateWrites).slots := by
  have h := newest_wins deliveries_lateWrites
  constructor
  · exact (h.2 _ _ _ [] rfl).1.mpr ⟨.live (.ofSummary {} (.nth 3)), by simp [Registry.trail, Registry.report?], by decide⟩
  · exact (h.2 [.nextStamp, .remove ⟨"A"⟩, .nextStamp] _ _ _ rfl).2.2.2 [_] [] rfl

end Concordance
