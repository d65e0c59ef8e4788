import Concordance.Proofs.Folds
import Concordance.Proofs.Registry.Slots
import Concordance.Registry.Search

/-! What is read of the registry. Every read is a view of one thing, the entry that each file has or has
    not: two registries that agree there answer every read alike. -/

namespace Concordance

/-! ### Sealed summaries -/

/-- Sealing a summary declares the names of its types, and no others besides. -/
theorem Entry.mem_declared_ofSummary {s : Summary} {stamp : Stamp} {name : String} :
    name ∈ (Entry.ofSummary s stamp).declared ↔ name ∈ s.declared ∨ ∃ t ∈ s.types, t.name = name := by
  simp only [Entry.ofSummary, Std.ExtTreeSet.foldl_eq_foldl_toList, mem_foldl_insert, Std.ExtTreeSet.mem_toList]

/-- An entry mentions what its summary declares, what it refers to and the names of its types. -/
theorem Entry.mentions_ofSummary {s : Summary} {stamp : Stamp} {name : String} :
    (Entry.ofSummary s stamp).mentions name = true ↔
      name ∈ s.declared ∨ name ∈ s.referenced ∨ ∃ t ∈ s.types, t.name = name := by
  rw [Entry.mentions, Bool.or_eq_true, Entry.refersTo, Entry.declares, Std.ExtTreeSet.contains_iff_mem,
    Std.ExtTreeSet.contains_iff_mem, Entry.mem_declared_ofSummary]
  exact or_left_comm

namespace Registry

variable {r q : Registry} {file f : FileId} {entry e : Entry}

/-! ### The entry of a file -/

theorem get?_eq_some_iff : r.get? f = some e ↔ r.slots[f]? = some (.live e) := by
  unfold get?
  cases hs : r.slots[f]? with
  | none => simp
  | some slot => cases slot <;> simp [Slot.live?]

theorem get?_of_slots (h : q.slots[f]? = r.slots[f]?) : q.get? f = r.get? f := by
  simp only [get?, h]

theorem get?_of_none (h : r.slots[f]? = none) : r.get? f = none := by simp only [get?, h, Option.bind_none]

theorem get?_of_forgotten {t : Stamp} (h : r.slots[f]? = some (.forgotten t)) : r.get? f = none := by
  simp only [get?, h, Option.bind_some, Slot.live?]

theorem contains_eq_false_iff : r.contains f = false ↔ r.get? f = none :=
  Option.isSome_eq_false_iff.trans Option.isNone_iff_eq_none

/-- A purge takes no entry away. -/
theorem get?_purge (r : Registry) (cutoff : Stamp) (f : FileId) : (r.purge cutoff).2.get? f = r.get? f := by
  rcases slots_purge r cutoff f with h | ⟨h, t, ht, -⟩
  · exact get?_of_slots h
  · rw [get?_of_none h, get?_of_forgotten ht]

theorem get?_remove : (r.remove file).2.get? f = if f = file then none else r.get? f := by
  by_cases hf : f = file
  · subst hf
    rw [if_pos rfl, get?_of_forgotten (slots_remove.trans (if_pos rfl))]
  · rw [if_neg hf, get?_of_slots (slots_remove.trans (if_neg hf))]

theorem get?_clear : r.clear.get? f = none := by
  cases h : r.slots[f]? with
  | none => exact get?_of_none (slots_clear_of_none h)
  | some slot =>
    obtain ⟨n, -, -, hs⟩ := slots_clear_of_some h
    exact get?_of_forgotten hs

theorem get?_insert (r : Registry) (file f : FileId) (entry : Entry) :
    ({ r with slots := r.slots.insert file (.live entry) } : Registry).get? f =
      if f = file then some entry else r.get? f := by
  simp only [get?, slots_insert]
  split <;> rfl

/-! ### Searches -/

/-- The snapshot lists what `get?` gives, in the order of the files. -/
theorem snapshot_eq (r : Registry) : r.snapshot = (r.slots.filterMap fun _ slot => slot.live?).toList := by
  rw [Std.ExtTreeMap.toList_filterMap]
  rfl

theorem mem_snapshot : (f, e) ∈ r.snapshot ↔ r.get? f = some e := by
  rw [snapshot_eq, Std.ExtTreeMap.mem_toList_iff_getElem?_eq_some, Std.ExtTreeMap.getElem?_filterMap']
  rfl

/-- The other listings scan the slots by themselves, and find what the snapshot finds. -/
theorem files_eq (r : Registry) : r.files = r.snapshot.map Prod.fst := by
  rw [files, snapshot]
  induction r.slots.toList with
  | nil => rfl
  | cons slot rest ih =>
    obtain ⟨f, live | forgotten⟩ := slot
    · simpa [List.filter_cons] using ih
    · simpa [List.filter_cons, List.filterMap_cons] using ih

theorem size_eq (r : Registry) : r.size = r.snapshot.length := by
  rw [← List.length_map Prod.fst, ← files_eq, files, List.length_map, size, List.countP_eq_length_filter]

/-- Each file is listed once. -/
theorem nodup_snapshot (r : Registry) : (r.snapshot.map Prod.fst).Nodup := by
  rw [snapshot_eq, List.Nodup, List.pairwise_map]
  refine Std.ExtTreeMap.distinct_keys_toList.imp fun {a b} h heq => h ?_
  rw [heq, Std.LawfulEqCmp.compare_eq_iff_eq]

theorem mem_files : f ∈ r.files ↔ (r.get? f).isSome = true := by
  rw [files_eq, List.mem_map, Option.isSome_iff_exists]
  constructor
  · rintro ⟨⟨g, e⟩, hmem, rfl⟩
    exact ⟨e, mem_snapshot.mp hmem⟩
  · rintro ⟨e, he⟩
    exact ⟨(f, e), mem_snapshot.mpr he, rfl⟩

theorem isEmpty_iff : r.isEmpty = true ↔ ∀ f, r.get? f = none := by
  rw [isEmpty, decide_eq_true_iff, size_eq, List.length_eq_zero_iff, List.eq_nil_iff_forall_not_mem]
  constructor
  · intro h f
    exact Option.eq_none_iff_forall_ne_some.mpr fun e he => h (f, e) (mem_snapshot.mpr he)
  · rintro h ⟨f, e⟩ hmem
    exact nomatch (h f).symm.trans (mem_snapshot.mp hmem)

theorem snapshot_congr (h : ∀ f, q.get? f = r.get? f) : q.snapshot = r.snapshot := by
  rw [snapshot_eq, snapshot_eq]
  congr 1
  apply Std.ExtTreeMap.ext_getElem?
  intro f
  rw [Std.ExtTreeMap.getElem?_filterMap', Std.ExtTreeMap.getElem?_filterMap']
  exact h f

theorem mem_filesWhere {p : Entry → Bool} : f ∈ r.filesWhere p ↔ ∃ e, r.get? f = some e ∧ p e = true := by
  simp only [filesWhere, Std.ExtTreeSet.mem_ofList, List.contains_iff_mem, List.mem_map, List.mem_filter]
  constructor
  · rintro ⟨⟨g, e⟩, ⟨hmem, hp⟩, rfl⟩
    exact ⟨e, mem_snapshot.mp hmem, hp⟩
  · rintro ⟨e, he, hp⟩
    exact ⟨(f, e), ⟨mem_snapshot.mpr he, hp⟩, rfl⟩

/-- A file is a candidate for a name if it has an entry that mentions it. -/
theorem mem_candidates {name : String} :
    f ∈ r.candidates name ↔ ∃ e, r.get? f = some e ∧ e.mentions name = true := mem_filesWhere

end Registry

end Concordance
