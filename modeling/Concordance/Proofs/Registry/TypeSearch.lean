import Mathlib
import Concordance.Proofs.Registry.Reads

/-! Searching types by name, in whatever order the slots and the types of an entry are come to. A scan finds each
    type once, and sorting puts qualified names and files into their places: two scans can differ only in how
    they arrange several kinds of one name in one file. -/

namespace Concordance

/-- Of one simple name the qualified names tell the packages apart, the one without a name included. -/
theorem Entry.qualify_eq_iff {e e' : Entry} {name : String} :
    e.qualify name = e'.qualify name ↔ e.package = e'.package := by
  have hlonger (package : String) : package ++ "." ++ name ≠ name := by
    intro heq
    have hlength := congrArg String.length heq
    simp only [String.length_append, show ".".length = 1 from rfl] at hlength
    omega
  refine ⟨fun h => ?_, fun h => by rw [qualify, qualify, h]⟩
  unfold qualify at h
  split at h <;> split at h
  next hempty hempty' => rw [String.isEmpty_iff.mp hempty, String.isEmpty_iff.mp hempty']
  next => exact absurd h.symm (hlonger e'.package)
  next => exact absurd h (hlonger e.package)
  next => exact String.append_left_inj "." |>.mp (String.append_left_inj name |>.mp h)

namespace TypeLocation

variable {a b : TypeLocation} {l l' : List TypeLocation}

instance : Std.TransCmp order :=
  inferInstanceAs (Std.TransCmp (compareLex (compareOn qualifiedName) (compareOn file)))

/-- What types are listed by. -/
def key (l : TypeLocation) : String × FileId := (l.qualifiedName, l.file)

/-- The qualified names are in order, and where they agree the files are. -/
def InOrder (k k' : String × FileId) : Prop := k.1 < k'.1 ∨ k.1 = k'.1 ∧ k.2.text ≤ k'.2.text

theorem InOrder.antisymm {k k' : String × FileId} (h : InOrder k k') (h' : InOrder k' k) : k = k' := by
  obtain ⟨name, ⟨text⟩⟩ := k
  obtain ⟨name', ⟨text'⟩⟩ := k'
  rcases h with hlt | ⟨heq, hle⟩
  · rcases h' with hlt' | ⟨heq', -⟩
    · exact absurd hlt' (lt_asymm hlt)
    · exact absurd heq' (ne_of_gt hlt)
  · rcases h' with hlt' | ⟨-, hle'⟩
    · exact absurd heq (ne_of_gt hlt')
    · exact Prod.ext heq (congrArg FileId.mk (le_antisymm hle hle'))

theorem isLE_order : (order a b).isLE = true ↔ InOrder a.key b.key := by
  have horder : order a b = (compare a.qualifiedName b.qualifiedName).then (compare a.file.text b.file.text) := rfl
  have hfile : (compare a.file.text b.file.text).isLE = true ↔ a.file.text ≤ b.file.text := by
    rw [Ordering.isLE_iff_ne_gt, ← not_lt, ← compare_gt_iff_gt]
  rw [horder, Ordering.isLE_then_iff_or, compare_lt_iff_lt, compare_eq_iff_eq, hfile]
  rfl

/-- Where a list is in order there is no choice but among types with one key. -/
theorem map_key_eq_of_perm (h : l.Perm l') (hl : l.Pairwise fun a b => InOrder a.key b.key)
    (hl' : l'.Pairwise fun a b => InOrder a.key b.key) : l.map key = l'.map key :=
  (h.map key).eq_of_pairwise (fun _ _ _ _ => InOrder.antisymm) (List.pairwise_map.mpr hl) (List.pairwise_map.mpr hl')

end TypeLocation

namespace Registry

/-- An order in which a search can come to the slots and to the types of each entry. -/
structure Scan (r : Registry) where
  slots : List (FileId × Slot)
  /-- The types of the entry that a file has. -/
  types : FileId → List TopLevelType
  slots_perm : slots.Perm r.slots.toList
  types_perm : ∀ file e, r.get? file = some e → (types file).Perm e.types.toList

namespace Scan

variable {r : Registry} {scan other : r.Scan} {name : String} {file : FileId} {e : Entry} {l : TypeLocation}

/-- The scan in the order of the files, and for each file in the order of the types. -/
def inOrder (r : Registry) : r.Scan where
  slots := r.slots.toList
  types file := (r.get? file).elim [] fun e => e.types.toList
  slots_perm := .refl _
  types_perm file e h := by rw [h, Option.elim_some]

/-- The entries that a scan comes to. -/
def entries (scan : r.Scan) : List (FileId × Entry) :=
  scan.slots.filterMap fun slot => slot.2.live?.map fun entry => (slot.1, entry)

/-- The types of a simple name that a scan comes to. -/
def found (scan : r.Scan) (name : String) : List TypeLocation :=
  scan.entries.flatMap fun (file, e) =>
    ((scan.types file).filter fun t => t.name = name).map fun t => ⟨file, e.qualify t.name, t.kind⟩

/-- The search for types of a simple name by a scan. -/
def typesNamed (scan : r.Scan) (name : String) : List TypeLocation :=
  (scan.found name).mergeSort fun a b => (TypeLocation.order a b).isLE

theorem perm_snapshot (scan : r.Scan) : scan.entries.Perm r.snapshot := scan.slots_perm.filterMap _

theorem mem_entries : (file, e) ∈ scan.entries ↔ r.get? file = some e :=
  scan.perm_snapshot.mem_iff.trans mem_snapshot

/-- The registry searches by the scan in order. -/
theorem typesNamed_inOrder (r : Registry) (name : String) : (inOrder r).typesNamed name = r.typesNamed name := by
  have hfound : (inOrder r).found name = r.snapshot.flatMap fun (file, e) => e.typesNamed file name := by
    refine List.flatMap_congr fun (file, e) hmem => ?_
    have he : r.get? file = some e := mem_snapshot.mp hmem
    simp only [inOrder, he, Option.elim_some, Entry.typesNamed]
  rw [typesNamed, hfound, Registry.typesNamed]

theorem perm_found (scan other : r.Scan) (name : String) : (scan.found name).Perm (other.found name) := by
  refine (scan.perm_snapshot.trans other.perm_snapshot.symm).flatMap fun (file, e) hmem => ?_
  have he := mem_entries.mp hmem
  exact (((scan.types_perm file e he).trans (other.types_perm file e he).symm).filter _).map _

theorem perm_typesNamed (scan : r.Scan) (name : String) : (scan.typesNamed name).Perm (scan.found name) :=
  List.mergeSort_perm _ _

theorem mem_typesNamed : l ∈ scan.typesNamed name ↔
    ∃ e, r.get? l.file = some e ∧ l.qualifiedName = e.qualify name ∧ ⟨name, l.kind⟩ ∈ e.types := by
  simp only [scan.perm_typesNamed name |>.mem_iff, found, List.mem_flatMap, Prod.exists, List.mem_map, List.mem_filter,
    decide_eq_true_iff]
  constructor
  · rintro ⟨file, e, hmem, t, ⟨ht, rfl⟩, rfl⟩
    have he : r.get? file = some e := mem_entries.mp hmem
    exact ⟨e, he, rfl, Std.ExtTreeSet.mem_toList.mp ((scan.types_perm file e he).mem_iff.mp ht)⟩
  · rintro ⟨e, he, hname, ht⟩
    have ht := (scan.types_perm l.file e he).mem_iff.mpr (Std.ExtTreeSet.mem_toList.mpr ht)
    exact ⟨l.file, e, mem_entries.mpr he, ⟨name, l.kind⟩, ⟨ht, rfl⟩, by rw [← hname]⟩

theorem nodup_types (he : r.get? file = some e) : (scan.types file).Nodup := by
  refine (scan.types_perm file e he).nodup_iff.mpr (Std.ExtTreeSet.distinct_toList.imp fun {a b} hne heq => ?_)
  exact hne (Std.LawfulEqCmp.compare_eq_iff_eq.mpr heq)

/-- Each kind of a file is found once. -/
theorem nodup_typesNamed (scan : r.Scan) (name : String) :
    ((scan.typesNamed name).map fun l => (l.file, l.kind)).Nodup := by
  have hfiles : scan.entries.Pairwise fun a b => a.1 ≠ b.1 :=
    List.pairwise_map.mp ((scan.perm_snapshot.map Prod.fst).nodup_iff.mpr r.nodup_snapshot)
  rw [((scan.perm_typesNamed name).map _).nodup_iff, found, List.map_flatMap, List.nodup_flatMap]
  constructor
  · rintro ⟨file, e⟩ hmem
    have htypes : (scan.types file).Nodup := nodup_types (mem_entries.mp hmem)
    rw [List.map_map]
    refine (htypes.filter _).map_on fun t ht t' ht' heq => ?_
    simp only [List.mem_filter, decide_eq_true_iff] at ht ht'
    simp only [Function.comp_apply, Prod.mk.injEq, true_and] at heq
    cases t
    cases t'
    simp_all
  · refine hfiles.imp fun {a b} hne x hx hx' => ?_
    simp only [List.mem_map] at hx hx'
    obtain ⟨l, ⟨t, -, rfl⟩, rfl⟩ := hx
    obtain ⟨l', ⟨t', -, rfl⟩, heq⟩ := hx'
    exact hne (Prod.ext_iff.mp heq).1.symm

/-- What a search finds is in order. -/
theorem pairwise_typesNamed (scan : r.Scan) (name : String) :
    (scan.typesNamed name).Pairwise fun a b => TypeLocation.InOrder a.key b.key :=
  (pairwise_isLE_mergeSort _).imp TypeLocation.isLE_order.mp

theorem perm_typesNamed_of_scans (scan other : r.Scan) (name : String) :
    (other.typesNamed name).Perm (scan.typesNamed name) :=
  (other.perm_typesNamed name).trans ((other.perm_found scan name).trans (scan.perm_typesNamed name).symm)

end Scan

/-- The search for types of a simple name, by whatever scan. It finds each kind under which a file has a type of that
    name, once and with the qualified name by the package of the file's entry, in the order of qualified names and
    files; two qualified names are equal if the packages are. Another scan finds the same, with the same qualified
    names and files in the same places, and the same list where no file has the name for two kinds. The search of
    the registry is the one by its scan in order. -/
theorem typesNamed_in_any_order (r : Registry) (scan : r.Scan) (name : String) :
    let found := scan.typesNamed name
    (∀ l, l ∈ found ↔ ∃ e, r.get? l.file = some e ∧ l.qualifiedName = e.qualify name ∧ ⟨name, l.kind⟩ ∈ e.types) ∧
    (found.map fun l => (l.file, l.kind)).Nodup ∧
    (found.Pairwise fun a b =>
      a.qualifiedName < b.qualifiedName ∨ a.qualifiedName = b.qualifiedName ∧ a.file.text ≤ b.file.text) ∧
    (∀ l ∈ found, ∀ l' ∈ found, ∀ e e', r.get? l.file = some e → r.get? l'.file = some e' →
      (l.qualifiedName = l'.qualifiedName ↔ e.package = e'.package)) ∧
    (∀ other : r.Scan, (other.typesNamed name).Perm found ∧
      ((other.typesNamed name).map fun l => (l.qualifiedName, l.file)) =
        (found.map fun l => (l.qualifiedName, l.file)) ∧
      ((∀ l ∈ found, ∀ l' ∈ found, l.file = l'.file → l = l') → other.typesNamed name = found)) ∧
    r.typesNamed name = (Scan.inOrder r).typesNamed name := by
  intro found
  refine ⟨fun l => Scan.mem_typesNamed, scan.nodup_typesNamed name, scan.pairwise_typesNamed name, ?_, ?_,
    (Scan.typesNamed_inOrder r name).symm⟩
  · intro l hl l' hl' e e' he he'
    obtain ⟨d, hd, hname, -⟩ := Scan.mem_typesNamed.mp hl
    obtain ⟨d', hd', hname', -⟩ := Scan.mem_typesNamed.mp hl'
    obtain rfl := Option.some.inj (hd.symm.trans he)
    obtain rfl := Option.some.inj (hd'.symm.trans he')
    rw [hname, hname', Entry.qualify_eq_iff]
  · intro other
    have hperm := scan.perm_typesNamed_of_scans other name
    have horder := scan.pairwise_typesNamed name
    have horder' := other.pairwise_typesNamed name
    refine ⟨hperm, TypeLocation.map_key_eq_of_perm hperm horder' horder, fun distinct => ?_⟩
    refine hperm.eq_of_pairwise (fun l l' hl hl' hle hle' => ?_) horder' horder
    exact distinct l (hperm.mem_iff.mp hl) l' hl' (congrArg Prod.snd (hle.antisymm hle'))

/-- A registry with a file in a package that has two kinds of one name, a file in no package and a tombstone. -/
def twofoldRegistry : Registry :=
  let twofold := ((Summary.empty.withPackage "p.q").addType ⟨"T", .classType⟩).addType ⟨"T", .enumType⟩
  let single := Summary.empty.addType ⟨"T", .recordType⟩
  let r := (empty.put ⟨"A"⟩ (.ofSummary twofold (.nth 1))).2
  ((r.put ⟨"B"⟩ (.ofSummary single (.nth 2))).2.remove ⟨"C"⟩).2

/-- The scan of a registry backwards. -/
def Scan.backwards (r : Registry) : r.Scan where
  slots := r.slots.toList.reverse
  types file := ((inOrder r).types file).reverse
  slots_perm := List.reverse_perm _
  types_perm file e h := (List.reverse_perm _).trans ((inOrder r).types_perm file e h)

/-- Scans forwards and backwards differ in how they arrange the two kinds. -/
theorem typesNamed_in_any_order_twofold :
    twofoldRegistry.typesNamed "T" =
      [⟨⟨"B"⟩, "T", .recordType⟩, ⟨⟨"A"⟩, "p.q.T", .classType⟩, ⟨⟨"A"⟩, "p.q.T", .enumType⟩] ∧
    (Scan.backwards twofoldRegistry).typesNamed "T" =
      [⟨⟨"B"⟩, "T", .recordType⟩, ⟨⟨"A"⟩, "p.q.T", .enumType⟩, ⟨⟨"A"⟩, "p.q.T", .classType⟩] ∧
    ((Scan.backwards twofoldRegistry).typesNamed "T").Perm (twofoldRegistry.typesNamed "T") := by
  obtain ⟨-, -, -, -, hothers, hsame⟩ := typesNamed_in_any_order twofoldRegistry (Scan.inOrder twofoldRegistry) "T"
  refine ⟨by cbv, by cbv, ?_⟩
  rw [hsame]
  exact (hothers (Scan.backwards twofoldRegistry)).1

end Registry

end Concordance
