import Concordance.Symbols.Summary
import Std.Data.ExtTreeMap

/-!
The registry of a workspace: for each file its newest entry. A file that is forgotten leaves its stamp
behind, so that a build which began earlier cannot bring it back; a list of these tombstones, in the
order of their stamps, says which of them a purge may drop.

Of two events on one file the one with the greater stamp wins, in whichever order they arrive.
-/

namespace Concordance

/-- What is known of one file. -/
inductive Slot where
  | live (entry : Entry)
  /-- The file was forgotten at that stamp. -/
  | forgotten (stamp : Stamp)
deriving DecidableEq

namespace Slot

instance : Inhabited Slot := ⟨forgotten default⟩

def stamp : Slot → Stamp
  | live entry => entry.stamp
  | forgotten stamp => stamp

def live? : Slot → Option Entry
  | live entry => some entry
  | forgotten _ => none

def isLive (s : Slot) : Bool := s.live?.isSome

@[simp] theorem live?_live (entry : Entry) : (live entry).live? = some entry := rfl
@[simp] theorem live?_forgotten (stamp : Stamp) : (forgotten stamp).live? = none := rfl
@[simp] theorem isLive_live (entry : Entry) : (live entry).isLive = true := rfl
@[simp] theorem isLive_forgotten (stamp : Stamp) : (forgotten stamp).isLive = false := rfl

end Slot

/-- The record that a file was forgotten. Records are ordered by stamp, then by file. -/
structure Tombstone where
  stamp : Stamp
  file : FileId
deriving DecidableEq, Repr, Inhabited

namespace Tombstone

instance : Ord Tombstone := ⟨compareLex (compareOn stamp) (compareOn file)⟩

instance : Std.TransOrd Tombstone :=
  inferInstanceAs (Std.TransCmp (compareLex (compareOn Tombstone.stamp) (compareOn Tombstone.file)))

instance : Std.LawfulEqOrd Tombstone where
  eq_of_compare {a b} h := by
    have h : (compareOn stamp a b).then (compareOn file a b) = .eq := h
    rw [Ordering.then_eq_eq] at h
    have hs : a.stamp = b.stamp := (inferInstance : Std.LawfulEqOrd Stamp).eq_of_compare h.1
    have hf : a.file = b.file := (inferInstance : Std.LawfulEqOrd FileId).eq_of_compare h.2
    cases a
    cases b
    simp_all

/-- No tombstone of a stamp comes before this one. -/
def earliest (stamp : Stamp) : Tombstone := ⟨stamp, ⟨""⟩⟩

end Tombstone

/-- What became of an entry that was put into the registry. -/
inductive PutOutcome where
  /-- It is the file's first entry. -/
  | inserted
  /-- It took the place of an older entry. -/
  | replaced
  /-- It was dropped: a newer entry or a newer tombstone is there. -/
  | stale
deriving DecidableEq, Repr, Inhabited

abbrev Slots := Std.ExtTreeMap FileId Slot

structure Registry where
  slots : Slots := ∅
  tombstones : Std.ExtTreeSet Tombstone := ∅
  /-- How many stamps the clock has handed out. -/
  issued : Nat := 0
deriving DecidableEq

namespace Registry

def empty : Registry := {}

instance : Inhabited Registry := ⟨empty⟩

/-! ### The clock -/

/-- The last stamp handed out. -/
def currentStamp (r : Registry) : Stamp := .nth r.issued

/-- Hands out a fresh stamp. -/
def nextStamp (r : Registry) : Stamp × Registry :=
  (.nth (r.issued + 1), { r with issued := r.issued + 1 })

/-! ### Reading -/

/-- The entry of a file, if it has one. -/
def get? (r : Registry) (file : FileId) : Option Entry := r.slots[file]?.bind Slot.live?

def contains (r : Registry) (file : FileId) : Bool := (r.get? file).isSome

/-- All files that have entries, with them, in the order of the files. -/
def snapshot (r : Registry) : List (FileId × Entry) :=
  r.slots.toList.filterMap fun slot => slot.2.live?.map fun entry => (slot.1, entry)

/-- The files that have entries. -/
def files (r : Registry) : List FileId := (r.slots.toList.filter fun slot => slot.2.isLive).map Prod.fst

/-- The number of files that have entries. -/
def size (r : Registry) : Nat := r.slots.toList.countP fun slot => slot.2.isLive

def isEmpty (r : Registry) : Bool := r.size = 0

/-- The number of tombstones that no purge has taken yet. -/
def pending (r : Registry) : Nat := r.tombstones.size

/-! ### Writing -/

/-- Puts an entry of a file in place, unless what is there is as new. -/
def put (r : Registry) (file : FileId) (entry : Entry) : PutOutcome × Registry :=
  match r.slots[file]? with
  | none => (.inserted, { r with slots := r.slots.insert file (.live entry) })
  | some slot =>
    if entry.stamp ≤ slot.stamp then (.stale, r)
    else (if slot.isLive then .replaced else .inserted,
      { r with slots := r.slots.insert file (.live entry) })

/-- Forgets a file at a fresh stamp, and tells whether it had an entry. -/
def remove (r : Registry) (file : FileId) : Bool × Registry :=
  let (stamp, r') := r.nextStamp
  (r.contains file,
    { r' with
      slots := r.slots.insert file (.forgotten stamp)
      tombstones := r.tombstones.insert ⟨stamp, file⟩ })

/-- Forgets every file that has a slot. -/
def clear (r : Registry) : Registry :=
  r.slots.keys.foldl (fun r file => (r.remove file).2) r

/-- Takes a tombstone out of the slots, if it is still what the file's slot says; counts those taken. -/
def bury (done : Nat × Slots) (t : Tombstone) : Nat × Slots :=
  if done.2[t.file]? = some (.forgotten t.stamp) then (done.1 + 1, done.2.erase t.file) else done

/-- Drops the tombstones from before a stamp, and tells how many slots went with them. Tombstones of
files that were indexed again since then go without one. The records are split where those of the stamp
begin, unless the oldest of them is not old enough. -/
def purge (r : Registry) (cutoff : Stamp) : Nat × Registry :=
  match r.tombstones.min? with
  | none => (0, r)
  | some oldest =>
    if oldest.stamp < cutoff then
      let expired := r.tombstones.filter fun t => compare t (.earliest cutoff) = .lt
      let newer := r.tombstones.filter fun t => compare t (.earliest cutoff) ≠ .lt
      let (count, slots) := expired.toList.foldl bury (0, r.slots)
      (count, { r with slots, tombstones := newer })
    else (0, r)

end Registry

end Concordance
