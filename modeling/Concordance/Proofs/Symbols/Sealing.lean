import Concordance.Proofs.Registry.Reads

/-! What is sealed depends on what was recorded, and not on the way it was. A summary grows by notes in any order and
    any number, and a type may be noted with its name or without. Its entry has the last package that was noted and the
    sets of all that was noted besides, with the names of all types declared. -/

namespace Concordance

/-- A step in which a summary grows. -/
inductive Note where
  | package (name : String)
  | type (t : TopLevelType)
  /-- A type whose name is not declared along with it. -/
  | bareType (t : TopLevelType)
  | declare (name : String)
  | refer (name : String)
deriving DecidableEq

namespace Note

def package? : Note → Option String
  | package name => some name
  | type _ | bareType _ | declare _ | refer _ => none

/-- The type that is noted, with its name or without. -/
def type? : Note → Option TopLevelType
  | type t | bareType t => some t
  | package _ | declare _ | refer _ => none

theorem mem_types_iff {notes : List Note} {t : TopLevelType} :
    t ∈ notes.filterMap type? ↔ .type t ∈ notes ∨ .bareType t ∈ notes := by
  refine List.mem_filterMap.trans ⟨?_, ?_⟩
  · rintro ⟨n, hn, htype⟩
    cases n <;> cases htype
    · exact .inl hn
    · exact .inr hn
  · rintro (hn | hn) <;> exact ⟨_, hn, rfl⟩

end Note

namespace Summary

def note (s : Summary) : Note → Summary
  | .package name => s.withPackage name
  | .type t => s.addType t
  | .bareType t => s.addBareType t
  | .declare name => s.declare name
  | .refer name => s.refer name

/-- The summary that notes make of an empty one. -/
def ofNotes (notes : List Note) : Summary := notes.foldl note .empty

/-- The summary with the names of its types declared. -/
def sealed (s : Summary) : Summary :=
  { s with declared := s.types.foldl (fun names t => names.insert t.name) s.declared }

end Summary

namespace Entry

/-- What an entry says, without its stamp. -/
def content (e : Entry) : Summary := ⟨e.package, e.types, e.declared, e.referenced⟩

@[simp] theorem content_ofSummary (summary : Summary) (stamp : Stamp) :
    (ofSummary summary stamp).content = summary.sealed := rfl

/-- Entries are the same if they have the same members. -/
theorem eq_of_mem_iff {a b : Entry} (package : a.package = b.package) (types : ∀ t, t ∈ a.types ↔ t ∈ b.types)
    (declared : ∀ name, name ∈ a.declared ↔ name ∈ b.declared)
    (referenced : ∀ name, name ∈ a.referenced ↔ name ∈ b.referenced) (stamp : a.stamp = b.stamp) : a = b := by
  have htypes : a.types = b.types := Std.ExtTreeSet.ext_mem types
  have hdeclared : a.declared = b.declared := Std.ExtTreeSet.ext_mem declared
  have hreferenced : a.referenced = b.referenced := Std.ExtTreeSet.ext_mem referenced
  cases a
  cases b
  simp_all

end Entry

namespace Summary

variable {notes : List Note} {t : TopLevelType} {name : String}

/-! ### One note -/

theorem package_note (s : Summary) (n : Note) : (s.note n).package = n.package?.getD s.package := by cases n <;> rfl

theorem mem_types_note (s : Summary) (n : Note) : t ∈ (s.note n).types ↔ t ∈ s.types ∨ n.type? = some t := by
  cases n <;>
    simp [note, withPackage, addType, addBareType, declare, refer, Note.type?, Std.ExtTreeSet.mem_insert, or_comm]

theorem mem_declared_note (s : Summary) (n : Note) :
    name ∈ (s.note n).declared ↔ name ∈ s.declared ∨ n = .declare name ∨ ∃ t, n = .type t ∧ t.name = name := by
  cases n <;> simp [note, withPackage, addType, addBareType, declare, refer, Std.ExtTreeSet.mem_insert, or_comm]

theorem mem_referenced_note (s : Summary) (n : Note) :
    name ∈ (s.note n).referenced ↔ name ∈ s.referenced ∨ n = .refer name := by
  cases n <;> simp [note, withPackage, addType, addBareType, declare, refer, Std.ExtTreeSet.mem_insert, or_comm]

/-! ### All notes -/

theorem package_ofNotes : (ofNotes notes).package = (notes.filterMap Note.package?).getLast?.getD "" :=
  foldl_getLast? (g := Summary.package) package_note notes empty

theorem mem_types_ofNotes : t ∈ (ofNotes notes).types ↔ t ∈ notes.filterMap Note.type? := by
  have hnotes := foldl_iff (P := fun s => t ∈ s.types) mem_types_note notes empty
  exact hnotes.trans ((or_iff_right Std.ExtTreeSet.not_mem_empty).trans List.mem_filterMap.symm)

theorem mem_declared_ofNotes :
    name ∈ (ofNotes notes).declared ↔ .declare name ∈ notes ∨ ∃ t, .type t ∈ notes ∧ t.name = name := by
  have hnotes := foldl_iff (P := fun s => name ∈ s.declared) mem_declared_note notes empty
  refine hnotes.trans ((or_iff_right Std.ExtTreeSet.not_mem_empty).trans ⟨?_, ?_⟩)
  · rintro ⟨n, hn, rfl | ⟨t, rfl, hname⟩⟩
    · exact .inl hn
    · exact .inr ⟨t, hn, hname⟩
  · rintro (hn | ⟨t, hn, hname⟩)
    · exact ⟨_, hn, .inl rfl⟩
    · exact ⟨_, hn, .inr ⟨t, rfl, hname⟩⟩

theorem mem_referenced_ofNotes : name ∈ (ofNotes notes).referenced ↔ .refer name ∈ notes := by
  have hnotes := foldl_iff (P := fun s => name ∈ s.referenced) mem_referenced_note notes empty
  refine hnotes.trans ((or_iff_right Std.ExtTreeSet.not_mem_empty).trans ⟨?_, fun hn => ⟨_, hn, rfl⟩⟩)
  rintro ⟨n, hn, rfl⟩
  exact hn

end Summary

/-! ### Entries of notes -/

namespace Entry

open Summary

variable {notes : List Note} {stamp : Stamp} {name : String}

/-- It makes no difference to the declared names of an entry whether a type was noted with its name. -/
theorem mem_declared_ofNotes : name ∈ (ofSummary (ofNotes notes) stamp).declared ↔
    .declare name ∈ notes ∨ ∃ t ∈ notes.filterMap Note.type?, t.name = name := by
  simp only [mem_declared_ofSummary, Summary.mem_declared_ofNotes, mem_types_ofNotes]
  constructor
  · rintro ((h | ⟨t, ht, hname⟩) | h)
    · exact .inl h
    · exact .inr ⟨t, List.mem_filterMap.mpr ⟨_, ht, rfl⟩, hname⟩
    · exact .inr h
  · exact Or.imp_left .inl

/-- What an entry says can be sealed again and stays as it is. -/
theorem ofSummary_content (summary : Summary) (stamp later : Stamp) :
    ofSummary (ofSummary summary stamp).content later = { ofSummary summary stamp with stamp := later } := by
  refine eq_of_mem_iff rfl (fun _ => .rfl) (fun name => ?_) (fun _ => .rfl) rfl
  rw [mem_declared_ofSummary]
  refine or_iff_left_of_imp fun h => ?_
  have hdeclared : name ∈ (ofSummary summary stamp).declared := mem_declared_ofSummary.mpr (.inr h)
  exact hdeclared

/-- An entry has the package that was noted last, the types that were noted, the names that were, with those of the
    types, the references and the stamp. So it is the same for other notes with the same package last and the same
    types, names and references, in whichever order, number and way they were noted. Sealing adds no name if all types
    were noted with theirs, and what is sealed already is changed by it in nothing but the stamp. -/
theorem entry_of_notes (notes : List Note) (stamp : Stamp) :
    let entry := ofSummary (ofNotes notes) stamp
    entry.package = (notes.filterMap Note.package?).getLast?.getD "" ∧
    (∀ t, t ∈ entry.types ↔ .type t ∈ notes ∨ .bareType t ∈ notes) ∧
    (∀ name, name ∈ entry.declared ↔
      .declare name ∈ notes ∨ ∃ t, (.type t ∈ notes ∨ .bareType t ∈ notes) ∧ t.name = name) ∧
    (∀ name, name ∈ entry.referenced ↔ .refer name ∈ notes) ∧
    entry.stamp = stamp ∧
    (∀ others : List Note, (others.filterMap Note.package?).getLast? = (notes.filterMap Note.package?).getLast? →
      (∀ t, t ∈ others.filterMap Note.type? ↔ t ∈ notes.filterMap Note.type?) →
      (∀ name, (.declare name ∈ others ↔ .declare name ∈ notes) ∧ (.refer name ∈ others ↔ .refer name ∈ notes)) →
      ofSummary (ofNotes others) stamp = entry) ∧
    ((∀ t, .bareType t ∉ notes) → entry.declared = (ofNotes notes).declared) ∧
    ∀ later, ofSummary entry.content later = { entry with stamp := later } := by
  refine ⟨package_ofNotes, fun t => mem_types_ofNotes.trans Note.mem_types_iff, fun name => ?_,
    fun _ => mem_referenced_ofNotes, rfl, fun others hpackage htype hname => ?_, fun hbare => ?_,
    fun later => ofSummary_content _ stamp later⟩
  · simp only [mem_declared_ofNotes, Note.mem_types_iff]
  · refine eq_of_mem_iff ?_ (fun t => ?_) (fun name => ?_) (fun name => ?_) rfl
    · exact package_ofNotes.trans ((congrArg (·.getD "") hpackage).trans package_ofNotes.symm)
    · exact mem_types_ofNotes.trans ((htype t).trans mem_types_ofNotes.symm)
    · simp only [mem_declared_ofNotes, htype, (hname name).1]
    · exact mem_referenced_ofNotes.trans ((hname name).2.trans mem_referenced_ofNotes.symm)
  · refine Std.ExtTreeSet.ext_mem fun name => ?_
    simp only [mem_declared_ofNotes, Summary.mem_declared_ofNotes, Note.mem_types_iff, hbare, or_false]

end Entry

end Concordance
