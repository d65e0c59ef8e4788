import Concordance.Registry.Basic

/-!
Searching by simple name. Each search looks at the live entries alone and knows nothing of scopes, so
what it finds holds every file in which the name can mean the thing sought, and more.
-/

namespace Concordance

/-- Why a file was found. -/
inductive MatchReason where
  | declares
  | references
  | both
deriving DecidableEq, Repr, Inhabited

/-- The word for a reason. -/
def MatchReason.name : MatchReason → String
  | .declares => "declares"
  | .references => "references"
  | .both => "both"

/-- All reasons. -/
def MatchReason.all : List MatchReason := [.declares, .references, .both]

/-- A file that was found, and why. -/
structure Candidate where
  file : FileId
  reason : MatchReason
deriving DecidableEq, Repr, Inhabited

/-- Where a type of some simple name stands. -/
structure TypeLocation where
  file : FileId
  qualifiedName : String
  kind : TypeKind
deriving DecidableEq, Repr, Inhabited

/-- Types are listed by qualified name, then by file. -/
def TypeLocation.order : TypeLocation → TypeLocation → Ordering :=
  compareLex (compareOn qualifiedName) (compareOn file)

/-- In which way an entry mentions a name. -/
def Entry.reason? (e : Entry) (name : String) : Option MatchReason :=
  match e.declares name, e.refersTo name with
  | true, true => some .both
  | true, false => some .declares
  | false, true => some .references
  | false, false => none

/-- The types of a file that have a simple name. -/
def Entry.typesNamed (e : Entry) (file : FileId) (name : String) : List TypeLocation :=
  (e.types.toList.filter fun t => t.name = name).map fun t => ⟨file, e.qualify t.name, t.kind⟩

namespace Registry

/-- The files whose entries have a property. -/
def filesWhere (r : Registry) (p : Entry → Bool) : FileSet :=
  .ofList ((r.snapshot.filter fun found => p found.2).map Prod.fst)

/-- The files that declare a name or refer to it. -/
def candidates (r : Registry) (name : String) : FileSet := r.filesWhere fun e => e.mentions name

/-- The files that declare a name or refer to it, each with the reason. -/
def explain (r : Registry) (name : String) : List Candidate :=
  r.snapshot.filterMap fun (file, e) => (e.reason? name).map fun reason => ⟨file, reason⟩

/-- The files that declare a name. -/
def declaring (r : Registry) (name : String) : FileSet := r.filesWhere fun e => e.declares name

/-- The types of a simple name at the top of any file. -/
def typesNamed (r : Registry) (name : String) : List TypeLocation :=
  (r.snapshot.flatMap fun (file, e) => e.typesNamed file name).mergeSort
    fun a b => (TypeLocation.order a b).isLE

end Registry

end Concordance
