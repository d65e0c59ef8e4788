import Concordance.Symbols.FileId
import Concordance.Symbols.Stamp
import Concordance.Symbols.TypeKind

/-!
What one source file says about names: its package, the types at its top, the names it declares and
the names it refers to. A summary grows while a source is read; sealed with a stamp it becomes an
entry, which never changes.
-/

namespace Concordance

/-- A set of simple names. -/
abbrev Names := Std.ExtTreeSet String

structure Summary where
  package : String := ""
  types : Std.ExtTreeSet TopLevelType := ∅
  declared : Names := ∅
  referenced : Names := ∅
deriving DecidableEq

namespace Summary

def empty : Summary := {}

instance : Inhabited Summary := ⟨empty⟩

def withPackage (s : Summary) (package : String) : Summary := { s with package }

/-- Records a type at the top; its name is declared too. -/
def addType (s : Summary) (t : TopLevelType) : Summary :=
  { s with types := s.types.insert t, declared := s.declared.insert t.name }

/-- Records a type at the top and leaves the declared names alone. -/
def addBareType (s : Summary) (t : TopLevelType) : Summary := { s with types := s.types.insert t }

def declare (s : Summary) (name : String) : Summary :=
  { s with declared := s.declared.insert name }

def refer (s : Summary) (name : String) : Summary :=
  { s with referenced := s.referenced.insert name }

def isEmpty (s : Summary) : Bool :=
  s.package.isEmpty && s.types.isEmpty && s.declared.isEmpty && s.referenced.isEmpty

end Summary

/-- The summary of a file as of a stamp. -/
structure Entry where
  package : String
  types : Std.ExtTreeSet TopLevelType
  declared : Names
  referenced : Names
  stamp : Stamp
deriving DecidableEq

namespace Entry

instance : Inhabited Entry := ⟨⟨"", ∅, ∅, ∅, default⟩⟩

/-- Seals a summary. The names of all its types count as declared from here on. -/
def ofSummary (s : Summary) (stamp : Stamp) : Entry where
  package := s.package
  types := s.types
  declared := s.types.foldl (fun names t => names.insert t.name) s.declared
  referenced := s.referenced
  stamp := stamp

def declares (e : Entry) (name : String) : Bool := e.declared.contains name

def refersTo (e : Entry) (name : String) : Bool := e.referenced.contains name

def mentions (e : Entry) (name : String) : Bool := e.refersTo name || e.declares name

/-- The full name of a type of this file. -/
def qualify (e : Entry) (name : String) : String :=
  if e.package.isEmpty then name else e.package ++ "." ++ name

end Entry

end Concordance
