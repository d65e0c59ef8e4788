import Std.Data.ExtTreeSet

/-!
The kinds of types a source can declare at its top, and a declared type: a name with a kind. Types are
ordered by name, then by the name of the kind.
-/

namespace Concordance

inductive TypeKind where
  | annotationType
  | classType
  | enumType
  | interfaceType
  | recordType
deriving DecidableEq, Repr, Inhabited

namespace TypeKind

def name : TypeKind → String
  | .annotationType => "annotation"
  | .classType => "class"
  | .enumType => "enum"
  | .interfaceType => "interface"
  | .recordType => "record"

instance : ToString TypeKind := ⟨name⟩

/-- All kinds in the order of their declaration in a program. -/
def all : List TypeKind := [.classType, .interfaceType, .enumType, .recordType, .annotationType]

/-- The kind of that name. -/
def ofName? (text : String) : Option TypeKind := all.find? fun k => k.name = text

/-- What is wrong with a text that names no kind. -/
structure Unknown where
  text : String
deriving DecidableEq, Repr

def Unknown.message (e : Unknown) : String := "Unknown type kind: " ++ e.text

def read (text : String) : Except Unknown TypeKind := match ofName? text with
  | some k => .ok k
  | none => .error ⟨text⟩

/-- The place of a kind when kinds are sorted by name. -/
def rank : TypeKind → Nat
  | .annotationType => 0
  | .classType => 1
  | .enumType => 2
  | .interfaceType => 3
  | .recordType => 4

theorem eq_of_rank_eq {a b : TypeKind} (h : a.rank = b.rank) : a = b := by
  cases a <;> cases b <;> first | rfl | cases h

instance : Ord TypeKind := ⟨compareOn rank⟩

instance : Std.TransOrd TypeKind := inferInstanceAs (Std.TransCmp (compareOn TypeKind.rank))

instance : Std.LawfulEqOrd TypeKind where
  eq_of_compare {_ _} h := eq_of_rank_eq ((inferInstance : Std.LawfulEqOrd Nat).eq_of_compare h)

end TypeKind

/-- A type declared at the top of a source. -/
structure TopLevelType where
  name : String
  kind : TypeKind
deriving DecidableEq, Repr, Inhabited

namespace TopLevelType

instance : Ord TopLevelType := ⟨compareLex (compareOn name) (compareOn kind)⟩

instance : Std.TransOrd TopLevelType :=
  inferInstanceAs (Std.TransCmp (compareLex (compareOn TopLevelType.name) (compareOn TopLevelType.kind)))

instance : Std.LawfulEqOrd TopLevelType where
  eq_of_compare {a b} h := by
    have h : (compareOn name a b).then (compareOn kind a b) = .eq := h
    rw [Ordering.then_eq_eq] at h
    have hn : a.name = b.name := (inferInstance : Std.LawfulEqOrd String).eq_of_compare h.1
    have hk : a.kind = b.kind := (inferInstance : Std.LawfulEqOrd TypeKind).eq_of_compare h.2
    cases a
    cases b
    simp_all

end TopLevelType

end Concordance
