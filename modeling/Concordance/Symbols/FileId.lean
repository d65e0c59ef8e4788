import Std.Data.ExtTreeSet

/-!
The identity of a source file: a path or any other text. Identities are ordered as their texts.
-/

namespace Concordance

structure FileId where
  text : String
deriving DecidableEq, Repr, Inhabited

namespace FileId

instance : Ord FileId := ⟨compareOn text⟩

instance : Std.TransOrd FileId := inferInstanceAs (Std.TransCmp (compareOn FileId.text))

instance : Std.LawfulEqOrd FileId where
  eq_of_compare {a b} h := by
    have : a.text = b.text := (inferInstance : Std.LawfulEqOrd String).eq_of_compare h
    cases a
    cases b
    simp_all

instance : ToString FileId := ⟨text⟩

/-- A file under a path, whichever way its separators are written. -/
def ofPath (path : String) : FileId :=
  ⟨String.ofList (path.toList.map fun c => if c = '\\' then '/' else c)⟩

end FileId

/-- A set of files. -/
abbrev FileSet := Std.ExtTreeSet FileId

end Concordance
