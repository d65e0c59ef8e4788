import Concordance.Symbols.FileId

/-!
The exact search for references. The service finds the files in which a reference can stand; a resolver
says where in them the references are.
-/

namespace Concordance

/-- A place in a source: line and character, from 0. -/
structure Position where
  line : UInt32
  character : UInt32
deriving DecidableEq, Repr, Inhabited

/-- A stretch of a source. -/
structure Range where
  start : Position
  stop : Position
deriving DecidableEq, Repr, Inhabited

/-- A stretch of one file. -/
structure Location where
  file : FileId
  range : Range
deriving DecidableEq, Repr, Inhabited

/-- What a resolver is asked: where, in the candidate files, are the references to the name declared at
that position of that file? -/
structure ReferenceQuery where
  candidates : FileSet
  declaringFile : FileId
  name : String
  position : Position
deriving DecidableEq

/-- Why a resolver gives no answer. -/
inductive ResolveError where
  | unresolved (file : FileId) (name detail : String)
  | unavailable (detail : String)
deriving DecidableEq, Repr

def ResolveError.message : ResolveError → String
  | unresolved file name detail => "cannot resolve " ++ name ++ " in " ++ file.text ++ ": " ++ detail
  | unavailable detail => "resolver unavailable: " ++ detail

/-- A resolver of references. -/
abbrev Resolver := ReferenceQuery → Except ResolveError (List Location)

end Concordance
