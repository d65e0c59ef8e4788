import Concordance.Symbols.Summary

/-!
What a builder answers when it is given a file's source: a summary, or the reason why there is none.
-/

namespace Concordance

/-- Why a build gave no clean summary. -/
inductive BuildError where
  /-- The source has errors; `recovered` holds what could be read around them. -/
  | malformed (file : FileId) (detail : String) (recovered : Summary)
  /-- No builder understands the file. -/
  | unsupported (file : FileId)
  /-- The parser failed. -/
  | parser (detail : String)
deriving DecidableEq

namespace BuildError

def message : BuildError → String
  | malformed file detail _ => "syntax error in " ++ file.text ++ ": " ++ detail
  | unsupported file => "no index builder for " ++ file.text
  | parser detail => "parser failure: " ++ detail

/-- The summary that could be read in spite of the failure. -/
def recovered? : BuildError → Option Summary
  | malformed _ _ s => some s
  | unsupported _ | parser _ => none

end BuildError

/-- The result of a build. -/
abbrev BuildResult := Except BuildError Summary

end Concordance
