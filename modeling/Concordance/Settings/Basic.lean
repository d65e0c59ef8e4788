import Concordance.Text.Path

/-!
The settings of a workspace: which files are its sources, where not to look for them, how large they
may be, and what is done with a source that cannot be read in full.
-/

namespace Concordance

structure Settings where
  /-- The extensions of source files, without the dot. -/
  sourceExtensions : List String
  /-- The names of directories that are never entered. -/
  excludedDirs : List String
  /-- Larger files are no sources. -/
  maxFileSize : UInt64
  /-- How many builds may run at once. -/
  maxConcurrentBuilds : UInt64
  /-- Whether a file that has no entry gets one from what could be read around its errors. -/
  publishPartialOnFirstFailure : Bool
  /-- Whether ignore rules meant for version control count. -/
  respectGitignore : Bool
deriving DecidableEq, Repr

namespace Settings

/-- What is assumed where nothing is said. As many builds may run at once as the machine can run in parallel,
and four where that is not known. -/
def standard (parallel : Option UInt64 := none) : Settings where
  sourceExtensions := ["java"]
  excludedDirs := ["target", "build", "out", "bin", "node_modules", ".git", ".gradle", ".idea"]
  maxFileSize := 1048576
  maxConcurrentBuilds := parallel.getD 4
  publishPartialOnFirstFailure := false
  respectGitignore := true

instance : Inhabited Settings := ⟨standard⟩

/-- Whether a path has one of the extensions of sources. -/
def isSource (s : Settings) (path : String) : Bool := Path.hasExtension s.sourceExtensions path

/-- Whether directories of that name are never entered. -/
def excludes (s : Settings) (name : String) : Bool := s.excludedDirs.contains name

end Settings

end Concordance
