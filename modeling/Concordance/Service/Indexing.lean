import Concordance.Service.Build
import Concordance.Workspace.Discovery

/-!
Indexing a whole workspace: each source is read and indexed in turn. A source that is no text counts as
failed, as does one whose build fails.
-/

namespace Concordance

/-- What a service call can fail with. -/
inductive ServiceError where
  | io (cause : IoError)
  | resolve (cause : ResolveError)
deriving DecidableEq, Repr

def ServiceError.message : ServiceError → String
  | io e => "IO error: " ++ e.message
  | resolve e => "Resolve error: " ++ e.message

/-- How many sources were found, and what became of them. -/
structure IndexStats where
  discovered : Nat
  indexed : Nat := 0
  failed : Nat := 0
deriving DecidableEq, Repr

namespace IndexStats

def countFailed (stats : IndexStats) : IndexStats := { stats with failed := stats.failed + 1 }

def countIndexed (stats : IndexStats) : IndexStats := { stats with indexed := stats.indexed + 1 }

def count (stats : IndexStats) (outcome : Outcome) : IndexStats :=
  if outcome.error?.isSome then stats.countFailed
  else if outcome.isPublished then stats.countIndexed
  else stats

end IndexStats

/-- A source to be indexed, with its text if it is one. -/
structure Source where
  file : FileId
  text? : Option String
deriving DecidableEq

/-- The sources of a workspace, in the order in which they are indexed. -/
def Workspace.sources (w : Workspace) (settings : Settings) : List Source :=
  (w.discover settings).map fun path => ⟨sourceId path, w.text? path⟩

namespace Build

variable {α : Type}

/-- Has sources indexed one after the other, and goes on with the count; a crash of the builder ends
it. -/
def indexSources (builder : FileId → String → Build α)
    (next : Except Crash IndexStats → Build α) : List Source → IndexStats → Build α
  | [], stats => next (.ok stats)
  | source :: rest, stats => match source.text? with
    | none => indexSources builder next rest stats.countFailed
    | some text => index source.file (builder source.file text) fun attempt _ => match attempt with
      | .ok outcome => indexSources builder next rest (stats.count outcome)
      | .error crash => next (.error crash)

/-- Has all sources of a workspace indexed, if its root is a folder. The text names the root. -/
def indexWorkspace (w : Workspace) (root : String) (settings : Settings)
    (builder : FileId → String → Build α)
    (next : Except ServiceError (Except Crash IndexStats) → Build α) : Build α :=
  if w.isFolder [] then
    let sources := w.sources settings
    indexSources builder (fun result => next (.ok result)) sources { discovered := sources.length }
  else next (.error (.io (.noWorkspace root)))

end Build

end Concordance
