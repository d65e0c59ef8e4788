import Concordance.Registry.Search
import Concordance.Service.Builder
import Concordance.Service.Reference
import Concordance.Settings.Basic

/-!
The service that keeps a registry up to date while builds run. A build takes its stamp when it begins
and is published when it ends; in between it counts as running. Tombstones are kept while a build
that is older than they are runs, and are purged when the last such build has ended.
-/

namespace Concordance

/-- A builder broke off. -/
structure Crash where
  message : String
deriving DecidableEq, Repr, Inhabited

/-- How a build ends. -/
abbrev Ending := Except Crash BuildResult

/-- What became of a build that did not crash. -/
inductive Outcome where
  | inserted
  | replaced
  /-- A newer build or a forget came first. -/
  | stale
  /-- The build failed, and the file keeps the entry it had. -/
  | retainedPrevious (error : BuildError)
  /-- The build failed, and the file has no entry to keep. -/
  | rejected (error : BuildError)
  /-- The build failed, and what it could read is the file's first entry. -/
  | publishedPartial (error : BuildError)
deriving DecidableEq

namespace Outcome

def ofPut : PutOutcome → Outcome
  | .inserted => inserted
  | .replaced => replaced
  | .stale => stale

/-- Whether a new entry was published. -/
def isPublished : Outcome → Bool
  | inserted | replaced | publishedPartial _ => true
  | stale | retainedPrevious _ | rejected _ => false

def error? : Outcome → Option BuildError
  | retainedPrevious e | rejected e | publishedPartial e => some e
  | inserted | replaced | stale => none

end Outcome

/-- What a call of the indexer gives: an outcome, or the crash of its builder. -/
abbrev Attempt := Except Crash Outcome

structure Service where
  settings : Settings
  registry : Registry := {}
  /-- The stamps of the builds that have begun and not ended. -/
  running : Std.ExtTreeSet Stamp := ∅
deriving DecidableEq

/-- More builds are wanted at once than can be counted. -/
structure TooManyBuilds where
  wanted : UInt64
deriving DecidableEq, Repr

namespace Service

instance : Inhabited Service := ⟨{ settings := .standard }⟩

/-- The greatest number of builds that may be allowed at once. -/
def buildLimit : UInt64 := 2305843009213693951

/-- A fresh service. -/
def create (settings : Settings) : Except TooManyBuilds Service :=
  if max settings.maxConcurrentBuilds 1 ≤ buildLimit then .ok { settings }
  else .error ⟨settings.maxConcurrentBuilds⟩

/-! ### Tombstones -/

/-- The stamp of the oldest running build; with none running, one that is greater than all so far. -/
def lowWater (s : Service) : Stamp := s.running.min?.getD s.registry.currentStamp.next

/-- Drops the tombstones that no running build is older than. -/
def compact (s : Service) : Service := { s with registry := (s.registry.purge s.lowWater).2 }

/-- Forgets a file. Builds of it that are running come to nothing. -/
def forget (s : Service) (file : FileId) : Bool × Service :=
  let (removed, registry) := s.registry.remove file
  (removed, { s with registry }.compact)

/-! ### Builds -/

/-- Begins a build. -/
def begin (s : Service) : Stamp × Service :=
  let (stamp, registry) := s.registry.nextStamp
  (stamp, { s with registry, running := s.running.insert stamp })

/-- Ends a build, whatever came of it. -/
def retire (s : Service) (stamp : Stamp) : Service :=
  { s with running := s.running.erase stamp }.compact

/-- Publishes what a build gave. A failed build changes nothing where there is an entry already. -/
def publish (settings : Settings) (r : Registry) (file : FileId) (stamp : Stamp) :
    BuildResult → Outcome × Registry
  | .ok summary => (r.put file (.ofSummary summary stamp)).map .ofPut id
  | .error e =>
    if r.contains file then (.retainedPrevious e, r)
    else if !settings.publishPartialOnFirstFailure then (.rejected e, r)
    else match e.recovered? with
      | none => (.rejected e, r)
      | some summary => match r.put file (.ofSummary summary stamp) with
        | (.stale, r) => (.stale, r)
        | (_, r) => (.publishedPartial e, r)

/-- Publishes what a build gave, if it gave anything, and ends it. -/
def conclude (s : Service) (file : FileId) (stamp : Stamp) : Ending → Attempt × Service
  | .error crash => (.error crash, s.retire stamp)
  | .ok result =>
    let (outcome, registry) := publish s.settings s.registry file stamp result
    (.ok outcome, { s with registry }.retire stamp)

/-! ### Queries -/

/-- Where the references to a name are, by a resolver that is told in which files they can be. -/
def references (s : Service) (resolver : Resolver) (file : FileId) (name : String)
    (position : Position) : Except ResolveError (List Location) :=
  resolver ⟨s.registry.candidates name, file, name, position⟩

end Service

end Concordance
