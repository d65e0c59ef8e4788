import Concordance.Service.Basic

/-!
A running build as the service sees it. A builder may turn to the service while it runs: it may ask,
write, forget, and have other files indexed, each time going on as the answer suggests. So a build is a
tree of calls with a branch for every answer, and running it is recursion on the tree.
-/

namespace Concordance

/-- A call that is answered at once. -/
inductive Request where
  | forget (file : FileId)
  | get (file : FileId)
  | candidates (name : String)
  | explain (name : String)
  | declaring (name : String)
  | typesNamed (name : String)
  | references (resolver : Resolver) (file : FileId) (name : String) (position : Position)
  | put (file : FileId) (entry : Entry)
  | remove (file : FileId)
  | contains (file : FileId)
  | files
  | size
  | isEmpty
  | snapshot
  | currentStamp
  | nextStamp
  | pending
  | purge (cutoff : Stamp)
  | clear

namespace Request

/-- The type of the answer. -/
@[reducible] def Reply : Request → Type
  | forget _ | remove _ | contains _ | isEmpty => Bool
  | get _ => Option Entry
  | candidates _ | declaring _ => FileSet
  | explain _ => List Candidate
  | typesNamed _ => List TypeLocation
  | references .. => Except ResolveError (List Location)
  | put .. => PutOutcome
  | files => List FileId
  | size | pending | purge _ => Nat
  | snapshot => List (FileId × Entry)
  | currentStamp | nextStamp => Stamp
  | clear => Unit

end Request

namespace Service

/-- A call on the registry, past the service. -/
def onRegistry {α : Type} (s : Service) (f : Registry → α × Registry) : α × Service :=
  (f s.registry).map id fun registry => { s with registry }

/-- Answers a request. -/
def answer (s : Service) : (request : Request) → request.Reply × Service
  | .forget file => s.forget file
  | .get file => (s.registry.get? file, s)
  | .candidates name => (s.registry.candidates name, s)
  | .explain name => (s.registry.explain name, s)
  | .declaring name => (s.registry.declaring name, s)
  | .typesNamed name => (s.registry.typesNamed name, s)
  | .references resolver file name position => (s.references resolver file name position, s)
  | .put file entry => s.onRegistry fun r => r.put file entry
  | .remove file => s.onRegistry fun r => r.remove file
  | .contains file => (s.registry.contains file, s)
  | .files => (s.registry.files, s)
  | .size => (s.registry.size, s)
  | .isEmpty => (s.registry.isEmpty, s)
  | .snapshot => (s.registry.snapshot, s)
  | .currentStamp => (s.registry.currentStamp, s)
  | .nextStamp => s.onRegistry Registry.nextStamp
  | .pending => (s.registry.pending, s)
  | .purge cutoff => s.onRegistry fun r => r.purge cutoff
  | .clear => s.onRegistry fun r => ((), r.clear)

end Service

/-- What a build does from here on. Besides its result it may leave notes. -/
inductive Build (α : Type) where
  /-- It ends. -/
  | finish (ending : Ending) (notes : α)
  /-- It makes a request and goes on with the answer. -/
  | ask (request : Request) (next : request.Reply → Build α)
  /-- It has a file indexed, by a build of its own, and goes on with what came of it. -/
  | index (file : FileId) (build : Build α) (next : Attempt → α → Build α)

namespace Build

variable {α : Type}

instance [Inhabited α] : Inhabited (Build α) := ⟨finish (.ok (.ok {})) default⟩

/-- The build that makes no calls. -/
def pure (result : BuildResult) (notes : α) : Build α := finish (.ok result) notes

/-- Runs a build to its end. -/
def run (s : Service) : Build α → (Ending × α) × Service
  | finish ending notes => ((ending, notes), s)
  | ask request next =>
    let (reply, s) := s.answer request
    run s (next reply)
  | index file build next =>
    let (stamp, s) := s.begin
    let ((ending, notes), s) := run s build
    let (attempt, s) := s.conclude file stamp ending
    run s (next attempt notes)

end Build

namespace Service

/-- Has a file indexed by a build. -/
def index {α : Type} (s : Service) (file : FileId) (build : Build α) : (Attempt × α) × Service :=
  let (stamp, s) := s.begin
  let ((ending, notes), s) := build.run s
  let (attempt, s) := s.conclude file stamp ending
  ((attempt, notes), s)

end Service

end Concordance
