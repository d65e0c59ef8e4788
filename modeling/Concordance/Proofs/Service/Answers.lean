import Concordance.Proofs.Service.Log

/-! Requests made one after the other, of two services at once. What is only read follows from the entries that
    files have; for the rest it takes a relation between the two services that every request keeps, and then
    they answer all requests alike. -/

namespace Concordance

/-- The requests that change nothing and are answered from the entries alone. -/
def Request.Reads : Request → Prop
  | get _ | contains _ | files | size | isEmpty | snapshot => True
  | candidates _ | declaring _ | explain _ | typesNamed _ | references .. => True
  | forget _ | put .. | remove _ | clear | purge _ | nextStamp | currentStamp | pending => False

namespace Service

variable {s k : Service} {request : Request} {requests : List Request}

/-- What some requests are answered, one after the other. -/
def answers (s : Service) : List Request → List ((request : Request) × request.Reply)
  | [] => []
  | request :: rest => ⟨request, (s.answer request).1⟩ :: (s.answer request).2.answers rest

/-- The service after some requests. -/
def answerAll (s : Service) (requests : List Request) : Service :=
  requests.foldl (fun s request => (s.answer request).2) s

theorem answer_of_reads (h : request.Reads) : (s.answer request).2 = s := by
  cases request <;> first | rfl | exact h.elim

/-- Services whose files have the same entries are read alike. -/
theorem reply_congr (h : request.Reads) (hget : ∀ f, k.registry.get? f = s.registry.get? f) :
    (k.answer request).1 = (s.answer request).1 := by
  have hsnapshot : k.registry.snapshot = s.registry.snapshot := Registry.snapshot_congr hget
  cases request with
  | forget | put | remove | clear | purge | nextStamp | currentStamp | pending => exact h.elim
  | get file => exact hget file
  | contains file => exact congrArg Option.isSome (hget file)
  | files | size | isEmpty | snapshot | candidates | declaring | explain | typesNamed | references =>
    -- Each of these searches the snapshot.
    simp only [answer, references, Registry.candidates, Registry.declaring, Registry.filesWhere, Registry.explain,
      Registry.typesNamed, Registry.files_eq, Registry.isEmpty, Registry.size_eq, hsnapshot]

/-- What holds before a request if it holds after it, holds all along if it holds at the end. -/
theorem of_answerAll {safe : Service → Prop}
    (back : ∀ {s : Service} {request : Request}, safe (s.answer request).2 → safe s)
    (h : safe (s.answerAll requests)) : safe s := by
  induction requests generalizing s with
  | nil => exact h
  | cons request requests ih => exact back (ih h)

/-- If every request of a kind keeps a relation between two services, and is answered alike if it is one of those
    to be `told`, then of any number of requests these are answered alike. -/
theorem answers_eq_of_kept (told : Request → Bool) (safe : Service → Prop) {R : Service → Service → Prop}
    {kind : Request → Prop} (back : ∀ {s : Service} {request : Request}, safe (s.answer request).2 → safe s)
    (kept : ∀ {k s : Service} {request : Request}, R k s → kind request → safe (s.answer request).2 →
      (told request = true → (k.answer request).1 = (s.answer request).1) ∧
        R (k.answer request).2 (s.answer request).2)
    (h : R k s) (hkind : ∀ request ∈ requests, kind request) (hsafe : safe (s.answerAll requests)) :
    (k.answers requests).filter (fun a => told a.1) = (s.answers requests).filter fun a => told a.1 := by
  induction requests generalizing k s with
  | nil => rfl
  | cons request requests ih =>
    obtain ⟨hrequest, hkind⟩ := List.forall_mem_cons.mp hkind
    obtain ⟨hreply, hrelated⟩ := kept h hrequest (of_answerAll back hsafe)
    have hrest := ih hrelated hkind hsafe
    rw [answers, answers, List.filter_cons, List.filter_cons, hrest]
    cases ht : told request with
    | false => rfl
    | true => rw [if_pos rfl, if_pos rfl, hreply ht]

end Service

end Concordance
