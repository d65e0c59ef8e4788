import Mathlib
import Concordance.Proofs.Registry.TypeSearch
import Concordance.Proofs.Service.Log

/-! The searches and listings as views of the live entries. Each goes over the slots in its own way, and in
    every state of a run all of them tell the same story. That the types found by name are among the files that
    declare the name rests on the sealing of summaries, which every entry has been through. -/

namespace Concordance

/-- The entry declares the names of its types. -/
def Entry.Sealed (e : Entry) : Prop := ∀ t ∈ e.types, t.name ∈ e.declared

theorem Entry.sealed_ofSummary (summary : Summary) (stamp : Stamp) : (Entry.ofSummary summary stamp).Sealed :=
  fun t ht => Entry.mem_declared_ofSummary.mpr (Or.inr ⟨t, ht, rfl⟩)

/-- Whether a reason says that the name is declared. -/
def MatchReason.declared : MatchReason → Bool
  | declares | both => true
  | references => false

/-- Whether a reason says that the name is referred to. -/
def MatchReason.referred : MatchReason → Bool
  | references | both => true
  | declares => false

/-- Entries that are put past the service are sealed summaries: there is no other way to make an entry. -/
def Request.Sealing : Request → Prop
  | put _ entry => ∃ summary stamp, entry = .ofSummary summary stamp
  | _ => True

namespace Entry

variable {e : Entry} {name : String} {reason : MatchReason}

theorem reason?_eq_some_iff :
    e.reason? name = some reason ↔ e.declares name = reason.declared ∧ e.refersTo name = reason.referred := by
  unfold reason?
  cases e.declares name <;> cases e.refersTo name <;> cases reason <;>
    simp [MatchReason.declared, MatchReason.referred]

theorem isSome_reason? : (e.reason? name).isSome = e.mentions name := by
  unfold reason? mentions
  cases e.declares name <;> cases e.refersTo name <;> rfl

end Entry

namespace Registry

variable {r : Registry} {file f : FileId} {entry e : Entry} {name : String} {reason : MatchReason}

/-! ### Searches with reasons -/

theorem mem_explain : ⟨f, reason⟩ ∈ r.explain name ↔
    ∃ e, r.get? f = some e ∧ e.declares name = reason.declared ∧ e.refersTo name = reason.referred := by
  simp only [explain, List.mem_filterMap, Option.map_eq_some_iff, Candidate.mk.injEq, Prod.exists,
    Entry.reason?_eq_some_iff]
  constructor
  · rintro ⟨g, e, hmem, why, hwhy, rfl, rfl⟩
    exact ⟨e, mem_snapshot.mp hmem, hwhy⟩
  · rintro ⟨e, he, hwhy⟩
    exact ⟨f, e, mem_snapshot.mpr he, reason, hwhy, rfl, rfl⟩

theorem map_file_explain (r : Registry) (name : String) :
    (r.explain name).map Candidate.file = (r.snapshot.filter fun found => found.2.mentions name).map Prod.fst := by
  rw [explain]
  induction r.snapshot with
  | nil => rfl
  | cons found rest ih =>
    obtain ⟨g, e⟩ := found
    have hreason : (e.reason? name).isSome = e.mentions name := Entry.isSome_reason?
    cases h : e.reason? name with
    | none =>
      rw [h, Option.isSome_none] at hreason
      simpa [List.filterMap_cons, List.filter_cons, h, ← hreason] using ih
    | some reason =>
      rw [h, Option.isSome_some] at hreason
      simpa [List.filterMap_cons, List.filter_cons, h, ← hreason] using ih

/-- The search with reasons finds the candidates, each once. -/
theorem nodup_explain (r : Registry) (name : String) : ((r.explain name).map Candidate.file).Nodup := by
  rw [map_file_explain]
  exact r.nodup_snapshot.sublist (List.filter_sublist.map _)

theorem mem_map_file_explain : f ∈ (r.explain name).map Candidate.file ↔ f ∈ r.candidates name := by
  rw [map_file_explain, candidates, filesWhere, Std.ExtTreeSet.mem_ofList, List.contains_iff_mem]

theorem mem_declaring_iff :
    f ∈ r.declaring name ↔ ⟨f, .declares⟩ ∈ r.explain name ∨ ⟨f, .both⟩ ∈ r.explain name := by
  rw [declaring, mem_filesWhere, mem_explain, mem_explain]
  constructor
  · rintro ⟨e, he, hdeclares⟩
    cases hrefers : e.refersTo name with
    | false => exact Or.inl ⟨e, he, hdeclares, hrefers⟩
    | true => exact Or.inr ⟨e, he, hdeclares, hrefers⟩
  · rintro (⟨e, he, hdeclares, -⟩ | ⟨e, he, hdeclares, -⟩) <;> exact ⟨e, he, hdeclares⟩

/-! ### Searches for types -/

/-- All entries are sealed. -/
def Sealed (r : Registry) : Prop := ∀ (f : FileId) e, r.get? f = some e → e.Sealed

theorem mem_typesNamed {l : TypeLocation} : l ∈ r.typesNamed name ↔
    ∃ e, r.get? l.file = some e ∧ l.qualifiedName = e.qualify name ∧ ⟨name, l.kind⟩ ∈ e.types := by
  rw [← Scan.typesNamed_inOrder, Scan.mem_typesNamed]

/-- Where entries are sealed, a file with a type of some name declares the name. -/
theorem Sealed.mem_declaring (h : r.Sealed) {l : TypeLocation} (hl : l ∈ r.typesNamed name) :
    l.file ∈ r.declaring name := by
  obtain ⟨e, he, -, ht⟩ := mem_typesNamed.mp hl
  refine mem_filesWhere.mpr ⟨e, he, ?_⟩
  rw [Entry.declares, Std.ExtTreeSet.contains_iff_mem]
  exact h l.file e he _ ht

theorem get?_of_put (h : (r.put file entry).2.get? f = some e) : r.get? f = some e ∨ e = entry := by
  by_cases hstale : (r.put file entry).1 = .stale
  · obtain ⟨slot, hs, hle⟩ := put_eq_stale_iff.mp hstale
    rw [put_of_stale hs hle] at h
    exact Or.inl h
  · rw [put_of_newer fun slot hs hle => hstale (put_eq_stale_iff.mpr ⟨slot, hs, hle⟩), get?_insert] at h
    split at h
    · exact Or.inr (Option.some.inj h).symm
    · exact Or.inl h

end Registry

/-! ### Every entry is sealed -/

variable {o o' : List Task} {s s' : Service} {m : Moment} {l : List Moment}

theorem Service.sealed_answer {request : Request} (h : s.registry.Sealed) (ho : request.Sealing) :
    (s.answer request).2.registry.Sealed := by
  intro f e he
  cases request with
  | forget file =>
    have he := Service.get?_forget.symm.trans he
    exact h f e (Option.ite_none_left_eq_some.mp he).2
  | remove file =>
    have he := Registry.get?_remove.symm.trans he
    exact h f e (Option.ite_none_left_eq_some.mp he).2
  | put file entry =>
    obtain ⟨summary, stamp, rfl⟩ := ho
    rcases Registry.get?_of_put he with hold | rfl
    · exact h f e hold
    · exact Entry.sealed_ofSummary summary stamp
  | purge cutoff => exact h f e ((Registry.get?_purge _ _ _).symm.trans he)
  | clear => exact nomatch Registry.get?_clear.symm.trans he
  | _ => exact h f e he

theorem Service.sealed_conclude (h : s.registry.Sealed) (file : FileId) (stamp : Stamp) (ending : Ending) :
    (s.conclude file stamp ending).2.registry.Sealed := by
  intro f e he
  cases hp : (s.conclude file stamp ending).1.isPublished with
  | true =>
    obtain ⟨summary, -, hget⟩ := Service.get?_conclude_of_isPublished hp
    rw [hget] at he
    split at he
    · obtain rfl := Option.some.inj he
      exact Entry.sealed_ofSummary summary stamp
    · exact h f e he
  | false =>
    rw [Service.conclude_snd_of_not_isPublished hp] at he
    exact h f e (Service.get?_retire.symm.trans he)

theorem Step.sealed (h : Step o m o') (ho : m.Asks Request.Sealing) (hs : m.before.registry.Sealed) :
    m.after.registry.Sealed := by
  cases h with
  | began => exact hs
  | answered => exact Service.sealed_answer hs ho
  | ended => exact Service.sealed_conclude hs _ _ _

theorem Trace.sealed (h : Trace o s l o' s') (ho : ∀ m ∈ l, m.Asks Request.Sealing) (hs : s.registry.Sealed) :
    s'.registry.Sealed := by
  induction h with
  | nil => exact hs
  | cons hstep _ ih =>
    obtain ⟨ho₁, ho⟩ := List.forall_mem_cons.mp ho
    exact ih ho (hstep.sealed ho₁ hs)

theorem Service.sealed_fresh (settings : Settings) : (Service.fresh settings).registry.Sealed := by
  intro f e he
  simp [fresh, Registry.get?] at he

theorem Build.sealed_of_mem_states {α : Type} {settings : Settings} {program : Build α}
    (ho : ∀ m ∈ program.log (.fresh settings), m.Asks Request.Sealing)
    (hs : s ∈ program.states (.fresh settings)) : s.registry.Sealed := by
  obtain ⟨l, o, hsub, h⟩ := Build.trace_of_mem_states hs
  exact h.sealed (fun m hm => ho m (hsub hm)) (Service.sealed_fresh settings)

/-- In every state of every run the searches and listings agree. The search with reasons finds the candidates,
    each once, for the reason that its entry gives; the files that declare a name are those found for
    declaring it, and every type found by name is in one of them; the files, the snapshot and the sizes tell
    which files have entries, and which these are. A resolver is asked about just the candidates, its answer
    is the answer, and asking it changes nothing. -/
theorem views_agree {α : Type} (settings : Settings) (program : Build α)
    (sealing : ∀ m ∈ program.log (.fresh settings), m.Asks Request.Sealing) (s : Service)
    (reached : s ∈ program.states (.fresh settings)) (name : String) :
    let r := s.registry
    (((r.explain name).map Candidate.file).Nodup ∧
      ∀ f, f ∈ (r.explain name).map Candidate.file ↔ f ∈ r.candidates name) ∧
    (∀ f reason, ⟨f, reason⟩ ∈ r.explain name ↔
      ∃ e, r.get? f = some e ∧ e.declares name = reason.declared ∧ e.refersTo name = reason.referred) ∧
    (∀ f, f ∈ r.declaring name ↔ ⟨f, .declares⟩ ∈ r.explain name ∨ ⟨f, .both⟩ ∈ r.explain name) ∧
    (∀ l ∈ r.typesNamed name, l.file ∈ r.declaring name) ∧
    (r.files.Nodup ∧ ∀ f, f ∈ r.files ↔ (r.get? f).isSome = true) ∧
    ((r.snapshot.map Prod.fst).Nodup ∧ ∀ f e, (f, e) ∈ r.snapshot ↔ r.get? f = some e) ∧
    (r.size = r.files.length ∧ r.size = r.snapshot.length ∧ (r.isEmpty = true ↔ ∀ f, r.get? f = none)) ∧
    ∀ resolver file position, s.answer (.references resolver file name position) =
      (resolver ⟨r.candidates name, file, name, position⟩, s) := by
  intro r
  have hsealed : r.Sealed := Build.sealed_of_mem_states sealing reached
  have hfiles : r.files = r.snapshot.map Prod.fst := r.files_eq
  refine ⟨⟨r.nodup_explain name, fun f => Registry.mem_map_file_explain⟩, fun f reason => Registry.mem_explain,
    fun f => Registry.mem_declaring_iff, fun l => hsealed.mem_declaring, ⟨hfiles ▸ r.nodup_snapshot, fun f => ?_⟩,
    ⟨r.nodup_snapshot, fun f e => Registry.mem_snapshot⟩, ⟨?_, r.size_eq, Registry.isEmpty_iff⟩, fun _ _ _ => rfl⟩
  · exact Registry.mem_files
  · rw [r.size_eq, hfiles, List.length_map]

/-- A client that puts the entry of a file with a type that its summary does not declare, and forgets another. -/
def bareProgram : Build Unit :=
  .ask (.put ⟨"A"⟩ (.ofSummary (Summary.empty.addBareType ⟨"T", .classType⟩) (.nth 7))) fun _ =>
  .ask (.remove ⟨"B"⟩) fun _ => .pure (.ok {}) ()

/-- A type that a summary does not declare is found with its file, beside a tombstone. -/
theorem views_agree_bare :
    let s := (bareProgram.run (.fresh .standard)).2
    s.registry.typesNamed "T" = [⟨⟨"A"⟩, "T", .classType⟩] ∧ ⟨"A"⟩ ∈ s.registry.declaring "T" := by
  intro s
  have sealing : ∀ m ∈ bareProgram.log (.fresh .standard), m.Asks Request.Sealing := by
    intro m hm
    rcases List.mem_cons.mp hm with rfl | hm
    · exact ⟨_, _, rfl⟩
    · obtain rfl := List.mem_singleton.mp hm
      trivial
  have hreached : s ∈ bareProgram.states (.fresh .standard) :=
    List.mem_cons_of_mem _ (List.mem_cons_of_mem _ (List.mem_singleton_self _))
  have htypes : s.registry.typesNamed "T" = [⟨⟨"A"⟩, "T", .classType⟩] := by cbv
  have h := views_agree .standard bareProgram sealing s hreached "T"
  exact ⟨htypes, h.2.2.2.1 ⟨⟨"A"⟩, "T", .classType⟩ (htypes ▸ List.mem_singleton_self _)⟩

end Concordance
