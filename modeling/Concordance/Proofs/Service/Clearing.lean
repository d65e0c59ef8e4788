import Concordance.Proofs.Service.Order

/-! Clearing and the builds that run meanwhile. Clearing forgets the files that have slots, and only those. So
    it stops a build of such a file, as forgetting does; a build of a file without a slot it does not touch,
    and the build may then bring in what was read before. -/

namespace Concordance

variable {o o' : List Task} {s s' : Service} {m : Moment} {l : List Moment} {file : FileId} {e : Entry}

/-! ### Where entries come from -/

/-- A request does not bring in entries. -/
theorem Service.get?_answer {request : Request} (ho : request.Orderly)
    (h : (s.answer request).2.registry.get? file = some e) : s.registry.get? file = some e := by
  cases request with
  | put | purge => exact ho.elim
  | forget f =>
    have hget := Service.get?_forget.symm.trans h
    exact (Option.ite_none_left_eq_some.mp hget).2
  | remove f =>
    have hget := Registry.get?_remove.symm.trans h
    exact (Option.ite_none_left_eq_some.mp hget).2
  | clear => exact nomatch Registry.get?_clear.symm.trans h
  | _ => exact h

/-- An entry that is new was published by a build that ended with its stamp. -/
theorem Step.exists_published (h : Step o m o') (ho : m.Asks Request.Orderly)
    (he : m.after.registry.get? file = some e) :
    m.before.registry.get? file = some e ∨
      ∃ ending attempt, m.event = .ended file e.stamp ending attempt ∧ attempt.isPublished = true := by
  cases h with
  | began => exact Or.inl he
  | answered => exact Or.inl (Service.get?_answer ho he)
  | @ended o s f stamp ending =>
    cases hp : (s.conclude f stamp ending).1.isPublished with
    | true =>
      obtain ⟨summary, -, hget⟩ := Service.get?_conclude_of_isPublished hp
      by_cases hf : file = f
      · subst hf
        obtain rfl := Option.some.inj (((hget file).trans (if_pos rfl)).symm.trans he)
        exact Or.inr ⟨ending, _, rfl, hp⟩
      · exact Or.inl (((hget file).trans (if_neg hf)).symm.trans he)
    | false =>
      have hget := congrArg (·.registry.get? file) (Service.conclude_snd_of_not_isPublished hp)
      exact Or.inl (Service.get?_retire.symm.trans (hget.symm.trans he))

theorem Trace.exists_published (h : Trace o s l o' s') (ho : ∀ m ∈ l, m.Asks Request.Orderly)
    (he : s'.registry.get? file = some e) :
    s.registry.get? file = some e ∨ ∃ l₁ u ending attempt v l₂,
      l = l₁ ++ ⟨u, .ended file e.stamp ending attempt, v⟩ :: l₂ ∧ attempt.isPublished = true := by
  induction h with
  | nil => exact Or.inl he
  | @cons o o₁ o₂ m l s' hstep h ih =>
    obtain ⟨ho₁, ho⟩ := List.forall_mem_cons.mp ho
    rcases ih ho he with hmid | ⟨l₁, u, ending, attempt, v, l₂, rfl, hp⟩
    · rcases hstep.exists_published ho₁ hmid with hold | ⟨ending, attempt, hm, hp⟩
      · exact Or.inl hold
      · obtain ⟨u, event, v⟩ := m
        cases hm
        exact Or.inr ⟨[], u, ending, attempt, v, l, rfl, hp⟩
    · exact Or.inr ⟨m :: l₁, u, ending, attempt, v, l₂, rfl, hp⟩

/-! ### Builds across a clear -/

theorem Step.after_clear (h : Step o m o') (hm : m.event = .answered .clear ()) :
    o' = o ∧ m.after.registry = m.before.registry.clear := by
  cases h with
  | began | ended => cases hm
  | answered =>
    cases hm
    exact ⟨rfl, rfl⟩

theorem Moment.effect?_clear (hm : m.event = .answered .clear ()) :
    m.effect? file = m.after.registry.slots[file]?.map Slot.stamp := by
  obtain ⟨u, event, v⟩ := m
  cases hm
  rfl

/-- Clearing affects the files that have slots. -/
theorem Step.exists_effect?_clear (h : Step o m o') (hm : m.event = .answered .clear ())
    (hslot : file ∈ m.before.registry.slots) : ∃ u, m.effect? file = some u := by
  obtain ⟨slot, hslot⟩ := Registry.mem_slots.mp hslot
  obtain ⟨n, -, -, hn⟩ := Registry.slots_clear_of_some hslot
  refine ⟨.nth n, ?_⟩
  rw [Moment.effect?_clear hm, (h.after_clear hm).2, hn]
  rfl

namespace Span.Through

variable {b : Span l} {o₁ o₂ : List Task} {ago since : List Moment} {c : Moment}

/-- A file to which nothing happens across a clear has no slot after it. -/
theorem slots_eq_none (h : b.Through o o' s s' o₁ o₂) (ho : ∀ m ∈ b.meanwhile, m.Asks Request.Orderly)
    (he : b.meanwhile.filterMap (·.effect? b.file) = []) (hsplit : b.meanwhile = ago ++ c :: since)
    (hc : c.event = .answered .clear ()) : b.before.registry.slots[b.file]? = none := by
  have hmeanwhile := h.meanwhile
  rw [hsplit] at hmeanwhile ho
  rw [hsplit, List.filterMap_eq_nil_iff, List.forall_mem_append, List.forall_mem_cons] at he
  obtain ⟨-, hec, hesince⟩ := he
  obtain ⟨o₃, o₄, -, -, -, hsound, hsince⟩ := hmeanwhile.sound_through h.begun h.before.inTime
  have hnone : c.after.registry.slots[b.file]? = none :=
    Option.map_eq_none_iff.mp ((Moment.effect?_clear hc).symm.trans hec)
  exact hsince.slots_eq_none hsound h.before.inTime (List.forall_mem_cons.mp (List.forall_mem_append.mp ho).2).2
    (List.filterMap_eq_nil_iff.mpr hesince) hnone

/-- Across a clear a build is published exactly if nothing happens to its file, not by the clear either, and
    it has something to publish for a file without an entry. -/
theorem isPublished_iff_of_clear (h : b.Through o o' s s' o₁ o₂) (ho : ∀ m ∈ b.meanwhile, m.Asks Request.Orderly)
    (hsplit : b.meanwhile = ago ++ c :: since) (hc : c.event = .answered .clear ()) :
    b.attempt.isPublished = true ↔
      (b.ending.offer? s.settings false).isSome = true ∧ b.meanwhile.filterMap (·.effect? b.file) = [] := by
  have huntouched : b.meanwhile.filterMap (·.effect? b.file) = [] →
      b.before.registry.contains b.file = false ∧ b.before.registry.Older b.file b.stamp := by
    intro he
    have hnone := h.slots_eq_none ho he hsplit hc
    refine ⟨Registry.contains_eq_false_iff.mpr (Registry.get?_of_none hnone), fun slot hslot => ?_⟩
    exact nomatch hnone.symm.trans hslot
  rw [Service.isPublished_iff_of_conclude_eq h.conclude, h.settings]
  constructor
  · rintro ⟨hoffer, hold⟩
    have he : b.meanwhile.filterMap (·.effect? b.file) = [] := by
      refine Classical.byContradiction fun hne => ?_
      obtain ⟨u, hu⟩ := List.exists_mem_of_ne_nil _ hne
      exact h.not_older ho hu hold
    exact ⟨(huntouched he).1 ▸ hoffer, he⟩
  · rintro ⟨hoffer, he⟩
    exact ⟨(huntouched he).1.symm ▸ hoffer, (huntouched he).2⟩

/-- Where a clear found a slot, what is published in it later began later. -/
theorem exists_span_since (h : b.Through o o' s s' o₁ o₂) (ho : ∀ m ∈ b.meanwhile, m.Asks Request.Orderly)
    (hsplit : b.meanwhile = ago ++ c :: since) (hc : c.event = .answered .clear ())
    (hslot : b.file ∈ c.before.registry.slots) (he : b.before.registry.get? b.file = some e) :
    ∃ b' : Span since, b'.file = b.file ∧ b'.stamp = e.stamp ∧ b'.attempt.isPublished = true := by
  have hmeanwhile := h.meanwhile
  rw [hsplit] at hmeanwhile ho
  obtain ⟨o₃, o₄, -, hsound, hstep, -, hsince⟩ := hmeanwhile.sound_through h.begun h.before.inTime
  obtain ⟨hoc, hosince⟩ := List.forall_mem_cons.mp (List.forall_mem_append.mp ho).2
  obtain ⟨hstack, hafter⟩ := hstep.after_clear hc
  -- The entry is not from before, so a build was published that ended with its stamp.
  rcases hsince.exists_published hosince he with hold | ⟨l₁, u, ending, attempt, v, l₂, rfl, hp⟩
  · rw [hafter, Registry.get?_clear] at hold
    cases hold
  · by_cases hmem : ⟨b.file, e.stamp⟩ ∈ o₄
    · -- The build ran at the clear already, which overtook it.
      exfalso
      obtain ⟨o₅, o₆, hl₁, hended, hl₂⟩ := hsince.through
      obtain ⟨htop, hconclude⟩ := hended.ended_eq rfl
      have hold := ((Service.isPublished_iff_of_conclude_eq hconclude).mp hp).2
      obtain ⟨w, hw⟩ := hstep.exists_effect?_clear hc hslot
      have htrace := Trace.cons hstep hl₁
      have hinu := (h.before.inTime.of_le hl₂.issued_le).of_le hended.issued_le
      have ho' : ∀ m ∈ c :: l₁, m.Asks Request.Orderly :=
        List.forall_mem_cons.mpr ⟨hoc, (List.forall_mem_append.mp hosince).1⟩
      exact (htrace.not_older hsound hinu ho' (htop ▸ List.mem_cons_self) (hsound.issued _ (hstack ▸ hmem))
        (List.mem_filterMap.mpr ⟨c, List.mem_cons_self, hw⟩)) hold
    · obtain ⟨b', hfile, hstamp, -, hattempt⟩ := hsince.exists_span hmem
      exact ⟨b', hfile, hstamp, by rw [hattempt, hp]⟩

end Span.Through

variable {α : Type}

/-- A build across a clear is published exactly if its file had no slot for the clear to take, nothing else
    happened to the file meanwhile, and the build has something to publish. If the file had a slot, the build
    comes to nothing, and the file has an entry after it only if a build that began after the clear has
    published it. -/
theorem isPublished_across_clear (settings : Settings) (program : Build α)
    (orderly : ∀ m ∈ program.log (.fresh settings), m.Asks Request.Orderly)
    (few : (program.run (.fresh settings)).2.InTime)
    (b : Span (program.log (.fresh settings))) (ago since : List Moment) (c : Moment)
    (meanwhile : b.meanwhile = ago ++ c :: since) (clear : c.event = .answered .clear ()) :
    (b.attempt.isPublished = true ↔
      (b.ending.offer? settings false).isSome = true ∧ b.meanwhile.filterMap (·.effect? b.file) = []) ∧
    (b.file ∈ c.before.registry.slots → b.attempt.isPublished = false ∧
      ∀ e, b.after.registry.get? b.file = some e →
        ∃ b' : Span since, b'.file = b.file ∧ b'.stamp = e.stamp ∧ b'.attempt.isPublished = true) := by
  obtain ⟨o₁, o₂, h⟩ := b.through (program.trace_log (.fresh settings) []) (.fresh settings) few
  have ho : ∀ m ∈ b.meanwhile, m.Asks Request.Orderly := fun m hm => orderly m (by simp [b.log, hm])
  refine ⟨h.isPublished_iff_of_clear ho meanwhile clear, fun hslot => ?_⟩
  obtain ⟨o₃, o₄, -, hstep, -⟩ := (meanwhile ▸ h.meanwhile).through
  obtain ⟨u, hu⟩ := hstep.exists_effect?_clear clear hslot
  have hmem : u ∈ b.meanwhile.filterMap (·.effect? b.file) :=
    List.mem_filterMap.mpr ⟨c, by rw [meanwhile]; exact List.mem_append_right _ List.mem_cons_self, hu⟩
  obtain ⟨hnot, hafter⟩ := h.overtaken ho hmem
  refine ⟨hnot, fun e he => h.exists_span_since ho meanwhile clear hslot ?_⟩
  rwa [hafter, Service.get?_retire] at he

/-- A build that clears before it ends. -/
def clearing : Build Unit := .ask .clear fun _ => .pure (.ok {}) ()

theorem isPublished_across_clear_indexed :
    let indexed := ((Service.fresh .standard).index ⟨"A.java"⟩ (.pure (.ok {}) ())).2
    (indexed.index ⟨"A.java"⟩ clearing).1.1.isPublished = false := by
  intro indexed
  let program : Build Unit := .index ⟨"A.java"⟩ (.pure (.ok {}) ()) fun _ _ =>
    .index ⟨"A.java"⟩ clearing fun _ _ => .pure (.ok {}) ()
  have orderly : ∀ m ∈ program.log (.fresh .standard), m.Asks Request.Orderly := by
    simp [program, clearing, Build.log, Build.pure, Moment.Asks, Request.Orderly]
  have few : (program.run (.fresh .standard)).2.InTime := by cbv
  have h := isPublished_across_clear .standard program orderly few
    ⟨⟨"A.java"⟩, _, _, _, [_, _], [_], _, _, _, _, _, rfl⟩ [] [] _ rfl rfl
  exact (h.2 (by cbv)).1

/-- The first build of a file withstands a clear. -/
theorem inserted_across_clear :
    ((Service.fresh .standard).index ⟨"A.java"⟩ clearing).1.1 = .ok .inserted ∧
    ((Service.fresh .standard).index ⟨"A.java"⟩ clearing).2.registry.get? ⟨"A.java"⟩ =
      some (.ofSummary {} (.nth 1)) := by
  constructor <;> cbv

end Concordance
