import Mathlib
import Concordance.Proofs.Service.Clock

/-! The history law. When builds make no calls of their own, what a file's entry is can be read off what was
    called about the file since it was last forgotten: its last clean build, or else its first that left
    something to publish. -/

namespace Concordance

/-- A call from outside. A build of its own makes no calls here; all that is said of it is how it ends. -/
inductive Call where
  | index (file : FileId) (ending : Ending)
  | forget (file : FileId)
  | remove (file : FileId)
  | clear

namespace Service

/-- Makes a call. -/
def perform (s : Service) : Call → Service
  | .index file ending => (s.index file (.finish ending ())).2
  | .forget file => (s.answer (.forget file)).2
  | .remove file => (s.answer (.remove file)).2
  | .clear => (s.answer .clear).2

/-- Makes one call after the other. -/
def performAll (s : Service) (calls : List Call) : Service := calls.foldl perform s

/-- The calls, each with the stamp that the clock gives when it is made. -/
def timeline (s : Service) : List Call → List (Stamp × Call)
  | [] => []
  | call :: calls => (s.begin.1, call) :: (s.perform call).timeline calls

end Service

/-! ### The history of a file -/

/-- Whether a call forgets a file. -/
def Call.forgets (file : FileId) : Call → Bool
  | .forget f | .remove f => file = f
  | .clear => true
  | .index _ _ => false

/-- How a call's build of a file ends. -/
def Call.ending? (file : FileId) : Call → Option Ending
  | .index f ending => if file = f then some ending else none
  | _ => none

/-- Whether a call is about a file. -/
def Call.concerns (file : FileId) (call : Call) : Bool := call.forgets file || (call.ending? file).isSome

section

variable {τ σ α β : Type}

/-- What can be read off the elements of a list, where something can; the tags stay. -/
def pick (read : α → Option β) (l : List (τ × α)) : List (τ × β) := l.filterMap fun x => (read x.2).map (x.1, ·)

/-- The builds of a file since it was last forgotten. -/
def recent (file : FileId) (history : List (τ × Call)) : List (τ × Ending) :=
  pick (Call.ending? file) (history.reverse.takeWhile fun x => !x.2.forgets file).reverse

/-- What a clean build gave. -/
def Ending.clean? : Ending → Option Summary
  | .ok (.ok summary) => some summary
  | _ => none

/-- What a failed build could recover. -/
def Ending.recovered? : Ending → Option Summary
  | .ok (.error e) => e.recovered?
  | _ => none

/-- What stays of some builds: the last clean one, or else, if the settings ask for it, the first of which
    something was recovered. -/
def survivor (settings : Settings) (builds : List (τ × Ending)) : Option (τ × Summary) :=
  (pick Ending.clean? builds).getLast?.or
    (if settings.publishPartialOnFirstFailure then (pick Ending.recovered? builds).head? else none)

variable {read : α → Option β} {l l' : List (τ × α)} {settings : Settings} {file : FileId}
  {history : List (τ × Call)} {builds : List (τ × Ending)} {t : τ} {call : Call} {ending : Ending}

theorem pick_append : pick read (l ++ l') = pick read l ++ pick read l' := List.filterMap_append

theorem pick_singleton {a : α} : pick read [(t, a)] = ((read a).map (t, ·)).toList := by
  cases h : read a <;> simp [pick, h]

theorem pick_map (g : τ → σ) : pick read (l.map (Prod.map g id)) = (pick read l).map (Prod.map g id) := by
  simp only [pick, List.filterMap_map, List.map_filterMap, Function.comp_def, Option.map_map, Prod.map, id]

/-! ### One more call -/

@[simp] theorem survivor_nil (settings : Settings) : survivor settings ([] : List (τ × Ending)) = none := by
  simp [survivor, pick]

theorem recent_append_of_forgets (h : call.forgets file = true) : recent file (history ++ [(t, call)]) = [] := by
  simp [recent, h, pick]

theorem recent_append (h : call.forgets file = false) :
    recent file (history ++ [(t, call)]) =
      recent file history ++ ((call.ending? file).map (t, ·)).toList := by
  simp only [recent, List.reverse_append, List.reverse_cons, List.reverse_nil, List.nil_append,
    List.singleton_append, List.takeWhile_cons, h, Bool.not_false, ↓reduceIte, pick_append, pick_singleton]

/-- One more build survives exactly if it has something to publish beside what has survived so far. -/
theorem survivor_append :
    survivor settings (builds ++ [(t, ending)]) =
      ((ending.offer? settings (survivor settings builds).isSome).map (t, ·)).or (survivor settings builds) := by
  simp only [survivor, pick_append, pick_singleton]
  generalize pick Ending.clean? builds = clean, pick Ending.recovered? builds = recovered
  cases ending with
  | error crash => simp [Ending.clean?, Ending.recovered?, Ending.offer?]
  | ok result =>
    cases result with
    | ok summary => simp [Ending.clean?, Ending.offer?, BuildResult.offer?]
    | error e =>
      simp only [Ending.clean?, Ending.recovered?, Ending.offer?, BuildResult.offer?, Option.map_none,
        Option.toList_none, List.append_nil]
      cases hp : settings.publishPartialOnFirstFailure with
      | false => simp
      | true =>
        cases hc : clean.getLast? with
        | some last => simp
        | none =>
          -- Without a clean build the first that recovered something stays, if there was one.
          cases recovered with
          | nil => cases e.recovered? <;> simp
          | cons first rest => simp

/-! ### What does not count -/

/-- Only the calls about a file count. -/
theorem recent_filter_concerns : recent file (history.filter (·.2.concerns file)) = recent file history := by
  have drop : ∀ l : List (τ × Call),
      pick (Call.ending? file) ((l.filter (·.2.concerns file)).takeWhile (!·.2.forgets file)) =
        pick (Call.ending? file) (l.takeWhile (!·.2.forgets file)) := by
    intro l
    induction l with
    | nil => rfl
    | cons x l ih =>
      cases hf : x.2.forgets file with
      | true =>
        have hx : x.2.concerns file = true := by simp [Call.concerns, hf]
        simp [hx, hf]
      | false =>
        have hx : x.2.concerns file = (x.2.ending? file).isSome := by simp [Call.concerns, hf]
        simp only [pick] at ih
        cases he : x.2.ending? file <;> simp [pick, hx, hf, he, ih]
  have hback := congrArg List.reverse (drop history.reverse)
  simpa only [recent, pick, List.filterMap_reverse, List.filter_reverse] using hback

/-- The tags do not count. -/
theorem recent_map (g : τ → σ) :
    recent file (history.map (Prod.map g id)) = (recent file history).map (Prod.map g id) := by
  simp only [recent, ← List.map_reverse, List.takeWhile_map, pick_map]
  rfl

theorem survivor_map (g : τ → σ) :
    survivor settings (builds.map (Prod.map g id)) = (survivor settings builds).map (Prod.map g id) := by
  simp only [survivor, pick_map, List.getLast?_map, List.head?_map]
  cases settings.publishPartialOnFirstFailure <;> simp [Option.map_or]

end

/-! ### The service keeps what survives -/

namespace Service

variable {s : Service} {f file : FileId} {slot : Slot} {ending : Ending} {call : Call} {calls : List Call}
  {history : List (Stamp × Call)}

theorem perform_index (s : Service) (file : FileId) (ending : Ending) :
    s.perform (.index file ending) = (s.begin.2.conclude file s.begin.1 ending).2 := rfl

@[simp] theorem perform_settings (s : Service) (call : Call) : (s.perform call).settings = s.settings := by
  cases call with
  | index => exact conclude_settings
  | _ => rfl

@[simp] theorem performAll_settings (s : Service) (calls : List Call) :
    (s.performAll calls).settings = s.settings := by
  induction calls generalizing s with
  | nil => rfl
  | cons call calls ih => exact (ih _).trans (perform_settings s call)

theorem issued_le_perform (s : Service) (call : Call) : s.registry.issued ≤ (s.perform call).registry.issued := by
  cases call with
  | index file ending =>
    rw [perform_index, conclude_issued]
    exact Nat.le_succ _
  | forget | remove | clear => exact issued_le_answer _ _

theorem issued_le_performAll (s : Service) (calls : List Call) :
    s.registry.issued ≤ (s.performAll calls).registry.issued := by
  induction calls generalizing s with
  | nil => exact Nat.le_refl _
  | cons call calls ih => exact Nat.le_trans (issued_le_perform s call) (ih _)

/-- All calls but clearing use one stamp. -/
theorem issued_perform (h : call ≠ .clear) : (s.perform call).registry.issued = s.registry.issued + 1 := by
  cases call with
  | index file ending => rw [perform_index, conclude_issued, begin_issued]
  | forget file => exact forget_issued
  | remove file => exact Registry.remove_issued ..
  | clear => exact absurd rfl h

theorem issued_performAll (h : ∀ call ∈ calls, call ≠ .clear) :
    (s.performAll calls).registry.issued = s.registry.issued + calls.length := by
  induction calls generalizing s with
  | nil => rfl
  | cons call calls ih =>
    obtain ⟨hcall, hcalls⟩ := List.forall_mem_cons.mp h
    have hrest : ((s.perform call).performAll calls).registry.issued = _ := ih hcalls
    rw [issued_perform hcall] at hrest
    exact hrest.trans (by rw [List.length_cons]; omega)

theorem now_perform_index : (s.perform (.index file ending)).now = s.upcoming := by
  rw [now, Registry.currentStamp, perform_index, conclude_issued, begin_issued]

/-- What survives on a timeline depends on the calls about the file. -/
theorem survivor_timeline (settings : Settings) (s : Service) (calls : List Call) (file : FileId) :
    (survivor settings (recent file (s.timeline calls))).map Prod.snd =
      (survivor settings (recent file ((calls.filter (·.concerns file)).map ((), ·)))).map Prod.snd := by
  have hcalls : (s.timeline calls).map (Prod.map (fun _ => ()) id) = calls.map ((), ·) := by
    induction calls generalizing s with
    | nil => rfl
    | cons call calls ih => exact congrArg (((), call) :: ·) (ih (s.perform call))
  have hfilter : (calls.map ((), ·)).filter (·.2.concerns file) = (calls.filter (·.concerns file)).map ((), ·) :=
    List.filter_map
  rw [← hfilter, recent_filter_concerns, ← hcalls, recent_map, survivor_map, Option.map_map]
  rfl

/-- Between calls no slot is ahead of the clock, and each file has the entry that survives of its history. -/
structure Recorded (s : Service) (history : List (Stamp × Call)) : Prop where
  out : ∀ (f : FileId) (slot : Slot), s.registry.slots[f]? = some slot → slot.stamp ≤ s.now
  entries : ∀ f, s.registry.get? f = (survivor s.settings (recent f history)).map fun x => .ofSummary x.2 x.1

/-- A call leaves older slots, or writes one at the time of the call. -/
theorem slots_perform (hin : (s.perform call).InTime) (h : (s.perform call).registry.slots[f]? = some slot) :
    s.registry.slots[f]? = some slot ∨ slot.stamp ≤ (s.perform call).now := by
  cases call with
  | forget file => exact slots_of_answer (.forget file) trivial hin h
  | remove file => exact slots_of_answer (.remove file) trivial hin h
  | clear => exact slots_of_answer (.clear) trivial hin h
  | index file ending =>
    rw [now_perform_index]
    rw [perform_index] at h
    exact (slots_of_conclude h).imp id fun hstamp => Std.le_of_eq hstamp

theorem Punctual.perform (h : s.Punctual) (hin : (s.perform call).InTime) : (s.perform call).Punctual := by
  intro f slot hslot
  rcases slots_perform hin hslot with hold | hnew
  · exact Std.le_trans (h f slot hold) (hin.now_le (issued_le_perform s call))
  · exact hnew

theorem Punctual.performAll (h : s.Punctual) (hin : (s.performAll calls).InTime) : (s.performAll calls).Punctual := by
  induction calls generalizing s with
  | nil => exact h
  | cons call calls ih => exact ih (h.perform (hin.of_le (issued_le_performAll _ calls))) hin

/-- A build whose file's slot is older decides by what it has to publish. -/
theorem get?_conclude_of_older {stamp : Stamp} (h : s.registry.Older file stamp) (f : FileId) :
    (s.conclude file stamp ending).2.registry.get? f =
      if f = file then ((ending.offer? s.settings (s.registry.contains file)).map (.ofSummary · stamp)).or
        (s.registry.get? f) else s.registry.get? f := by
  cases ho : ending.offer? s.settings (s.registry.contains file) with
  | none =>
    rw [(conclude_of_not (Or.inl ho)).2, get?_retire]
    simp
  | some summary =>
    rw [(conclude_of_offer ho h).2, get?_retire, Registry.publishing, Registry.get?_insert]
    simp

/-- What a call makes of the entry of a file. -/
theorem Punctual.get?_perform (h : s.Punctual) (hin : s.InTime) (call : Call) (f : FileId) :
    (s.perform call).registry.get? f =
      if call.forgets f then none else
        ((call.ending? f).bind fun ending =>
          (ending.offer? s.settings (s.registry.contains f)).map (.ofSummary · s.begin.1)).or
            (s.registry.get? f) := by
  cases call with
  | forget file =>
    refine get?_forget.trans ?_
    by_cases hf : f = file <;> simp [Call.forgets, Call.ending?, hf]
  | remove file =>
    refine Registry.get?_remove.trans ?_
    by_cases hf : f = file <;> simp [Call.forgets, Call.ending?, hf]
  | clear => exact Registry.get?_clear
  | index file ending =>
    rw [perform_index, get?_conclude_of_older (h.older hin file)]
    by_cases hf : f = file
    · subst hf
      simp only [Call.forgets, Call.ending?, ↓reduceIte, Option.bind_some]
      rfl
    · simp only [Call.forgets, Call.ending?, hf, ↓reduceIte, Option.bind_none, Option.none_or]
      rfl

namespace Recorded

theorem fresh (settings : Settings) : (Service.fresh settings).Recorded [] where
  out f slot h := by simp [Service.fresh] at h
  entries f := by
    rw [recent, List.reverse_nil, List.takeWhile_nil, List.reverse_nil, pick, List.filterMap_nil, survivor_nil]
    exact Registry.get?_of_none rfl

theorem perform (h : s.Recorded history) (call : Call) (hin : (s.perform call).InTime) :
    (s.perform call).Recorded (history ++ [(s.begin.1, call)]) where
  out := Punctual.perform h.out hin
  entries f := by
    rw [Punctual.get?_perform h.out (hin.of_le (issued_le_perform s call)), perform_settings]
    cases hf : call.forgets f with
    | true =>
      rw [recent_append_of_forgets hf, survivor_nil]
      rfl
    | false =>
      rw [recent_append hf, Registry.contains, h.entries]
      cases call.ending? f with
      | none => simp
      | some ending =>
        rw [Option.map_some, Option.toList_some, survivor_append, Option.isSome_map, Option.bind_some]
        cases ending.offer? s.settings (survivor s.settings (recent f history)).isSome <;> simp

theorem performAll (h : s.Recorded history) (calls : List Call) (hin : (s.performAll calls).InTime) :
    (s.performAll calls).Recorded (history ++ s.timeline calls) := by
  induction calls generalizing s history with
  | nil => exact (List.append_nil history).symm ▸ h
  | cons call calls ih =>
    have hstep := h.perform call (hin.of_le (issued_le_performAll _ calls))
    have hall := ih hstep hin
    rwa [List.append_assoc] at hall

end Recorded

end Service

/-- Whatever is called on a fresh service, each file has what survives of its own history, sealed with the
    stamp of its build. So searches by name and the answers to forgetting depend on the histories of the files,
    and what survives on how the calls about one file follow one another, not on the calls between them. -/
theorem history_law (settings : Settings) (calls : List Call)
    (few : ((Service.fresh settings).performAll calls).InTime) :
    let s := (Service.fresh settings).performAll calls
    let kept := fun file => survivor settings (recent file ((Service.fresh settings).timeline calls))
    (∀ file, s.registry.get? file = (kept file).map fun x => .ofSummary x.2 x.1) ∧
    (∀ file name, file ∈ s.registry.candidates name ↔ ∃ x, kept file = some x ∧
      (name ∈ x.2.declared ∨ name ∈ x.2.referenced ∨ ∃ t ∈ x.2.types, t.name = name)) ∧
    (∀ file, (s.forget file).1 = (s.registry.get? file).isSome ∧
      (s.answer (.remove file)).1 = (s.registry.get? file).isSome) ∧
    ∀ file others, calls.filter (·.concerns file) = others.filter (·.concerns file) →
      (kept file).map Prod.snd =
        (survivor settings (recent file ((Service.fresh settings).timeline others))).map Prod.snd := by
  intro s kept
  have h : s.Recorded ((Service.fresh settings).timeline calls) :=
    (Service.Recorded.fresh settings).performAll calls few
  have entries : ∀ file, s.registry.get? file = (kept file).map fun x => .ofSummary x.2 x.1 := by
    intro file
    rw [h.entries, Service.performAll_settings]
    rfl
  refine ⟨entries, fun file name => ?_, fun file => ⟨rfl, rfl⟩, fun file others hsame => ?_⟩
  · rw [Registry.mem_candidates, entries]
    cases kept file with
    | none => simp
    | some x => simp [Entry.mentions_ofSummary]
  · rw [Service.survivor_timeline, hsame, ← Service.survivor_timeline]

/-- The first summary that is recovered stays until there is a clean one, and the clean one after that. -/
theorem history_law_recovered :
    let settings := { Settings.standard with publishPartialOnFirstFailure := true }
    let broken (name : String) : Ending := .ok (.error (.malformed ⟨"A.java"⟩ "" (Summary.empty.declare name)))
    let clean : Summary := Summary.empty.declare "A"
    let calls : List Call := [.index ⟨"A.java"⟩ (broken "B"), .index ⟨"A.java"⟩ (broken "C"),
      .index ⟨"A.java"⟩ (.ok (.ok clean)), .index ⟨"A.java"⟩ (broken "D")]
    ((Service.fresh settings).performAll (calls.take 2)).registry.get? ⟨"A.java"⟩ =
        some (.ofSummary (Summary.empty.declare "B") (.nth 1)) ∧
      ((Service.fresh settings).performAll calls).registry.get? ⟨"A.java"⟩ = some (.ofSummary clean (.nth 3)) := by
  intro settings broken clean calls
  have early : ((Service.fresh settings).performAll (calls.take 2)).InTime := by cbv
  have late : ((Service.fresh settings).performAll calls).InTime := by cbv
  exact ⟨((history_law settings (calls.take 2) early).1 ⟨"A.java"⟩).trans (by cbv),
    ((history_law settings calls late).1 ⟨"A.java"⟩).trans (by cbv)⟩

end Concordance
