import Concordance.Proofs.Service.Publication
import Concordance.Service.Build

/-! Runs of a service. A client of the service is itself a tree of calls, so a run is the run of a `Build` on
    a fresh service. Its log lists what happens, builds within builds included, in the order of time; beside
    it goes the stack of the builds that have begun and not ended, the newest first. -/

namespace Concordance

/-- A build under way: its file, and the stamp of its beginning. -/
structure Task where
  file : FileId
  stamp : Stamp

/-- What happens in a run. -/
inductive Event where
  | began (file : FileId) (stamp : Stamp)
  | answered (request : Request) (reply : request.Reply)
  | ended (file : FileId) (stamp : Stamp) (ending : Ending) (attempt : Attempt)

/-- An event, with the service before it and after it. -/
structure Moment where
  before : Service
  event : Event
  after : Service

/-- If a request is answered at a moment, it is of a kind. -/
def Moment.Asks (kind : Request → Prop) (m : Moment) : Prop := match m.event with
  | .answered request _ => kind request
  | .began _ _ | .ended _ _ _ _ => True

theorem Moment.Asks.imp {kind kind' : Request → Prop} {m : Moment} (h : m.Asks kind)
    (himp : ∀ request, kind request → kind' request) : m.Asks kind' := by
  obtain ⟨before, event, after⟩ := m
  cases event with
  | answered request reply => exact himp request h
  | began | ended => trivial

/-- A service on which nothing was called yet. -/
def Service.fresh (settings : Settings) : Service := { settings }

variable {α : Type}

/-- What happens while a build runs. -/
def Build.log (s : Service) : Build α → List Moment
  | finish _ _ => []
  | ask request next =>
    ⟨s, .answered request (s.answer request).1, (s.answer request).2⟩ ::
      log (s.answer request).2 (next (s.answer request).1)
  | index file build next =>
    let (stamp, t) := s.begin
    let ((ending, notes), u) := build.run t
    let (attempt, v) := u.conclude file stamp ending
    (⟨s, .began file stamp, t⟩ :: build.log t) ++
      ⟨u, .ended file stamp ending attempt, v⟩ :: log v (next attempt notes)

section

variable {s : Service} {file : FileId} {build : Build α} {next : Attempt → α → Build α}

theorem Service.index_eq : s.index file build =
    ((((build.run s.begin.2).2.conclude file s.begin.1 (build.run s.begin.2).1.1).1, (build.run s.begin.2).1.2),
      ((build.run s.begin.2).2.conclude file s.begin.1 (build.run s.begin.2).1.1).2) := rfl

theorem Build.run_index : (index file build next).run s =
    (next (s.index file build).1.1 (s.index file build).1.2).run (s.index file build).2 := rfl

theorem Build.log_index : (index file build next).log s =
    (⟨s, .began file s.begin.1, s.begin.2⟩ :: build.log s.begin.2) ++
      ⟨(build.run s.begin.2).2, .ended file s.begin.1 (build.run s.begin.2).1.1 (s.index file build).1.1,
        (s.index file build).2⟩ ::
      (next (s.index file build).1.1 (s.index file build).1.2).log (s.index file build).2 := rfl

end

/-- A moment takes place over a stack of running builds and leaves one. -/
inductive Step : List Task → Moment → List Task → Prop where
  | began {o : List Task} {s : Service} {file : FileId} :
    Step o ⟨s, .began file s.begin.1, s.begin.2⟩ (⟨file, s.begin.1⟩ :: o)
  | answered {o : List Task} {s : Service} {request : Request} :
    Step o ⟨s, .answered request (s.answer request).1, (s.answer request).2⟩ o
  | ended {o : List Task} {s : Service} {file : FileId} {stamp : Stamp} {ending : Ending} :
    Step (⟨file, stamp⟩ :: o)
      ⟨s, .ended file stamp ending (s.conclude file stamp ending).1, (s.conclude file stamp ending).2⟩ o

/-- A build that ends is the one on top of the stack. -/
theorem Step.ended_eq {o o' : List Task} {m : Moment} {file : FileId} {stamp : Stamp} {ending : Ending}
    {attempt : Attempt} (h : Step o m o') (he : m.event = .ended file stamp ending attempt) :
    o = ⟨file, stamp⟩ :: o' ∧ m.before.conclude file stamp ending = (attempt, m.after) := by
  cases h with
  | began | answered => cases he
  | ended =>
    cases he
    exact ⟨rfl, rfl⟩

/-- Moments that follow one another lead from one service and stack to another. -/
inductive Trace : List Task → Service → List Moment → List Task → Service → Prop where
  | nil {o : List Task} {s : Service} : Trace o s [] o s
  | cons {o o' o'' : List Task} {m : Moment} {l : List Moment} {s : Service} :
    Step o m o' → Trace o' m.after l o'' s → Trace o m.before (m :: l) o'' s

namespace Trace

variable {o o' o'' : List Task} {s s' s'' : Service} {l l' : List Moment}

theorem append (h : Trace o s l o' s') (h' : Trace o' s' l' o'' s'') : Trace o s (l ++ l') o'' s'' := by
  induction h with
  | nil => exact h'
  | cons hs _ ih => exact .cons hs (ih h')

theorem split (h : Trace o s (l ++ l') o'' s'') : ∃ o' s', Trace o s l o' s' ∧ Trace o' s' l' o'' s'' := by
  induction l generalizing o s with
  | nil => exact ⟨o, s, .nil, h⟩
  | cons m l ih =>
    cases h with
    | cons hs h =>
      obtain ⟨o', s', h₁, h₂⟩ := ih h
      exact ⟨o', s', .cons hs h₁, h₂⟩

/-- A trace leads through each of its moments. -/
theorem through {m : Moment} (h : Trace o s (l ++ m :: l') o'' s'') :
    ∃ o₁ o₂, Trace o s l o₁ m.before ∧ Step o₁ m o₂ ∧ Trace o₂ m.after l' o'' s'' := by
  obtain ⟨o₁, _, hl, h⟩ := h.split
  cases h with
  | @cons _ o₂ _ _ _ _ hstep h => exact ⟨o₁, o₂, hl, hstep, h⟩

end Trace

/-- The log of a build leads to where the build ends, and leaves the stack as it was. -/
theorem Build.trace_log (b : Build α) (s : Service) (o : List Task) : Trace o s (b.log s) o (b.run s).2 := by
  induction b generalizing s o with
  | finish ending notes => exact .nil
  | ask request next ih => exact .cons .answered (ih _ _ _)
  | index file build next ihb ihn => exact .append (.cons .began (ihb _ _)) (.cons .ended (ihn _ _ _ _))

/-- The states that a service goes through while a build runs. -/
def Build.states {α : Type} (s : Service) (build : Build α) : List Service := s :: (build.log s).map Moment.after

theorem Build.run_mem_states (build : Build α) (s : Service) : (build.run s).2 ∈ build.states s := by
  induction build generalizing s with
  | finish ending notes => exact List.mem_cons_self
  | ask request next ih => exact List.mem_cons_of_mem s (ih _ _)
  | index file build next _ ih =>
    rw [run_index, states, log_index, List.map_append]
    exact List.mem_cons_of_mem s (List.mem_append_right _ (ih _ _ _))

/-- Moments of the log lead to each of these states. -/
theorem Build.trace_of_mem_states {s s₀ : Service} {build : Build α} (h : s ∈ build.states s₀) :
    ∃ l o, l ⊆ build.log s₀ ∧ Trace [] s₀ l o s := by
  rcases List.mem_cons.mp h with rfl | h
  · exact ⟨[], [], List.nil_subset _, .nil⟩
  · obtain ⟨m, hm, rfl⟩ := List.mem_map.mp h
    obtain ⟨earlier, later, hlog⟩ := List.append_of_mem hm
    obtain ⟨o₁, o₂, hearlier, hstep, -⟩ := (hlog ▸ build.trace_log s₀ []).through
    refine ⟨earlier ++ [m], o₂, fun m' hm' => ?_, hearlier.append (.cons hstep .nil)⟩
    rw [hlog, ← List.singleton_append, ← List.append_assoc]
    exact List.mem_append_left later hm'

/-! ### The stack and the clock -/

namespace Service

variable {s : Service} {request : Request}

@[simp] theorem answer_settings (s : Service) (request : Request) : (s.answer request).2.settings = s.settings := by
  cases request <;> rfl

@[simp] theorem answer_running (s : Service) (request : Request) : (s.answer request).2.running = s.running := by
  cases request <;> rfl

theorem issued_le_answer (s : Service) (request : Request) :
    s.registry.issued ≤ (s.answer request).2.registry.issued := by
  cases request with
  | remove | nextStamp => exact Nat.le_succ _
  | forget file => exact Nat.le_of_lt (Nat.lt_of_lt_of_eq (Nat.lt_succ_self _) forget_issued.symm)
  | put file entry => exact Nat.le_of_eq Registry.put_issued.symm
  | purge cutoff => exact Nat.le_of_eq Registry.purge_issued.symm
  | clear => exact Registry.issued_le_clear s.registry
  | _ => exact Nat.le_refl _

end Service

theorem Step.issued_le {o o' : List Task} {m : Moment} (h : Step o m o') :
    m.before.registry.issued ≤ m.after.registry.issued := by
  cases h with
  | began => exact Nat.le_succ _
  | answered => exact Service.issued_le_answer _ _
  | ended => exact Nat.le_of_eq Service.conclude_issued.symm

theorem Step.settings_eq {o o' : List Task} {m : Moment} (h : Step o m o') :
    m.after.settings = m.before.settings := by
  cases h with
  | began => rfl
  | answered => exact Service.answer_settings _ _
  | ended => exact Service.conclude_settings

theorem Trace.settings_eq {o o' : List Task} {s s' : Service} {l : List Moment} (h : Trace o s l o' s') :
    s'.settings = s.settings := by
  induction h with
  | nil => rfl
  | cons hs _ ih => exact ih.trans hs.settings_eq

theorem Trace.issued_le {o o' : List Task} {s s' : Service} {l : List Moment} (h : Trace o s l o' s') :
    s.registry.issued ≤ s'.registry.issued := by
  induction h with
  | nil => exact Nat.le_refl _
  | cons hs _ ih => exact Nat.le_trans hs.issued_le ih

/-- The service keeps just the stamps of the builds on the stack, and they are out and ordered: the newest
    build has the greatest. -/
structure Sound (o : List Task) (s : Service) : Prop where
  inTime : s.InTime
  running : ∀ {b : Stamp}, b ∈ s.running ↔ ∃ x ∈ o, x.stamp = b
  issued : ∀ x ∈ o, x.stamp ≤ s.now
  newest : o.Pairwise fun x y => y.stamp < x.stamp

namespace Sound

variable {o : List Task} {s : Service} {b : Stamp}

theorem fresh (settings : Settings) : Sound [] (.fresh settings) where
  inTime := Nat.zero_lt_sub_of_lt (by decide : 1 < UInt64.size)
  running := by simp [Service.fresh]
  issued := nofun
  newest := .nil

theorem running_le (h : Sound o s) : ∀ b ∈ s.running, b ≤ s.now := by
  intro b hb
  obtain ⟨x, hx, rfl⟩ := h.running.mp hb
  exact h.issued x hx

end Sound

/-- A moment keeps the stack sound, as long as stamps are left. -/
theorem Step.sound {o o' : List Task} {m : Moment} (h : Step o m o') (hs : Sound o m.before)
    (hin : m.after.InTime) : Sound o' m.after := by
  have issued : ∀ x ∈ o, x.stamp ≤ m.after.now := fun x hx =>
    Std.le_trans (hs.issued x hx) (hin.now_le h.issued_le)
  cases h with
  | @began _ s file =>
    refine ⟨hin, fun {b} => ?_, List.forall_mem_cons.mpr ⟨Std.le_refl _, issued⟩,
      List.pairwise_cons.mpr ⟨fun x hx => hs.inTime.lt_upcoming_iff.mpr (hs.issued x hx), hs.newest⟩⟩
    rw [Service.mem_begin_running, hs.running, Service.begin_fst]
    simp only [List.mem_cons, exists_eq_or_imp, @eq_comm _ b]
  | @answered _ s request => exact ⟨hin, fun {b} => by rw [Service.answer_running, hs.running], issued, hs.newest⟩
  | @ended o s file stamp ending =>
    obtain ⟨hlt, hnewest⟩ := List.pairwise_cons.mp hs.newest
    refine ⟨hin, fun {b} => ?_, fun x hx => issued x (List.mem_cons_of_mem _ hx), hnewest⟩
    rw [Service.mem_conclude_running, hs.running]
    simp only [List.mem_cons, exists_eq_or_imp]
    constructor
    · rintro ⟨hne, h | h⟩
      · exact absurd h.symm hne
      · exact h
    · rintro ⟨x, hx, rfl⟩
      refine ⟨fun he => ?_, Or.inr ⟨x, hx, rfl⟩⟩
      exact Std.ne_of_lt (hlt x hx) he

namespace Trace

variable {o o' : List Task} {s s' : Service} {l : List Moment}

theorem sound (h : Trace o s l o' s') (hs : Sound o s) (hin : s'.InTime) : Sound o' s' := by
  induction h with
  | nil => exact hs
  | cons hstep h ih => exact ih (hstep.sound hs (hin.of_le h.issued_le)) hin

/-- A trace leads through sound stacks to each of its moments and on from there. -/
theorem sound_through {l₁ l₂ : List Moment} {m : Moment} (h : Trace o s (l₁ ++ m :: l₂) o' s') (hs : Sound o s)
    (hin : s'.InTime) :
    ∃ o₁ o₂, Trace o s l₁ o₁ m.before ∧ Sound o₁ m.before ∧ Step o₁ m o₂ ∧ Sound o₂ m.after ∧
      Trace o₂ m.after l₂ o' s' := by
  obtain ⟨o₁, o₂, h₁, hstep, h₂⟩ := h.through
  have hafter := hin.of_le h₂.issued_le
  have hsound := h₁.sound hs (hafter.of_le hstep.issued_le)
  exact ⟨o₁, o₂, h₁, hsound, hstep, hstep.sound hsound hafter, h₂⟩

/-- A build that runs at the end of a trace and was under way before it has run all the time. -/
theorem mem_of_mem {x : Task} (h : Trace o s l o' s') (hs : s'.InTime) (hx : x ∈ o') (hold : x.stamp ≤ s.now) :
    x ∈ o := by
  induction h with
  | nil => exact hx
  | @cons o o₁ o₂ m l s' hstep h ih =>
    have hin := hs.of_le h.issued_le
    have hle := hstep.issued_le
    have hmem := ih hs hx (Std.le_trans hold (hin.now_le hle))
    cases hstep with
    | @began _ s file =>
      rcases List.mem_cons.mp hmem with rfl | hmem
      · exact absurd ((hin.of_le hle).lt_upcoming_iff.mpr hold) Std.lt_irrefl
      · exact hmem
    | answered => exact hmem
    | ended => exact List.mem_cons_of_mem _ hmem

/-- A build that is under way at the end and was not at the start began in between. -/
theorem began_of_mem {x : Task} (h : Trace o s l o' s') (hx : x ∈ o') (hnew : x ∉ o) :
    ∃ l₁ u v l₂, l = l₁ ++ ⟨u, .began x.file x.stamp, v⟩ :: l₂ := by
  induction h with
  | nil => exact absurd hx hnew
  | @cons o o₁ o₂ m l s' hstep h ih =>
    by_cases hmem : x ∈ o₁
    · cases hstep with
      | @began _ s file =>
        obtain rfl := (List.mem_cons.mp hmem).resolve_right hnew
        exact ⟨[], s, s.begin.2, l, rfl⟩
      | answered => exact absurd hmem hnew
      | ended => exact absurd (List.mem_cons_of_mem _ hmem) hnew
    · obtain ⟨l₁, u, v, l₂, rfl⟩ := ih hx hmem
      exact ⟨m :: l₁, u, v, l₂, rfl⟩

end Trace

/-- Having a file indexed puts a build on the stack and takes it off again. -/
theorem Sound.index {o : List Task} {s : Service} {file : FileId} {build : Build α} (hs : Sound o s)
    (hin : (s.index file build).2.InTime) :
    Sound (⟨file, s.begin.1⟩ :: o) s.begin.2 ∧ Sound (⟨file, s.begin.1⟩ :: o) (build.run s.begin.2).2 ∧
      Sound o (s.index file build).2 := by
  have htrace := build.trace_log s.begin.2 (⟨file, s.begin.1⟩ :: o)
  have hended : (build.run s.begin.2).2.InTime := hin.of_le (Nat.le_of_eq Service.conclude_issued.symm)
  have hbegun : Sound (⟨file, s.begin.1⟩ :: o) s.begin.2 := Step.began.sound hs (hended.of_le htrace.issued_le)
  have hbuilt := htrace.sound hbegun hended
  exact ⟨hbegun, hbuilt, Step.ended.sound hbuilt hin⟩

end Concordance
