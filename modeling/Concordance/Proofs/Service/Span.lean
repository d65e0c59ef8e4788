import Concordance.Proofs.Service.Log

/-! Builds in a log. A build spans what happens between its beginning and its end; it is published, if at all,
    at its end. -/

namespace Concordance

/-- A build in a log, from its beginning to its end, with what happened in between. -/
structure Span (l : List Moment) where
  file : FileId
  stamp : Stamp
  ending : Ending
  attempt : Attempt
  /-- What happened before the build, while it ran and after it. -/
  earlier : List Moment
  meanwhile : List Moment
  later : List Moment
  /-- The service around the beginning. -/
  idle : Service
  begun : Service
  /-- The service around the end, where the build may publish. -/
  before : Service
  after : Service
  log : l = earlier ++ ⟨idle, .began file stamp, begun⟩ ::
    (meanwhile ++ ⟨before, .ended file stamp ending attempt, after⟩ :: later)

namespace Span

variable {o o' : List Task} {s s' : Service} {l : List Moment}

/-- What a trace says of a build in it: all along the build is on the stack, and at the end on top of it. -/
structure Through (b : Span l) (o o' : List Task) (s s' : Service) (o₁ o₂ : List Task) : Prop where
  earlier : Trace o s b.earlier o₁ b.idle
  begun : Sound (⟨b.file, b.stamp⟩ :: o₁) b.begun
  meanwhile : Trace (⟨b.file, b.stamp⟩ :: o₁) b.begun b.meanwhile (⟨b.file, b.stamp⟩ :: o₂) b.before
  before : Sound (⟨b.file, b.stamp⟩ :: o₂) b.before
  settings : b.before.settings = s.settings
  conclude : b.before.conclude b.file b.stamp b.ending = (b.attempt, b.after)
  after : Sound o₂ b.after
  later : Trace o₂ b.after b.later o' s'

theorem through (b : Span l) (h : Trace o s l o' s') (hs : Sound o s) (hin : s'.InTime) :
    ∃ o₁ o₂, b.Through o o' s s' o₁ o₂ := by
  obtain ⟨file, stamp, ending, attempt, earlier, meanwhile, later, idle, begun, before, after, rfl⟩ := b
  obtain ⟨o₁, _, hearlier, -, hbegan, hbegun, h⟩ := h.sound_through hs hin
  cases hbegan with
  | began =>
    obtain ⟨_, o₂, hmeanwhile, hbefore, hended, hafter, hlater⟩ := h.sound_through hbegun hin
    have hsettings := hmeanwhile.settings_eq.trans hearlier.settings_eq
    cases hended with
    | ended => exact ⟨o₁, o₂, hearlier, hbegun, hmeanwhile, hbefore, hsettings, rfl, hafter, hlater⟩

end Span

/-- What ends in a trace, and was not under way before it, spans some of it. -/
theorem Trace.exists_span {o o' : List Task} {s s' u v : Service} {l l' : List Moment} {x : Task} {ending : Ending}
    {attempt : Attempt} (h : Trace o s (l ++ ⟨u, .ended x.file x.stamp ending attempt, v⟩ :: l') o' s')
    (hnew : x ∉ o) : ∃ b : Span (l ++ ⟨u, .ended x.file x.stamp ending attempt, v⟩ :: l'),
      b.file = x.file ∧ b.stamp = x.stamp ∧ b.ending = ending ∧ b.attempt = attempt := by
  obtain ⟨o₁, _, hl, hended, -⟩ := h.through
  have hx : x ∈ o₁ := (hended.ended_eq rfl).1 ▸ List.mem_cons_self
  obtain ⟨l₁, idle, begun, l₂, rfl⟩ := hl.began_of_mem hx hnew
  exact ⟨⟨_, _, _, _, l₁, l₂, l', idle, begun, u, v, List.append_assoc _ _ _⟩, rfl, rfl, rfl, rfl⟩

end Concordance
