import MazeRobot.Proofs.Session.Ticket
import MazeRobot.Session.Tasks

/-!
# Writing into the journal

Logging, and showing a listener the present state, only add to the journal of a session.
`Session.Wrote s shown s'` says so, and which views were shown on the way: none by a log line,
and by a notification the present view, if there is a run and somebody who listens without
reacting (`wrote_notify_view`).
-/

namespace MazeRobot

/-- What an entry of the journal has shown to the listener. -/
def Event.view? : Event → Option View
  | .viewed v => some v
  | .logged _ => none

namespace Session

/-- Everything that was shown to the listener, in order. -/
def views (s : Session) : List View := s.journal.filterMap Event.view?

/-- Nothing has changed but that more is in the journal; `shown` is what it shows. -/
def Wrote (s : Session) (shown : List View) (s' : Session) : Prop :=
  ∃ events, events.filterMap Event.view? = shown ∧ s' = { s with journal := s.journal ++ events }

variable {s s' s'' : Session} {e : Executor} {vs ws : List View}

/-- What was written is seen. -/
theorem Wrote.views_eq (h : s.Wrote vs s') : s'.views = s.views ++ vs := by
  obtain ⟨events, rfl, rfl⟩ := h
  exact List.filterMap_append

theorem Wrote.refl (s : Session) : s.Wrote [] s := ⟨[], rfl, by rw [List.append_nil]⟩

theorem Wrote.trans (h : s.Wrote vs s') (h' : s'.Wrote ws s'') : s.Wrote (vs ++ ws) s'' := by
  obtain ⟨events, rfl, rfl⟩ := h
  obtain ⟨events', rfl, rfl⟩ := h'
  exact ⟨events ++ events', List.filterMap_append, by rw [List.append_assoc]⟩

/-- An event that is recorded is seen if it is a view. -/
theorem wrote_record (s : Session) (event : Event) :
    s.Wrote event.view?.toList (s.record event) := by
  refine ⟨[event], ?_, rfl⟩
  cases event <;> rfl

/-- No log line is a view. -/
theorem wrote_log (s : Session) (kind : LogKind) (text : String) (indent : Nat) :
    s.Wrote [] (s.log kind text indent) := by
  unfold log
  split
  · exact wrote_record s (.logged _)
  · exact .refl s

/-- The line of a step is no view. -/
theorem wrote_logStep (s : Session) (e : Executor) (r : StepResult) :
    s.Wrote [] (s.logStep e r) := by
  unfold logStep
  dsimp only
  -- a finished run has a second line
  split
  · exact (wrote_log _ _ _ _).trans (wrote_log _ _ _ _)
  · exact (wrote_log _ _ _ _).trans (wrote_log _ _ _ _)
  · exact wrote_log _ _ _ _

/-- Without reactions, a listener is shown the present state and that is all. -/
theorem notify_of_script_nil (hscript : s.script = []) (hlisten : s.listening = true)
    (hs : s.executor = some e) : s.notify = (s.record (.viewed (s.viewOf e)), .ok ()) := by
  unfold notify notifyUpTo
  rw [hscript, hs]
  exact if_pos hlisten

/-- All that this writes is the present view. -/
theorem wrote_notify_view (hscript : s.script = []) (hlisten : s.listening = true)
    (hs : s.executor = some e) : s.Wrote [s.viewOf e] s.notify.1 := by
  rw [notify_of_script_nil hscript hlisten hs]
  exact wrote_record s (.viewed _)

/-- Without reactions nothing fails, and at most a view is written, whoever listens. -/
theorem wrote_notify (hscript : s.script = []) :
    (∃ vs, s.Wrote vs s.notify.1) ∧ s.notify.2 = .ok () := by
  by_cases hlisten : s.listening = true
  · cases hs : s.executor with
    | none =>
      unfold notify notifyUpTo
      rw [hs]
      exact ⟨⟨[], .refl s⟩, rfl⟩
    | some e =>
      refine ⟨⟨_, wrote_notify_view hscript hlisten hs⟩, ?_⟩
      rw [notify_of_script_nil hscript hlisten hs]
  · rw [notify_of_not_listening hlisten]
    exact ⟨⟨[], .refl s⟩, rfl⟩

end Session

end MazeRobot
