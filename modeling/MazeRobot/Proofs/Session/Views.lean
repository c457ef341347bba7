import MazeRobot.Proofs.Session.Journal
import MazeRobot.Proofs.Session.Moves
import MazeRobot.Proofs.Session.Synchrony

/-!
# What the listener knows

A session is up to date (`Session.UpToDate`) if the view shown last agrees with the present
one.  While somebody listens without reacting (`Session.Attended`), whatever a move changes in
the view is shown at once (`Session.Announces`, `announces_of_moves`).  Edits that do not go
through the session change its view as well, and they show nothing: the session stays up to
date only if commands and pending loop are as before (`upToDate_onIngestion_iff`).
-/

namespace MazeRobot

/-- Two views show the same but for the notice, which comes and goes with time. -/
structure View.Agrees (v w : View) : Prop where
  mazeId : v.mazeId = w.mazeId
  execution : v.execution = w.execution
  commands : v.commands = w.commands
  pending : v.pending = w.pending

theorem View.Agrees.symm {v w : View} (h : v.Agrees w) : w.Agrees v :=
  ⟨h.mazeId.symm, h.execution.symm, h.commands.symm, h.pending.symm⟩

theorem View.Agrees.trans {u v w : View} (h : u.Agrees v) (h' : v.Agrees w) : u.Agrees w :=
  ⟨h.mazeId.trans h'.mazeId, h.execution.trans h'.execution, h.commands.trans h'.commands,
    h.pending.trans h'.pending⟩

namespace Session

/-- A maze has been loaded, and somebody listens without reacting. -/
structure Attended (s : Session) : Prop where
  listening : s.listening = true
  script : s.script = []
  loaded : s.executor.isSome = true
  inStep : s.InStep

/-- What was shown last is what there is to see. -/
def UpToDate (s : Session) : Prop :=
  ∃ v w, s.views.getLast? = some v ∧ s.view = .ok w ∧ v.Agrees w

/-- Nothing has changed that a view shows or that decides who sees it, and nothing was
shown. -/
structure Unseen (s s' : Session) : Prop where
  executor : s'.executor = s.executor
  maze : s'.maze? = s.maze?
  ingestion : s'.ingestion = s.ingestion
  listening : s'.listening = s.listening
  script : s'.script = s.script
  views : s'.views = s.views

/-- Whatever has changed in the view was shown. -/
structure Announces (s s' : Session) : Prop where
  attended : s'.Attended
  shown : s'.UpToDate ∨ s.Unseen s'

variable {s s' s'' : Session} {e e' : Executor}

/-- What would be shown of a run. -/
theorem view_of_executor (hs : s.executor = some e) : s.view = .ok (s.viewOf e) := by
  unfold view requireExecutor
  rw [hs]
  rfl

/-- Something is shown only if there is a run. -/
theorem exists_executor_of_view {w : View} (h : s.view = .ok w) :
    ∃ e, s.executor = some e ∧ w = s.viewOf e := by
  cases hs : s.executor with
  | none =>
    unfold view requireExecutor at h
    rw [hs] at h
    exact nomatch h
  | some e => exact ⟨e, rfl, Except.ok.inj (h.symm.trans (view_of_executor hs))⟩

/-! ## Changes that are not seen -/

theorem Unseen.refl (s : Session) : s.Unseen s := ⟨rfl, rfl, rfl, rfl, rfl, rfl⟩

theorem Unseen.trans (h : s.Unseen s') (h' : s'.Unseen s'') : s.Unseen s'' where
  executor := h'.executor.trans h.executor
  maze := h'.maze.trans h.maze
  ingestion := h'.ingestion.trans h.ingestion
  listening := h'.listening.trans h.listening
  script := h'.script.trans h.script
  views := h'.views.trans h.views

/-- Log lines cannot be seen. -/
theorem unseen_of_wrote (h : s.Wrote [] s') : s.Unseen s' := by
  have hviews := h.views_eq
  rw [List.append_nil] at hviews
  obtain ⟨events, -, rfl⟩ := h
  exact ⟨rfl, rfl, rfl, rfl, rfl, hviews⟩

/-- Cancelling the background run cannot be seen. -/
theorem unseen_cancelBackground (s : Session) : s.Unseen s.cancelBackground := by
  unfold cancelBackground
  split
  · exact .refl s
  · exact ⟨rfl, rfl, rfl, rfl, rfl, rfl⟩

/-- What cannot be seen keeps the listener attending. -/
theorem Attended.of_unseen (h : s.Attended) (hs : s.Unseen s') : s'.Attended where
  listening := hs.listening.trans h.listening
  script := hs.script.trans h.script
  loaded := by
    rw [hs.executor]
    exact h.loaded
  inStep := by
    obtain ⟨hquiet, hsynced, htrace, hmaze⟩ := h.inStep
    refine ⟨?_, ?_, ?_, ?_⟩
    · rwa [hs.ingestion]
    · rwa [hs.ingestion]
    · rwa [hs.ingestion, hs.executor]
    · rwa [hs.maze, hs.executor]

/-- The time may be another, so the view need not be the same. -/
theorem Unseen.view {w : View} (h : s.Unseen s') (hview : s.view = .ok w) :
    ∃ w', s'.view = .ok w' ∧ w.Agrees w' := by
  obtain ⟨e, hs, rfl⟩ := exists_executor_of_view hview
  refine ⟨s'.viewOf e, view_of_executor (h.executor.trans hs), rfl, rfl, ?_, ?_⟩
  · show _ = s'.ingestion.program.commands
    rw [h.ingestion]
    rfl
  · show _ = s'.ingestion.mode.pending?
    rw [h.ingestion]
    rfl

/-- The last view stays up to date when nothing that can be seen happens. -/
theorem UpToDate.of_unseen (h : s.UpToDate) (hs : s.Unseen s') : s'.UpToDate := by
  obtain ⟨v, w, hlast, hview, hagrees⟩ := h
  obtain ⟨w', hview', hagrees'⟩ := hs.view hview
  exact ⟨v, w', by rw [hs.views, hlast], hview', hagrees.trans hagrees'⟩

/-- What cannot be seen need not be announced. -/
theorem Announces.of_unseen (h : s.Attended) (hs : s.Unseen s') : s.Announces s' :=
  ⟨h.of_unseen hs, .inr hs⟩

theorem Announces.refl (h : s.Attended) : s.Announces s := .of_unseen h (.refl s)

theorem Announces.trans (h : s.Announces s') (h' : s'.Announces s'') : s.Announces s'' := by
  refine ⟨h'.attended, ?_⟩
  obtain hup' | hunseen' := h'.shown
  · exact .inl hup'
  · exact h.shown.imp (fun hup => hup.of_unseen hunseen') fun hunseen => hunseen.trans hunseen'

/-! ## Changes that are shown -/

/-- The run is taken over by an executor on the same trace and the same maze. -/
theorem Attended.executor (h : s.Attended) (hs : s.executor = some e)
    (htrace : e'.trace = e.trace) (hmaze : e'.maze = e.maze) :
    { s with executor := some e' }.Attended where
  listening := h.listening
  script := h.script
  loaded := rfl
  inStep := by
    refine ⟨h.inStep.quiet, h.inStep.synced, fun e₁ he₁ => ?_, ?_⟩
    · obtain rfl := Option.mem_some_iff.mp he₁
      exact htrace.trans (h.inStep.trace e hs)
    · rw [Option.map_some, hmaze, h.inStep.maze, hs, Option.map_some]

/-- A notification brings the listener up to date. -/
theorem upToDate_notify (h : s.Attended) (hwrote : s.Wrote [] s') :
    s'.notify.1.Attended ∧ s'.notify.1.UpToDate := by
  have h' := h.of_unseen (unseen_of_wrote hwrote)
  obtain ⟨e, hs⟩ := Option.isSome_iff_exists.mp h'.loaded
  have hshown := wrote_notify_view h'.script h'.listening hs
  have hviews := hshown.views_eq
  obtain ⟨events, -, heq⟩ := hshown
  rw [heq] at hviews ⊢
  refine ⟨⟨h'.listening, h'.script, h'.loaded, ?_⟩, s'.viewOf e, s'.viewOf e, ?_, ?_, ?_⟩
  · exact ⟨h'.inStep.quiet, h'.inStep.synced, h'.inStep.trace, h'.inStep.maze⟩
  · rw [hviews, List.getLast?_concat]
  · exact view_of_executor hs
  · exact ⟨rfl, rfl, rfl, rfl⟩

/-- It does not matter how much has changed before. -/
theorem Announces.of_notify (h : s'.Attended) (hwrote : s'.Wrote [] s'') :
    s.Announces s''.notify.1 :=
  have hnotify := upToDate_notify h hwrote
  ⟨hnotify.1, .inl hnotify.2⟩

/-! ## One move -/

/-- A start is announced. -/
theorem announces_startThen (h : s.Attended) (hs : s.executor = some e) :
    s.Announces (s.startThen notify e).1 := by
  unfold startThen
  by_cases hexec : e.isExecuting = true
  · rw [Executor.start_of_executing hexec]
    exact .refl h
  · rw [Executor.start_of_not_executing hexec]
    have hbegun : { s with executor := some (e.rewind (.running 0 false)) }.Attended :=
      h.executor hs rfl rfl
    exact .of_notify hbegun (wrote_log _ _ _ _)

/-- A pause is announced. -/
theorem announces_pauseThen (h : s.Attended) (hs : s.executor = some e) :
    s.Announces (s.pauseThen notify e).1 := by
  unfold pauseThen
  by_cases hexec : e.isExecuting = true
  · obtain ⟨cursor, due⟩ := Executor.isExecuting_iff.mp hexec
    rw [Executor.pause_of_running due]
    have hpaused : { s with executor := some { e with
        phase := .running cursor true, generation := e.generation + 1 } }.Attended :=
      h.executor hs rfl rfl
    exact .of_notify (hpaused.of_unseen (unseen_cancelBackground _)) (wrote_log _ _ _ _)
  · -- nobody is told that the task in the background is cancelled
    rw [Executor.pause_of_not_executing hexec]
    exact .of_unseen h (unseen_cancelBackground s)

/-- A reset is announced. -/
theorem announces_resetThen (h : s.Attended) (hs : s.executor = some e) :
    s.Announces (s.resetThen notify e).1 := by
  have hreset : { s with executor := some e.reset }.Attended := h.executor hs rfl rfl
  exact .of_notify (hreset.of_unseen (unseen_cancelBackground _)) (wrote_log _ _ _ _)

/-- A background run is announced. -/
theorem announces_playThen (h : s.Attended) (hs : s.executor = some e) :
    s.Announces (s.playThen notify e).1 := by
  have hcancel := unseen_cancelBackground s
  have hstart := (Announces.of_unseen h hcancel).trans
    (announces_startThen (h.of_unseen hcancel) (hcancel.executor.trans hs))
  unfold playThen
  generalize s.cancelBackground.startThen notify e = answer at hstart ⊢
  obtain ⟨s', f | started⟩ := answer
  · exact hstart
  · -- the task of the background run is not seen before it has its turn
    exact hstart.trans (.of_unseen hstart.attended ⟨rfl, rfl, rfl, rfl, rfl, rfl⟩)

/-- Every deed is announced. -/
theorem announces_doThen (h : s.Attended) (d : Deed) : s.Announces (s.doThen notify d).1 := by
  unfold doThen
  cases hs : s.executor with
  | none => exact .refl h
  | some e =>
    cases d with
    | start => exact announces_startThen h hs
    | pause => exact announces_pauseThen h hs
    | toggle =>
      simp only [toggleThen]
      split
      · exact announces_pauseThen h hs
      · exact announces_startThen h hs
    | reset => exact announces_resetThen h hs
    | play => exact announces_playThen h hs

/-- Whoever listens is shown a maze that is loaded, also the first one. -/
theorem upToDate_install (hlisten : s.listening = true) (hscript : s.script = [])
    (h : s.InStep) (m : Maze) : (s.install m).1.Attended ∧ (s.install m).1.UpToDate := by
  obtain ⟨hquiet, hsynced, -, -⟩ := (leads_cancelBackground s).inStep h
  have hcancel := unseen_cancelBackground s
  -- the new executor is made from the trace of the program, so the session is in step again
  have hloaded : { s.cancelBackground with
      maze? := some m
      executor := some (Executor.create m s.cancelBackground.ingestion.program.trace
        (some m.startPose))
      loads := s.cancelBackground.loads + 1 }.Attended := by
    refine ⟨hcancel.listening.trans hlisten, hcancel.script.trans hscript, rfl, ?_⟩
    refine ⟨hquiet, hsynced, fun e he => ?_, rfl⟩
    obtain rfl := Option.mem_some_iff.mp he
    rfl
  exact upToDate_notify hloaded (wrote_log _ _ _ _)

/-- The installation of a maze is announced. -/
theorem announces_install (h : s.Attended) (m : Maze) : s.Announces (s.install m).1 :=
  have hinstall := upToDate_install h.listening h.script h.inStep m
  ⟨hinstall.1, .inl hinstall.2⟩

/-- Edits of the program leave the listener attending. -/
theorem Attended.onIngestion {α : Type} (h : s.Attended) {edited : Ingestion × Except Failure α}
    (hedited : s.ingestion.program.Edited edited.1.program) :
    (s.onIngestion edited).1.Attended where
  listening := h.listening
  script := h.script
  loaded := (leads_onIngestion s hedited).present (.inl h.loaded)
  inStep := h.inStep.onIngestion hedited

/-- A detection is announced. -/
theorem announces_detect (h : s.Attended) (c : Command) : s.Announces (s.detect c).1 := by
  unfold detect detectThen
  cases hexec : s.isExecuting with
  | true =>
    -- while a run goes on the card is dropped, and the old trace is written back
    have hrefused : s.onIngestion (s.ingestion.submit true s.now c) = (s, .ok false) := by
      show ({ s with executor := if _ = _ then s.executor else _ }, _) = _
      rw [if_pos rfl]
    rw [hrefused]
    exact .refl h
  | false =>
    have hedited := s.ingestion.edited_submit false s.now c
    have htold := Ingestion.submit_of_quiet h.inStep.quiet s.now c
    generalize s.ingestion.submit false s.now c = answer at hedited htold
    obtain ⟨ingestion, told⟩ := answer
    obtain rfl : told = .ok true := htold
    exact .of_notify (h.onIngestion hedited) (wrote_log _ _ _ _)

/-- The end of a tick is announced, unless nothing came of it. -/
theorem announces_resolve (h : s.Attended) (t : Ticket) : s.Announces (s.resolve t).1 := by
  unfold resolve
  obtain heq | ⟨e, e', r, hs, hsteps, heq⟩ := resolveThen_cases notify s t
  · rw [heq]
    exact .refl h
  · rw [heq]
    exact .of_notify (h.executor hs hsteps.trace_eq hsteps.maze_eq) (wrote_logStep _ _ _)

/-! ## Turns -/

/-- What a task puts back into the queue cannot be seen. -/
theorem unseen_goOn (s : Session) (t : Task) : s.Unseen (s.goOn t) := by
  unfold goOn
  split
  · exact ⟨rfl, rfl, rfl, rfl, rfl, rfl⟩
  · split <;> exact ⟨rfl, rfl, rfl, rfl, rfl, rfl⟩

/-- A task may go on after what is announced. -/
theorem Announces.goOn (h : s.Announces s') (t : Task) : s.Announces (s'.goOn t) :=
  h.trans (.of_unseen h.attended (unseen_goOn s' t))

/-- A task may end after what is announced. -/
theorem Announces.finish (h : s.Announces s') (t : Task) (ending : Ending) :
    s.Announces (s'.finish t ending) :=
  h.trans (.of_unseen h.attended ⟨rfl, rfl, rfl, rfl, rfl, rfl⟩)

/-- To start a run where none executes is announced. -/
theorem announces_ensureStarted (h : s.Attended) : s.Announces s.ensureStarted := by
  unfold ensureStarted beginRun
  split
  · exact .refl h
  · have hstart := announces_doThen h .start
    rwa [← act_eq_doThen] at hstart

/-- The turn of a task is announced. -/
theorem announces_turn (h : s.Attended) (t : Task) : s.Announces (s.turn t) := by
  have hturns := turns_turn s t
  generalize s.turn t = s' at hturns ⊢
  cases hturns with
  | ends ending => exact (Announces.refl h).finish t ending
  | waits ticket => exact .of_unseen h ⟨rfl, rfl, rfl, rfl, rfl, rfl⟩
  | begins => exact (announces_ensureStarted h).goOn t
  | stumbles ending => exact (announces_ensureStarted h).finish t ending
  | resolves ticket ending => exact (announces_resolve h ticket).finish t ending
  | goesOn ticket => exact (announces_resolve h ticket).goOn t

/-- What a move changes in the view of a session is shown at once. -/
theorem announces_of_moves (h : s.Attended) (hmove : s.Moves s') : s.Announces s' := by
  cases hmove with
  | deed d => exact announces_doThen h d
  | detect c => exact announces_detect h c
  | install m => exact announces_install h m
  | note line => exact .of_unseen h (unseen_of_wrote (wrote_record s (.logged line)))
  | resolve ticket => exact announces_resolve h ticket
  | wake k =>
    unfold wake
    split
    · exact .refl h
    · -- taking a task off the queue is not seen
      have hunseen : s.Unseen { s with queue := s.queue.eraseIdx k } :=
        ⟨rfl, rfl, rfl, rfl, rfl, rfl⟩
      exact (Announces.of_unseen h hunseen).trans (announces_turn (h.of_unseen hunseen) _)
  | beginTick => exact .of_unseen h ⟨rfl, rfl, rfl, rfl, rfl, rfl⟩
  | clock now => exact .of_unseen h ⟨rfl, rfl, rfl, rfl, rfl, rfl⟩

/-- Every operation other than an edit is announced. -/
theorem announces_perform (h : s.Attended) {op : Operation} (hop : ∀ e, op ≠ .edit e) :
    s.Announces (s.perform op) := by
  have hmoves := moves_perform s hop
  generalize s.perform op = s' at hmoves ⊢
  induction hmoves with
  | refl => exact .refl h
  | tail _ hmove ih => exact ih.trans (announces_of_moves ih.attended hmove)

/-- Without edits there is nothing that the listener does not know. -/
theorem upToDate_performAll (h : s.Attended) (hup : s.UpToDate) {ops : List Operation}
    (hops : ∀ e, .edit e ∉ ops) : (s.performAll ops).UpToDate := by
  induction ops generalizing s with
  | nil => exact hup
  | cons op rest ih =>
    have hfirst : ∀ e, op ≠ .edit e := by
      rintro e rfl
      exact hops e List.mem_cons_self
    obtain ⟨hattended, hshown⟩ := announces_perform h hfirst
    refine ih hattended ?_ fun e he => hops e (List.mem_cons_of_mem op he)
    exact hshown.elim id hup.of_unseen

/-! ## Edits -/

/-- Every operation leaves the listener attending. -/
theorem attended_perform (h : s.Attended) (op : Operation) : (s.perform op).Attended := by
  obtain ⟨e, rfl⟩ | hop := op.edit_or_not
  · exact h.onIngestion (e.edited_apply _)
  · exact (announces_perform h hop).attended

/-- Operations in order leave the listener attending. -/
theorem attended_performAll (h : s.Attended) (ops : List Operation) :
    (s.performAll ops).Attended := by
  induction ops generalizing s with
  | nil => exact h
  | cons op rest ih => exact ih (attended_perform h op)

/-- The run keeps all but its trace. -/
theorem executor_onIngestion {α : Type} (hs : s.executor = some e)
    (edited : Ingestion × Except Failure α) :
    ∃ trace, (s.onIngestion edited).1.executor = some (e.setTrace trace) := by
  unfold onIngestion
  dsimp only
  split
  · -- the trace it has is as good as any
    exact ⟨e.trace, hs⟩
  · rw [hs]
    exact ⟨_, rfl⟩

/-- An edit shows nothing, so it must not change what there is to see. -/
theorem upToDate_onIngestion_iff {α : Type} (h : s.Attended) (hup : s.UpToDate)
    {edited : Ingestion × Except Failure α}
    (hedited : s.ingestion.program.Edited edited.1.program) :
    (s.onIngestion edited).1.UpToDate ↔
      edited.1.program.commands = s.ingestion.program.commands ∧
        edited.1.mode.pending? = s.ingestion.mode.pending? := by
  have h' := h.onIngestion hedited
  obtain ⟨v, w, hlast, hview, hagrees⟩ := hup
  obtain ⟨e, hs, rfl⟩ := exists_executor_of_view hview
  obtain ⟨trace, hs'⟩ := executor_onIngestion hs edited
  have hlast' : (s.onIngestion edited).1.views.getLast? = some v := hlast
  have hview' := view_of_executor hs'
  constructor
  · rintro ⟨v', w', hv', hw', hagrees'⟩
    obtain rfl : v = v' := Option.some.inj (hlast'.symm.trans hv')
    obtain rfl := Except.ok.inj (hview'.symm.trans hw')
    have hboth := hagrees'.symm.trans hagrees
    exact ⟨hboth.commands, hboth.pending⟩
  · rintro ⟨hcommands, hpending⟩
    -- the same commands have the same trace, and the run goes by it
    have htrace : trace = e.trace := by
      calc trace = edited.1.program.trace := h'.inStep.trace _ hs'
        _ = Command.unrollAll edited.1.program.commands := h'.inStep.synced
        _ = s.ingestion.program.trace := by rw [hcommands, h.inStep.synced]
        _ = e.trace := (h.inStep.trace e hs).symm
    subst htrace
    refine ⟨v, _, hlast', hview', hagrees.trans ⟨rfl, rfl, hcommands.symm, hpending.symm⟩⟩

/-- What was shown last is the present run, but for its trace. -/
def Followed (s : Session) : Prop :=
  ∃ v w, s.views.getLast? = some v ∧ s.view = .ok w ∧ v.mazeId = w.mazeId ∧
    { v.execution with trace := w.execution.trace } = w.execution

/-- A view that is up to date is one that was followed by edits only. -/
theorem UpToDate.followed (h : s.UpToDate) : s.Followed := by
  obtain ⟨v, w, hlast, hview, hagrees⟩ := h
  refine ⟨v, w, hlast, hview, hagrees.mazeId, ?_⟩
  rw [hagrees.execution]

/-- What cannot be seen may follow the last view. -/
theorem Followed.of_unseen (h : s.Followed) (hs : s.Unseen s') : s'.Followed := by
  obtain ⟨v, w, hlast, hview, hmaze, hrun⟩ := h
  obtain ⟨w', hview', hagrees⟩ := hs.view hview
  refine ⟨v, w', by rw [hs.views, hlast], hview', hmaze.trans hagrees.mazeId, ?_⟩
  rw [← hagrees.execution]
  exact hrun

/-- An edit may follow the last view. -/
theorem Followed.onIngestion {α : Type} (h : s.Followed) (edited : Ingestion × Except Failure α) :
    (s.onIngestion edited).1.Followed := by
  obtain ⟨v, w, hlast, hview, hmaze, hrun⟩ := h
  obtain ⟨e, hs, rfl⟩ := exists_executor_of_view hview
  obtain ⟨trace, hs'⟩ := executor_onIngestion hs edited
  refine ⟨v, _, hlast, view_of_executor hs', hmaze, ?_⟩
  exact congrArg (fun run : Snapshot => { run with trace }) hrun

/-- After any operations the last view was followed by nothing that can be seen but edits. -/
theorem followed_performAll (h : s.Attended) (hs : s.Followed) (ops : List Operation) :
    (s.performAll ops).Followed := by
  induction ops generalizing s with
  | nil => exact hs
  | cons op rest ih =>
    refine ih (attended_perform h op) ?_
    obtain ⟨e, rfl⟩ | hop := op.edit_or_not
    · exact hs.onIngestion _
    · exact (announces_perform h hop).shown.elim UpToDate.followed hs.of_unseen

end Session

end MazeRobot
