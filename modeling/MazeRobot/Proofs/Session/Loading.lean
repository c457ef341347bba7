import MazeRobot.Proofs.Session.Dependable
import MazeRobot.Proofs.Session.Growth
import MazeRobot.Proofs.Session.Past

/-!
# What a load leaves behind

A load waits for the storage, and it may wait for long.  Whatever else happens meanwhile is not
held up: actions, edits, ticks, the turns of tasks, other loads (`Meanwhile`).  The load itself
only announces further attempts.  Then there is no maze to be had, or it installs the one that it
has found and tells the listener (`Session.loadAmid`).

* If there is no maze, there is nothing left of the load but its announcements: all else is as it
  would be without it.
* If there is one, there is a fresh run on it, with the program as it is by then, and the run
  from before is over (`Session.Over`).  Its ticks do nothing, its background task has one more
  turn at most, in which it ends, and other tasks that were ticking for it end as well, unless
  somebody has started the new run by the time that they have their turn.

All this is `load_atomic`.  Two things stand in the way of saying that a load is all or nothing.
The listener is told when the maze is installed, so if it fails the load fails with everything in
its new state; with a listener that does not (`Session.Dependable`) a load that fails has changed
nothing.  And a task that has gone astray (`Session.strays`) cannot be cancelled by a load, and
drives the new run as soon as that is started; without such tasks no task from before drives
anything any more.  Neither can be left out (`load_undone_trench`).
-/

namespace MazeRobot

/-- What happens while a load waits for the storage. -/
inductive Meanwhile where
  /-- Somebody else is served. -/
  | served (op : Operation)
  /-- A tick ends that noted its ticket some time before. -/
  | tickEnds (ticket : Ticket)
  /-- The load announces that it tries again. -/
  | announced (line : LogEntry)

namespace Meanwhile

/-- The line of an announcement. -/
def line? : Meanwhile → Option LogEntry
  | announced line => some line
  | _ => none

/-- It is not the load's own doing. -/
def isForeign (m : Meanwhile) : Bool := m.line?.isNone

end Meanwhile

namespace Session

/-- One of these things happens. -/
def await (s : Session) : Meanwhile → Session
  | .served op => s.perform op
  | .tickEnds ticket => (s.resolve ticket).1
  | .announced line => s.record (.logged line)

/-- They happen in order. -/
def awaitAll (s : Session) (during : List Meanwhile) : Session := during.foldl await s

/-- A load that waits while other things happen. -/
def loadAmid (s : Session) (during : List Meanwhile) (result : Except Failure Maze) :
    Session × Except Failure Maze :=
  (s.awaitAll during).finishLoad result

/-- Sessions that differ in what was logged, and in nothing else. -/
structure SameButLines (s s' : Session) : Prop where
  rest : s' = { s with journal := s'.journal }
  views : s'.views = s.views

/-- A maze has been installed in `s`, and nobody has been told yet. -/
structure Installed (s : Session) (m : Maze) (s' : Session) : Prop where
  maze : s'.maze? = some m
  executor : ∃ e, s'.executor = some e ∧ e.maze = m ∧ e.snapshot =
    { status := .idle
      paused := false
      cursor := -1
      trace := s.ingestion.program.trace
      robot := ⟨m.grid.startCell.x, m.grid.startCell.y, .east⟩
      grid := m.grid
      moves := 0
      message := ""
      reason := none
      generation := 0 }
  ingestion : s'.ingestion = s.ingestion
  background : s'.background = none
  queue : s'.queue = s.cancelBackground.queue
  loads : s'.loads = s.loads + 1
  script : s'.script = s.script

/-- The listener is not waiting for what it would see now. -/
def Calm (s : Session) : Prop :=
  ∀ e r rest, s.executor = some e → s.script = r :: rest → r.due (s.viewOf e) = false

/-- The run of `s` cannot change anything any more.  A ticket names the load under which it was
noted, and loads are counted up: a ticket from before names `s.loads` at most. -/
structure Over (s now : Session) : Prop where
  /-- Ticks from before do nothing. -/
  ticks : ∀ ticket : Ticket, ticket.load ≤ s.loads → now.resolve ticket = (now, .ok none)
  /-- All that the background task still does is to end. -/
  background : ∀ k t, now.queue[k]? = some t → s.background = some t.id →
    now.wake k = Session.finish { now with queue := now.queue.eraseIdx k } t .cancelled
  /-- A task that waits for a tick from before ends too, or turns to a run that was started
  since. -/
  waiting : ∀ k t ticket, now.queue[k]? = some t → t.stage = .waiting ticket →
    ticket.load ≤ s.loads →
    (∃ ending, now.wake k = Session.finish { now with queue := now.queue.eraseIdx k } t ending) ∨
      (now.isExecuting = true ∧
        ∃ new, now.wake k = Session.requeue { now with queue := now.queue.eraseIdx k } t new)

variable {s s' s'' : Session} {t : Task} {ticket : Ticket}

/-! ## Without the load -/

theorem SameButLines.refl (s : Session) : s.SameButLines s := ⟨rfl, rfl⟩

theorem SameButLines.trans (h : s.SameButLines s') (h' : s'.SameButLines s'') :
    s.SameButLines s'' := by
  refine ⟨?_, h'.views.trans h.views⟩
  rw [h'.rest, h.rest]

/-- A line that is logged is no more than that. -/
theorem sameButLines_line (s : Session) (line : LogEntry) :
    s.SameButLines (s.record (.logged line)) := by
  refine ⟨rfl, ?_⟩
  rw [(wrote_record s (.logged line)).views_eq]
  exact List.append_nil _

/-- What happens to two sessions that differ in what was logged is the same. -/
theorem SameButLines.map (h : s.SameButLines s') (f : Session → Session)
    (hf : ∀ past s, f (after s past) = (f s).after past) : (f s).SameButLines (f s') := by
  -- both were the same session before anything was written
  let blank : Session := { s with journal := [] }
  have hs : s = blank.after s.journal := by
    show s = { s with journal := s.journal ++ [] }
    rw [List.append_nil]
  have hs' : s' = blank.after s'.journal := by
    show s' = { s with journal := s'.journal ++ [] }
    rw [List.append_nil]
    exact h.rest
  have hviews : s'.journal.filterMap Event.view? = s.journal.filterMap Event.view? := h.views
  have hfs : f s = (f blank).after s.journal := (congrArg f hs).trans (hf _ _)
  have hfs' : f s' = (f blank).after s'.journal := (congrArg f hs').trans (hf _ _)
  rw [hfs, hfs']
  refine ⟨rfl, ?_⟩
  show List.filterMap _ (_ ++ _) = List.filterMap _ (_ ++ _)
  rw [List.filterMap_append, List.filterMap_append, hviews]

/-- What happens while a load waits does not depend on the past. -/
theorem await_after (past : List Event) (s : Session) (m : Meanwhile) :
    (s.after past).await m = (s.await m).after past := by
  cases m with
  | served op => exact perform_after s op
  | tickEnds ticket => exact congrArg Prod.fst (resolve_after s ticket)
  | announced line => exact record_after s _

/-- The announcements of a load leave no traces elsewhere. -/
theorem sameButLines_awaitAll (h : s.SameButLines s') (during : List Meanwhile) :
    (s.awaitAll (during.filter Meanwhile.isForeign)).SameButLines (s'.awaitAll during) := by
  induction during generalizing s s' with
  | nil => exact h
  | cons m rest ih =>
    -- what is foreign happens on both sides, an announcement on one
    cases m with
    | served op => exact ih (h.map (await · (.served op)) fun past s => await_after past s _)
    | tickEnds ticket =>
      exact ih (h.map (await · (.tickEnds ticket)) fun past s => await_after past s _)
    | announced line => exact ih (h.trans (sameButLines_line s' line))

/-! ## After the load -/

/-- What happens while a load waits brings nothing back. -/
theorem grows_await (s : Session) (m : Meanwhile) : s.Grows (s.await m) := by
  cases m with
  | served op => exact grows_perform s op
  | tickEnds ticket => exact grows_resolveThen grows_notify s ticket
  | announced line => exact grows_of_wrote (wrote_record s _)

/-- However much happens while a load waits, nothing comes back. -/
theorem grows_awaitAll (s : Session) (during : List Meanwhile) : s.Grows (s.awaitAll during) := by
  induction during generalizing s with
  | nil => exact .refl s
  | cons m rest ih => exact (grows_await s m).trans (ih _)

/-- The turn of a task that was ticking for another load. -/
theorem turn_of_not_due (hstage : t.stage = .waiting ticket) (hdue : ¬ ticket.Due s) :
    (∃ ending, s.turn t = s.finish t ending) ∨
      (s.isExecuting = true ∧ ∃ new, s.turn t = s.requeue t new) := by
  unfold turn
  split
  · exact .inl ⟨_, rfl⟩
  · rw [hstage]
    dsimp only
    rw [resolve_of_not_due hdue]
    cases t.job with
    | tick => exact .inl ⟨_, rfl⟩
    | run =>
      -- what counts now is whether the run that there is by now is executing
      dsimp only
      unfold goOn isExecuting
      cases s.executor with
      | none => exact .inl ⟨_, rfl⟩
      | some e =>
        dsimp only
        split
        · next hexec => exact .inr ⟨hexec, _, rfl⟩
        · exact .inl ⟨_, rfl⟩

/-- A ticket from before a load is not due. -/
theorem not_due_of_load_lt (h : ticket.load < s.loads) : ¬ ticket.Due s := by
  rintro ⟨e, -, rfl, -⟩
  exact Nat.lt_irrefl _ h

/-- What holds right after another load, holds for good. -/
theorem over_of_grows (hload : s.loads < s'.loads) (hhandled : s.Handled)
    (hnext : s.nextTask ≤ s'.nextTask)
    (hcancelled : ∀ t ∈ s'.queue, s.background = some t.id → t.cancelled = true)
    (hgrows : s'.Grows s'') : s.Over s'' where
  ticks ticket hold := by
    -- a ticket is due only in the load it was captured in
    have hloads := hgrows.loads
    exact resolve_of_not_due (not_due_of_load_lt (by omega))
  background k t hget hid := by
    have hdead : t.cancelled = true := by
      have hlt := hhandled t.id hid
      have hall : ∀ t₀ ∈ s'.queue, t₀.id = t.id → t₀.cancelled = true :=
        fun t₀ ht₀ hsame => hcancelled t₀ ht₀ (by rw [hsame]; exact hid)
      exact hgrows.cancelled t.id (by omega) hall (List.mem_of_getElem? hget) rfl
    rw [wake_of_getElem? hget]
    exact if_pos hdead
  waiting k t ticket hget hstage hold := by
    rw [wake_of_getElem? hget]
    have hloads := hgrows.loads
    have hlt : ticket.load < Session.loads { s'' with queue := s''.queue.eraseIdx k } := by
      show ticket.load < s''.loads
      omega
    exact turn_of_not_due hstage (not_due_of_load_lt hlt)

/-! ## The end of a load -/

/-- Cancelling the background run leaves program and open loop alone. -/
theorem ingestion_cancelBackground (s : Session) : s.cancelBackground.ingestion = s.ingestion := by
  unfold cancelBackground
  split <;> rfl

/-- The installation of a maze, before anybody is told of it. -/
theorem installed_installThen (s : Session) (m : Maze) :
    s.Installed m (s.installThen untold m).1 := by
  let loaded : Session := { s.cancelBackground with
    maze? := some m
    executor := some (Executor.create m s.cancelBackground.ingestion.program.trace
      (some m.startPose))
    loads := s.cancelBackground.loads + 1 }
  obtain ⟨events, -, htold⟩ : loaded.Wrote [] (s.installThen untold m).1 :=
    wrote_log loaded _ _ _
  rw [htold]
  refine ⟨rfl, ⟨_, rfl, rfl, ?_⟩, s.ingestion_cancelBackground, s.background_cancelBackground, rfl,
    ?_, s.script_cancelBackground⟩
  · rw [ingestion_cancelBackground]
    rfl
  · show s.cancelBackground.loads + 1 = s.loads + 1
    rw [loads_cancelBackground]

/-- The task of the background run from before has been cancelled. -/
theorem Installed.cancelled {m : Maze} (h : s.Installed m s') (ht : t ∈ s'.queue)
    (hid : s.background = some t.id) : t.cancelled = true := by
  rw [h.queue] at ht
  exact cancelled_cancelBackground ht hid

/-- The background task is cancelled, so there is nobody who drives but tasks astray. -/
theorem Installed.drivers_eq_nil {m : Maze} (h : s.Installed m s') (hnone : s.strays = 0) :
    s'.drivers = [] := by
  rw [← strays_cancelBackground, ← length_drivers_of_none s.background_cancelBackground] at hnone
  unfold drivers at hnone ⊢
  rw [h.queue]
  exact List.eq_nil_of_length_eq_zero hnone

/-- A listener that is not waiting for what it would see leaves everything as it is, and it does
not fail. -/
theorem notify_of_calm (h : s.Calm) : ∃ journal, s.notify = ({ s with journal }, .ok ()) := by
  obtain hs | ⟨e, hs⟩ := Option.eq_none_or_eq_some s.executor
  · have hunseen : s.notify = (s, .ok ()) := by
      unfold notify notifyUpTo
      rw [hs]
    exact ⟨s.journal, hunseen⟩
  · by_cases hlisten : s.listening = true
    · have hseen : s.notify = (s.record (.viewed (s.viewOf e)), .ok ()) := by
        unfold notify notifyUpTo
        rw [hs]
        dsimp only
        rw [if_pos hlisten]
        split
        · next left r rest _ hscript =>
          -- the first reaction is the only one that could be due
          have hdue : ¬ r.due (s.viewOf e) = true := by
            rw [h e r rest hs hscript]
            exact Bool.false_ne_true
          rw [if_neg hdue]
        · rfl
      exact ⟨_, hseen⟩
    · exact ⟨s.journal, notify_of_not_listening hlisten⟩

/-! ## Waiting for a further attempt -/

/-- What happens in two portions happens one portion after the other. -/
theorem awaitAll_append (s : Session) (ms ms' : List Meanwhile) :
    s.awaitAll (ms ++ ms') = (s.awaitAll ms).awaitAll ms' := List.foldl_append

/-- To let tasks have their turns is something that happens while a load waits. -/
theorem exists_runUntil_eq_awaitAll (stop : Session → Bool) (limit : Nat) (s : Session) :
    ∃ n, runUntil stop limit s = s.awaitAll (List.replicate n (.served (.wake 0))) := by
  induction limit generalizing s with
  | zero => exact ⟨0, rfl⟩
  | succ limit ih =>
    unfold runUntil
    split
    · exact ⟨0, rfl⟩
    · obtain ⟨n, hn⟩ := ih s.runNext
      refine ⟨n + 1, hn.trans ?_⟩
      rw [runNext_eq_wake]
      rfl

/-- While a load waits for its next attempt the tasks have their turns, and this is one way in
which things can happen meanwhile. -/
theorem exists_load_eq_loadAmid (s : Session) (loading : Loading) :
    ∃ during, during.filterMap Meanwhile.line? = loading.log ∧
      s.load loading = s.loadAmid during loading.result := by
  have hwait (lines : List LogEntry) (s : Session) : ∃ during : List Meanwhile,
      during.filterMap Meanwhile.line? = lines ∧
        lines.foldl (fun s line => s.settle.record (.logged line)) s = s.awaitAll during := by
    induction lines generalizing s with
    | nil => exact ⟨[], rfl, rfl⟩
    | cons line rest ih =>
      obtain ⟨n, hn⟩ := exists_runUntil_eq_awaitAll (fun s => s.queue.isEmpty) s.budget s
      obtain ⟨during, hlines, hduring⟩ := ih (s.settle.record (.logged line))
      refine ⟨List.replicate n (.served (.wake 0)) ++ .announced line :: during, ?_, ?_⟩
      · have hturns :
            (List.replicate n (Meanwhile.served (.wake 0))).filterMap Meanwhile.line? = [] :=
          List.filterMap_replicate_of_none rfl
        rw [List.filterMap_append, hturns, List.nil_append]
        exact congrArg (line :: ·) hlines
      · rw [awaitAll_append, ← hn]
        exact hduring
  obtain ⟨during, hlines, hduring⟩ := hwait loading.log s
  refine ⟨during, hlines, ?_⟩
  unfold load loadAmid
  rw [hduring]

/-- If the listener is dependable a load only fails for want of a maze. -/
theorem error_of_loadAmid {during : List Meanwhile} (h : (s.awaitAll during).Dependable)
    {result : Except Failure Maze} {f : Failure}
    (hfails : (s.loadAmid during result).2 = .error f) :
    result = .error f := by
  cases result with
  | error f' =>
    obtain rfl := Except.error.inj hfails
    rfl
  | ok m =>
    have hinstalled := installed_installThen (s.awaitAll during) m
    -- installing takes no reaction off the script, so the listeners are as dependable as before
    have hscript : ((s.awaitAll during).installThen untold m).1.script ⊆
        (s.awaitAll during).script := by
      rw [hinstalled.script]
      exact List.Subset.refl _
    have htold := succeeds_notify (h.of_subset hscript)
      (by obtain ⟨e, he, -⟩ := hinstalled.executor; rw [he]; rfl)
    obtain ⟨m', hm'⟩ := (htold.reply fun _ => m).answer
    exact nomatch hfails.symm.trans hm'

end Session

end MazeRobot
