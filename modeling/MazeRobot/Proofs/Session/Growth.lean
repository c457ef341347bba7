import MazeRobot.Proofs.Session.Drivers

/-!
# What does not come back

Loads are counted and tasks are numbered, and neither count goes back.  So nothing that happens
to a session brings back what is over (`Session.Grows`): a task that is cancelled stays so, a
task that is new in the queue has a number that none had before, and so has the task of a new
background run.  This holds of every move (`grows_of_moves`) and of every operation
(`grows_perform`), also if it fails.
-/

namespace MazeRobot

namespace Session

/-- What a session keeps track of when it goes on. -/
structure Grows (s s' : Session) : Prop where
  nextTask : s.nextTask ≤ s'.nextTask
  loads : s.loads ≤ s'.loads
  background : ∀ id, s'.background = some id →
    s.background = some id ∨ (s.nextTask ≤ id ∧ id < s'.nextTask)
  queue : ∀ t' ∈ s'.queue,
    (∃ t ∈ s.queue, t'.id = t.id ∧ t'.job = t.job ∧ (t.cancelled = true → t'.cancelled = true)) ∨
      s.nextTask ≤ t'.id

/-- The background run is one of the tasks there have been. -/
def Handled (s : Session) : Prop := ∀ id, s.background = some id → id < s.nextTask

variable {s s' s'' : Session} {t : Task} {e : Executor}

/-- Nothing comes back where the counts stay and no task is new. -/
theorem Grows.of_eq (hnext : s'.nextTask = s.nextTask) (hloads : s.loads ≤ s'.loads)
    (hbackground : s'.background = s.background) (hqueue : s'.queue ⊆ s.queue) : s.Grows s' where
  nextTask := Nat.le_of_eq hnext.symm
  loads := hloads
  background _ hid := .inl (hbackground ▸ hid)
  queue t' ht' := .inl ⟨t', hqueue ht', rfl, rfl, fun h => h⟩

theorem Grows.refl (s : Session) : s.Grows s := .of_eq rfl (Nat.le_refl _) rfl (List.Subset.refl _)

theorem Grows.trans (h : s.Grows s') (h' : s'.Grows s'') : s.Grows s'' where
  nextTask := Nat.le_trans h.nextTask h'.nextTask
  loads := Nat.le_trans h.loads h'.loads
  background id hid := by
    have hnext := h.nextTask
    have hnext' := h'.nextTask
    -- the handle is the old one or one given out since, and so in either stretch
    obtain hsame | ⟨hnew, hlt⟩ := h'.background id hid
    · refine (h.background id hsame).imp_right fun ⟨hnew, hlt⟩ => ⟨hnew, ?_⟩
      omega
    · exact .inr ⟨by omega, hlt⟩
  queue t'' ht'' := by
    obtain ⟨t', ht', hid', hjob', hcancelled'⟩ | hnew := h'.queue t'' ht''
    · rw [hid', hjob']
      refine (h.queue t' ht').imp_left fun ⟨t, ht, hid, hjob, hcancelled⟩ => ?_
      exact ⟨t, ht, hid, hjob, fun hc => hcancelled' (hcancelled hc)⟩
    · exact .inr (Nat.le_trans h.nextTask hnew)

/-- The background run stays one of the tasks there have been. -/
theorem Grows.handled (h : s.Grows s') (hs : s.Handled) : s'.Handled := by
  intro id hid
  obtain hsame | ⟨-, hlt⟩ := h.background id hid
  · exact Nat.lt_of_lt_of_le (hs id hsame) h.nextTask
  · exact hlt

/-- Once all tasks with a number are cancelled, they are for good. -/
theorem Grows.cancelled (h : s.Grows s') (id : Nat) (hid : id < s.nextTask)
    (hall : ∀ t ∈ s.queue, t.id = id → t.cancelled = true) (ht : t ∈ s'.queue) (htid : t.id = id) :
    t.cancelled = true := by
  obtain ⟨t₀, ht₀, hsame, -, hcancelled⟩ | hnew := h.queue t ht
  · exact hcancelled (hall t₀ ht₀ (hsame.symm.trans htid))
  · omega

/-- Once no task drives, those that there have been never will. -/
theorem Grows.not_drives (h : s.Grows s') (hnone : s.drivers = []) (ht : t ∈ s'.queue)
    (hid : t.id < s.nextTask) : ¬ t.Drives := by
  rintro ⟨hjob, hlive⟩
  obtain ⟨t₀, ht₀, hsame, hjob₀, hcancelled⟩ | hnew := h.queue t ht
  · have hdrives : ¬ t₀.Drives := by simpa using List.filter_eq_nil_iff.mp hnone t₀ ht₀
    refine hdrives ⟨hjob₀ ▸ hjob, Bool.eq_false_iff.mpr fun hdead => ?_⟩
    rw [hcancelled hdead] at hlive
    cases hlive
  · omega

/-! ## Actions -/

/-- Writing brings nothing back. -/
theorem grows_of_wrote {vs : List View} (h : s.Wrote vs s') : s.Grows s' := by
  obtain ⟨events, -, rfl⟩ := h
  exact .of_eq rfl (Nat.le_refl _) rfl (List.Subset.refl _)

/-- Another executor, and no more. -/
theorem grows_executor (s : Session) (executor : Option Executor) :
    s.Grows { s with executor } :=
  .of_eq rfl (Nat.le_refl _) rfl (List.Subset.refl _)

/-- Cancelling the background run is no load. -/
theorem loads_cancelBackground (s : Session) : s.cancelBackground.loads = s.loads := by
  unfold cancelBackground
  split <;> rfl

/-- The task that the handle was on is cancelled. -/
theorem cancelled_cancelBackground (ht : t ∈ s.cancelBackground.queue)
    (hid : s.background = some t.id) : t.cancelled = true := by
  unfold cancelBackground at ht
  rw [hid] at ht
  obtain ⟨t₀, -, heq⟩ := List.mem_map.mp ht
  split at heq
  · rw [← heq]
  · next hother => exact absurd (congrArg Task.id heq) hother

/-- Cancelling the background run brings nothing back. -/
theorem grows_cancelBackground (s : Session) : s.Grows s.cancelBackground where
  nextTask := Nat.le_of_eq s.nextTask_cancelBackground.symm
  loads := Nat.le_of_eq s.loads_cancelBackground.symm
  background id hid := by
    rw [background_cancelBackground] at hid
    cases hid
  queue t' ht' := by
    left
    unfold cancelBackground at ht'
    split at ht'
    · exact ⟨t', ht', rfl, rfl, fun h => h⟩
    -- a task is marked, never taken off: its number and its job stay
    · obtain ⟨t, ht, rfl⟩ := List.mem_map.mp ht'
      refine ⟨t, ht, ?_⟩
      split
      · exact ⟨rfl, rfl, fun _ => rfl⟩
      · exact ⟨rfl, rfl, fun h => h⟩

/-- A new task has a number that none had before. -/
theorem grows_spawn (s : Session) (job : Job) : s.Grows (s.spawn job).1 where
  nextTask := Nat.le_succ _
  loads := Nat.le_refl _
  background id hid := .inl hid
  queue t' ht' := by
    obtain ht' | ht' := List.mem_append.mp ht'
    · exact .inl ⟨t', ht', rfl, rfl, fun h => h⟩
    · obtain rfl := List.mem_singleton.mp ht'
      exact .inr (Nat.le_refl _)

section Told

variable {notify : Session → Session × Except Failure Unit}
  (hnotify : ∀ s : Session, s.Grows (notify s).1)

include hnotify

/-- To write and then to tell the listener brings nothing back. -/
theorem grows_told {vs : List View} (h : s.Wrote vs s') : s.Grows (notify s').1 :=
  (grows_of_wrote h).trans (hnotify s')

/-- A start brings nothing back. -/
theorem grows_startThen (s : Session) (e : Executor) : s.Grows (s.startThen notify e).1 := by
  unfold startThen
  obtain ⟨e', _ | _⟩ := e.start
  · exact .refl s
  · exact (grows_executor s _).trans (grows_told hnotify (wrote_log _ _ _ _))

/-- The background run is cancelled, and then something is logged and shown. -/
theorem grows_stopped (s : Session) (executor : Option Executor) (kind : LogKind) (text : String) :
    s.Grows (notify (Session.log (cancelBackground { s with executor }) kind text)).1 :=
  ((grows_executor s executor).trans (grows_cancelBackground _)).trans
    (grows_told hnotify (wrote_log _ _ _ _))

/-- A pause brings nothing back. -/
theorem grows_pauseThen (s : Session) (e : Executor) : s.Grows (s.pauseThen notify e).1 := by
  unfold pauseThen
  obtain ⟨e', _ | _⟩ := e.pause
  · exact grows_cancelBackground s
  · exact grows_stopped hnotify s _ _ _

/-- A toggle brings nothing back, whichever of the two it is. -/
theorem grows_toggleThen (s : Session) (e : Executor) : s.Grows (s.toggleThen notify e).1 := by
  unfold toggleThen
  split
  · exact grows_pauseThen hnotify s e
  · exact grows_startThen hnotify s e

/-- The new background run has a number of its own. -/
theorem grows_playThen (s : Session) (e : Executor) : s.Grows (s.playThen notify e).1 := by
  have hbegun := (grows_cancelBackground s).trans (grows_startThen hnotify s.cancelBackground e)
  unfold playThen
  generalize s.cancelBackground.startThen notify e = answer at hbegun ⊢
  obtain ⟨s', f | started⟩ := answer
  · exact hbegun
  · have hspawned := hbegun.trans (grows_spawn s' .run)
    -- the handle is on the task that has just been spawned
    refine ⟨hspawned.nextTask, hspawned.loads, fun id hid => .inr ?_, hspawned.queue⟩
    obtain rfl := Option.some.inj hid
    exact ⟨hbegun.nextTask, Nat.lt_succ_self _⟩

/-- A deed brings nothing back, whether a user or the listener asks for it. -/
theorem grows_doThen (s : Session) (d : Deed) : s.Grows (s.doThen notify d).1 := by
  unfold doThen
  cases s.executor with
  | none => exact .refl s
  | some e =>
    cases d with
    | start => exact grows_startThen hnotify s e
    | pause => exact grows_pauseThen hnotify s e
    | toggle => exact grows_toggleThen hnotify s e
    | reset => exact grows_stopped hnotify s _ _ _
    | play => exact grows_playThen hnotify s e

/-- Deeds in order bring nothing back, also if one of them fails. -/
theorem grows_doAllThen (s : Session) (ds : List Deed) : s.Grows (s.doAllThen notify ds).1 := by
  induction ds generalizing s with
  | nil => exact .refl s
  | cons d rest ih =>
    have hfirst := grows_doThen hnotify s d
    unfold doAllThen
    generalize s.doThen notify d = answer at hfirst ⊢
    obtain ⟨s', f | done⟩ := answer
    · exact hfirst
    · exact hfirst.trans (ih s')

/-- The installation of a maze brings nothing back. -/
theorem grows_installThen (s : Session) (m : Maze) : s.Grows (s.installThen notify m).1 := by
  have hloaded (executor : Option Executor) : s.cancelBackground.Grows { s.cancelBackground with
      maze? := some m, executor, loads := s.cancelBackground.loads + 1 } :=
    .of_eq rfl (Nat.le_succ _) rfl (List.Subset.refl _)
  exact ((grows_cancelBackground s).trans (hloaded _)).trans
    (grows_told hnotify (wrote_log _ _ _ _))

/-- A detection brings nothing back. -/
theorem grows_detectThen (s : Session) (c : Command) : s.Grows (s.detectThen notify c).1 := by
  have hedited : s.Grows (s.onIngestion (s.ingestion.submit s.isExecuting s.now c)).1 :=
    .of_eq rfl (Nat.le_refl _) rfl (List.Subset.refl _)
  unfold detectThen
  generalize s.onIngestion (s.ingestion.submit s.isExecuting s.now c) = answer at hedited ⊢
  obtain ⟨s', f | _ | _⟩ := answer
  · exact hedited
  · exact hedited
  · exact hedited.trans (grows_told hnotify (wrote_log _ _ _ _))

/-- The end of a tick brings nothing back. -/
theorem grows_resolveThen (s : Session) (ticket : Ticket) :
    s.Grows (s.resolveThen notify ticket).1 := by
  obtain heq | ⟨e, e', r, -, -, heq⟩ := resolveThen_cases notify s ticket
  · rw [heq]
    exact .refl s
  · rw [heq]
    exact (grows_executor s _).trans (grows_told hnotify (wrote_logStep _ _ _))

end Told

/-- However the listener reacts, also to what its reactions show. -/
theorem grows_notifyUpTo (limit : Nat) (s : Session) : s.Grows (notifyUpTo limit s).1 := by
  -- the deeds of a reaction are shown with fewer reactions left
  induction limit using Nat.strongRecOn generalizing s with
  | ind limit ih =>
    have hshown := shown_notifyUpTo limit s
    generalize reactionsUpTo limit s = ts, (notifyUpTo limit s).1 = s' at hshown ⊢
    cases hshown with
    | unseen nobody => exact .refl s
    | seen run somebody => exact grows_of_wrote (wrote_record s _)
    | @reacts e left r rest run somebody left_lt first due =>
      have hcrossed : s.Grows { s.record (.viewed (s.viewOf e)) with script := rest } :=
        .of_eq rfl (Nat.le_refl _) rfl (List.Subset.refl _)
      exact hcrossed.trans (grows_doAllThen (ih left (by omega)) _ r.deeds)

/-- To tell the listener brings nothing back, whatever it does about it. -/
theorem grows_notify (s : Session) : s.Grows s.notify.1 := grows_notifyUpTo s.script.length s

/-! ## Turns -/

/-- The end of a task brings nothing back. -/
theorem grows_finish (t : Task) (ending : Ending) (h : s.Grows s') : s.Grows (s'.finish t ending) :=
  h.trans (.of_eq rfl (Nat.le_refl _) rfl (List.Subset.refl _))

/-- A task that was in the queue is put back. -/
theorem grows_requeue (ht : t ∈ s.queue) (ticket : Ticket) (h : s.Grows s') :
    s.Grows (s'.requeue t ticket) where
  nextTask := h.nextTask
  loads := h.loads
  background := h.background
  queue t' ht' := by
    obtain ht' | ht' := List.mem_append.mp ht'
    · exact h.queue t' ht'
    · left
      rw [List.mem_singleton.mp ht']
      exact ⟨t, ht, rfl, rfl, fun h => h⟩

/-- A task that goes on brings nothing back. -/
theorem grows_goOn (ht : t ∈ s.queue) (h : s.Grows s') : s.Grows (s'.goOn t) := by
  unfold goOn
  cases s'.executor with
  | none => exact grows_finish t _ h
  | some e =>
    dsimp only
    split
    · exact grows_requeue ht _ h
    · exact grows_finish t _ h

/-- To start a run where none executes brings nothing back. -/
theorem grows_ensureStarted (s : Session) : s.Grows s.ensureStarted := by
  unfold ensureStarted beginRun
  split
  · exact .refl s
  · show s.Grows (s.act .start)
    rw [act_eq_doThen]
    exact grows_doThen grows_notify s .start

/-- The turn of a task brings nothing back. -/
theorem grows_wake (s : Session) (k : Nat) : s.Grows (s.wake k) := by
  cases hget : s.queue[k]? with
  | none =>
    unfold wake
    rw [hget]
    exact .refl s
  | some t =>
    have ht : t ∈ s.queue := List.mem_of_getElem? hget
    -- the task is taken off the queue, which only loses one
    let taken : Session := { s with queue := s.queue.eraseIdx k }
    have htaken : s.Grows taken := .of_eq rfl (Nat.le_refl _) rfl List.eraseIdx_subset
    have hturns := turns_turn taken t
    rw [wake_of_getElem? hget]
    show s.Grows (taken.turn t)
    generalize taken.turn t = s' at hturns ⊢
    cases hturns with
    | ends ending => exact grows_finish t ending htaken
    | waits ticket => exact grows_requeue ht ticket htaken
    | begins => exact grows_goOn ht (htaken.trans taken.grows_ensureStarted)
    | stumbles ending => exact grows_finish t ending (htaken.trans taken.grows_ensureStarted)
    | resolves ticket ending =>
      exact grows_finish t ending (htaken.trans (grows_resolveThen grows_notify taken ticket))
    | goesOn ticket =>
      exact grows_goOn ht (htaken.trans (grows_resolveThen grows_notify taken ticket))

/-! ## Everything that happens -/

/-- No move brings anything back. -/
theorem grows_of_moves (h : s.Moves s') : s.Grows s' := by
  cases h with
  | deed d => exact grows_doThen grows_notify s d
  | detect c => exact grows_detectThen grows_notify s c
  | install m => exact grows_installThen grows_notify s m
  | note line => exact grows_of_wrote (wrote_record s _)
  | resolve ticket => exact grows_resolveThen grows_notify s ticket
  | wake k => exact grows_wake s k
  | beginTick => exact grows_spawn s .tick
  | clock now => exact .of_eq rfl (Nat.le_refl _) rfl (List.Subset.refl _)

/-- No operation brings anything back. -/
theorem grows_perform (s : Session) (op : Operation) : s.Grows (s.perform op) := by
  obtain ⟨e, rfl⟩ | hop := op.edit_or_not
  · exact .of_eq rfl (Nat.le_refl _) rfl (List.Subset.refl _)
  · have hmoves := moves_perform s hop
    generalize s.perform op = s' at hmoves ⊢
    induction hmoves with
    | refl => exact .refl s
    | tail _ hmove ih => exact ih.trans (grows_of_moves hmove)

end Session

end MazeRobot
