import MazeRobot.Proofs.Session.Journal

/-!
# Listeners that can be relied upon

An action of a session fails if the listener fails that it tells, and the listener fails if one
of its deeds does, which tells the listener again.  So at the root of all of it there is a
reaction that fails of itself.  If the listener has none in store (`Session.Dependable`), then
to tell it of anything succeeds, whatever it does in reaction and whatever that shows it in turn
(`succeeds_notify`).
-/

namespace MazeRobot

namespace Session

/-- No reaction that the listener has in store fails of itself. -/
def Dependable (s : Session) : Prop := ∀ r ∈ s.script, r.failure = none

/-- Something has succeeded.  If there was a run there still is one, and the listener has nothing
new in store. -/
structure Succeeds {α : Type} (s : Session) (acted : Session × Except Failure α) : Prop where
  answer : ∃ a, acted.2 = .ok a
  script : acted.1.script ⊆ s.script
  executor : s.executor.isSome = true → acted.1.executor.isSome = true

variable {α β : Type} {s s' : Session} {e : Executor} {acted : Session × Except Failure α}

/-- A listener with fewer reactions in store is no less dependable. -/
theorem Dependable.of_subset (h : s.Dependable) (hsub : s'.script ⊆ s.script) : s'.Dependable :=
  fun r hr => h r (hsub hr)

/-- Another answer is a success as well. -/
theorem Succeeds.reply (h : s.Succeeds acted) (f : α → β) : s.Succeeds (reply f acted) where
  answer := by
    obtain ⟨a, ha⟩ := h.answer
    exact ⟨f a, congrArg (Except.map f) ha⟩
  script := h.script
  executor := h.executor

/-- A failure is no success. -/
theorem not_succeeds_error {f : Failure} :
    ¬ s.Succeeds ((s', .error f) : Session × Except Failure α) := by
  intro h
  obtain ⟨a, ha⟩ := h.answer
  cases ha

section Told

-- how the listener is told, and that it is told with success
variable {notify : Session → Session × Except Failure Unit}
  (hnotify : ∀ s : Session, s.Dependable → s.executor.isSome = true → s.Succeeds (notify s))

include hnotify

/-- The listener is told of a run, with its script as it was. -/
theorem succeeds_told (h : s.Dependable) (hscript : s'.script = s.script)
    (hrun : s'.executor.isSome = true) : s.Succeeds (notify s') := by
  have hsub : s'.script ⊆ s.script := hscript ▸ List.Subset.refl _
  have htold := hnotify s' (h.of_subset hsub) hrun
  exact ⟨htold.answer, List.Subset.trans htold.script hsub, fun _ => htold.executor hrun⟩

/-- A start succeeds, refused or not. -/
theorem succeeds_startThen (h : s.Dependable) (e : Executor) :
    s.Succeeds (s.startThen notify e) := by
  unfold startThen
  obtain ⟨e', _ | _⟩ := e.start
  · exact ⟨⟨false, rfl⟩, List.Subset.refl _, fun hrun => hrun⟩
  · refine (succeeds_told hnotify h ?_ ?_).reply _
    · rw [script_log]
    · rw [executor_log]
      rfl

/-- A pause succeeds, refused or not. -/
theorem succeeds_pauseThen (h : s.Dependable) (e : Executor) :
    s.Succeeds (s.pauseThen notify e) := by
  unfold pauseThen
  obtain ⟨e', _ | _⟩ := e.pause
  · refine ⟨⟨false, rfl⟩, ?_, fun hrun => ?_⟩
    · rw [script_cancelBackground]
      exact List.Subset.refl _
    · rwa [executor_cancelBackground]
  · refine (succeeds_told hnotify h ?_ ?_).reply _
    · rw [script_log, script_cancelBackground]
    · rw [executor_log, executor_cancelBackground]
      rfl

/-- The execute button succeeds, whichever of the two it does. -/
theorem succeeds_toggleThen (h : s.Dependable) (e : Executor) :
    s.Succeeds (s.toggleThen notify e) := by
  unfold toggleThen
  split
  · exact (succeeds_pauseThen hnotify h e).reply _
  · exact succeeds_startThen hnotify h e

/-- A reset succeeds. -/
theorem succeeds_resetThen (h : s.Dependable) (e : Executor) :
    s.Succeeds (s.resetThen notify e) := by
  refine succeeds_told hnotify h ?_ ?_
  · rw [script_log, script_cancelBackground]
  · rw [executor_log, executor_cancelBackground]
    rfl

/-- To play succeeds. -/
theorem succeeds_playThen (h : s.Dependable) (e : Executor) : s.Succeeds (s.playThen notify e) := by
  have hdropped : s.cancelBackground.script ⊆ s.script := by
    rw [script_cancelBackground]
    exact List.Subset.refl _
  have hstart := succeeds_startThen hnotify (h.of_subset hdropped) e
  unfold playThen
  generalize s.cancelBackground.startThen notify e = answer at hstart ⊢
  obtain ⟨s', f | started⟩ := answer
  · exact absurd hstart not_succeeds_error
  · refine ⟨⟨_, rfl⟩, List.Subset.trans hstart.script hdropped, fun hrun => hstart.executor ?_⟩
    rwa [executor_cancelBackground]

/-- Each deed succeeds if there is a run. -/
theorem succeeds_doThen (h : s.Dependable) (hrun : s.executor.isSome = true) (d : Deed) :
    s.Succeeds (s.doThen notify d) := by
  obtain ⟨e, hs⟩ := Option.isSome_iff_exists.mp hrun
  unfold doThen
  rw [hs]
  cases d with
  | start => exact (succeeds_startThen hnotify h e).reply _
  | pause => exact (succeeds_pauseThen hnotify h e).reply _
  | toggle => exact (succeeds_toggleThen hnotify h e).reply _
  | reset => exact succeeds_resetThen hnotify h e
  | play => exact (succeeds_playThen hnotify h e).reply _

/-- So all deeds are done. -/
theorem succeeds_doAllThen (ds : List Deed) (h : s.Dependable) (hrun : s.executor.isSome = true) :
    s.Succeeds (s.doAllThen notify ds) := by
  induction ds generalizing s with
  | nil => exact ⟨⟨(), rfl⟩, List.Subset.refl _, fun hrun => hrun⟩
  | cons d ds ih =>
    have hfirst := succeeds_doThen hnotify h hrun d
    unfold doAllThen
    generalize s.doThen notify d = answer at hfirst ⊢
    obtain ⟨s', f | done⟩ := answer
    · exact absurd hfirst not_succeeds_error
    · have hrest := ih (h.of_subset hfirst.script) (hfirst.executor hrun)
      exact ⟨hrest.answer, List.Subset.trans hrest.script hfirst.script, fun hrun =>
        hrest.executor (hfirst.executor hrun)⟩

end Told

/-- However the listener reacts, also to what its reactions show. -/
theorem succeeds_notifyUpTo (limit : Nat) (h : s.Dependable) (hrun : s.executor.isSome = true) :
    s.Succeeds (notifyUpTo limit s) := by
  -- the deeds of a reaction are shown with fewer reactions left
  induction limit using Nat.strongRecOn generalizing s with
  | ind limit ih =>
    have hseen (v : View) : s.Succeeds (s.record (.viewed v), .ok ()) :=
      ⟨⟨(), rfl⟩, List.Subset.refl _, fun hrun => hrun⟩
    obtain ⟨e, hs⟩ := Option.isSome_iff_exists.mp hrun
    unfold notifyUpTo
    rw [hs]
    dsimp only
    split
    · split
      · next left r rest hscript =>
        change s.script = r :: rest at hscript
        split
        · -- the reaction is crossed off before its deeds show further views
          let crossed : Session := { s.record (.viewed (s.viewOf e)) with script := rest }
          have hrest : crossed.script ⊆ s.script := hscript ▸ List.subset_cons_self r rest
          have hdeeds := succeeds_doAllThen (fun s => ih left (Nat.lt_succ_self left)) r.deeds
            (h.of_subset hrest) hrun
          have hends : r.outcome = .ok () := by
            unfold Reaction.outcome
            rw [h r (hscript ▸ List.mem_cons_self)]
          generalize crossed.doAllThen (notifyUpTo left) r.deeds = answer at hdeeds ⊢
          obtain ⟨s', f | done⟩ := answer
          · exact absurd hdeeds not_succeeds_error
          · exact ⟨⟨(), hends⟩, List.Subset.trans hdeeds.script hrest,
              fun _ => hdeeds.executor hrun⟩
        · exact hseen _
      · exact hseen _
    · exact ⟨⟨(), rfl⟩, List.Subset.refl _, fun hrun => hrun⟩

/-- To tell a dependable listener of a run succeeds. -/
theorem succeeds_notify (h : s.Dependable) (hrun : s.executor.isSome = true) :
    s.Succeeds s.notify :=
  succeeds_notifyUpTo s.script.length h hrun

end Session

end MazeRobot
