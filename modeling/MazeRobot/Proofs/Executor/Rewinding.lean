import MazeRobot.Proofs.Executor.Calls

/-!
# Rewinding forgets

Whatever an executor has been through, a reset or a start that begins a run leaves nothing of
it but the generation.  Two executors that differ in nothing else (`Alike`) can only be told
apart by what a token is compared with.  So if later tokens are counted back from the present
generation, as they are by whoever captures one before waiting, all later answers and
snapshots are the same (`Alike.watch_eq`).
-/

namespace MazeRobot

/-- The call that is meant at a generation if tokens count back from it: `0` is the present
generation, `1` the one before. -/
def Call.asOf (c : Call) (generation : Nat) : Call :=
  match c with
  | .step (some age) => .step (some (generation - age))
  | c => c

namespace Executor

/-- What is seen of later calls, whose tokens are counted back from the present generation:
the answer of each call and the snapshot behind it, up to its generation. -/
def watch (e : Executor) : List Call → List (Answer × Snapshot)
  | [] => []
  | c :: rest =>
    let (e, answer) := e.call (c.asOf e.generation)
    (answer, { e.snapshot with generation := 0 }) :: watch e rest

/-- The same but for the generation. -/
def Alike (e e' : Executor) : Prop := ∃ generation, e' = { e with generation }

/-- Nothing that is asked from now on can tell the two apart. -/
structure Indistinct (e e' : Executor) : Prop where
  alike : e.Alike e'
  watch_eq : ∀ calls, e'.watch calls = e.watch calls

variable {e e' : Executor}

/-! ## Calls to executors that are alike -/

/-- Executors that are alike show the same, except for the generation. -/
theorem Alike.snapshot_eq (h : e.Alike e') :
    { e'.snapshot with generation := 0 } = { e.snapshot with generation := 0 } := by
  obtain ⟨g, rfl⟩ := h
  rfl

/-- A token counted back is current if it counts to nothing, whatever the generation. -/
theorem current_asOf_iff {age : Int} :
    e.Current (some (e.generation - age)) ↔ age = 0 := by
  unfold Current
  constructor
  · intro h
    have hg := h _ rfl
    omega
  · rintro rfl g hg
    obtain rfl := Option.some.inj hg
    omega

/-- Steps are resolved alike. -/
theorem stepAt_alike (e : Executor) (g cursor : Nat) :
    stepAt { e with generation := g } cursor =
      (e.stepAt cursor).map fun (e', r) => ({ e' with generation := g }, r) := by
  -- neither look-up reads the generation
  unfold stepAt
  cases e.trace[cursor]? with
  | none => rfl
  | some c =>
    cases c with
    | loop count body => rfl
    | basic a =>
      simp only
      cases e.world.perform a with
      | none => rfl
      | some p => rfl

/-- A step does the same to both if both tokens are current or none is. -/
theorem Alike.call_step (h : e.Alike e') {token token' : Option Int}
    (htoken : e.Current token ↔ e'.Current token') :
    (e.call (.step token)).1.Alike (e'.call (.step token')).1 ∧
      (e'.call (.step token')).2 = (e.call (.step token)).2 := by
  obtain ⟨g, rfl⟩ := h
  rw [Executor.call_step, Executor.call_step]
  by_cases hdue : e.Current token ∧ e.isExecuting = true
  · obtain ⟨hcurrent, hexec⟩ := hdue
    obtain ⟨cursor, due⟩ := isExecuting_iff.mp hexec
    have due' : Executor.phase { e with generation := g } = .running cursor false := due
    rw [step_of_due hcurrent due, step_of_due (htoken.mp hcurrent) due', stepAt_alike e g cursor]
    cases e.stepAt cursor with
    | error failure => exact ⟨⟨g, rfl⟩, rfl⟩
    | ok p => exact ⟨⟨g, rfl⟩, rfl⟩
  · have hdue' : ¬ (Current { e with generation := g } token' ∧
        Executor.isExecuting { e with generation := g } = true) :=
      fun hboth => hdue ⟨htoken.mpr hboth.1, hboth.2⟩
    rw [step_of_not_due hdue, step_of_not_due hdue']
    exact ⟨⟨g, rfl⟩, rfl⟩

/-- Every call does the same to both and has the same answer. -/
theorem Alike.call (h : e.Alike e') (c : Call) :
    (e.call (c.asOf e.generation)).1.Alike (e'.call (c.asOf e'.generation)).1 ∧
      (e'.call (c.asOf e'.generation)).2 = (e.call (c.asOf e.generation)).2 := by
  have halike := h
  obtain ⟨g, rfl⟩ := h
  -- one case for each call; a start, a pause and a reset raise both generations
  cases c with
  | start =>
    show Alike e.start.1 (start { e with generation := g }).1 ∧
      Answer.started (start { e with generation := g }).2 = .started e.start.2
    by_cases hexec : e.isExecuting = true
    · rw [start_of_executing hexec, start_of_executing (e := { e with generation := g }) hexec]
      exact ⟨⟨g, rfl⟩, rfl⟩
    · rw [start_of_not_executing hexec,
        start_of_not_executing (e := { e with generation := g }) hexec]
      exact ⟨⟨g + 1, rfl⟩, rfl⟩
  | pause =>
    show Alike e.pause.1 (pause { e with generation := g }).1 ∧
      Answer.paused (pause { e with generation := g }).2 = .paused e.pause.2
    by_cases hexec : e.isExecuting = true
    · obtain ⟨cursor, due⟩ := isExecuting_iff.mp hexec
      rw [pause_of_running due, pause_of_running (e := { e with generation := g }) due]
      exact ⟨⟨g + 1, rfl⟩, rfl⟩
    · rw [pause_of_not_executing hexec,
        pause_of_not_executing (e := { e with generation := g }) hexec]
      exact ⟨⟨g, rfl⟩, rfl⟩
  | reset => exact ⟨⟨g + 1, rfl⟩, rfl⟩
  | setTrace trace => exact ⟨⟨g, rfl⟩, rfl⟩
  | step token =>
    cases token with
    | none => exact halike.call_step (iff_of_true (fun _ hg => nomatch hg) fun _ hg => nomatch hg)
    | some age => exact halike.call_step (current_asOf_iff.trans current_asOf_iff.symm)
  | editTile cell tile =>
    show Alike (e.call (.editTile cell tile)).1
        (Executor.call { e with generation := g } (.editTile cell tile)).1 ∧
      (Executor.call { e with generation := g } (.editTile cell tile)).2 =
        (e.call (.editTile cell tile)).2
    rw [call_editTile, call_editTile]
    cases e.maze.setTile cell tile with
    | ok maze => exact ⟨⟨g, rfl⟩, rfl⟩
    | error fault => exact ⟨⟨g, rfl⟩, rfl⟩

/-- Executors that are alike are seen to do the same for ever after. -/
theorem Alike.watch_eq (h : e.Alike e') (calls : List Call) : e'.watch calls = e.watch calls := by
  induction calls generalizing e e' with
  | nil => rfl
  | cons c rest ih =>
    obtain ⟨hnext, hanswer⟩ := h.call c
    simp only [watch]
    rw [hanswer, hnext.snapshot_eq, ih hnext]

/-- Executors that are alike cannot be told apart. -/
theorem Alike.indistinct (h : e.Alike e') : e.Indistinct e' := ⟨h, h.watch_eq⟩

/-! ## The past of an executor -/

/-- Of what an executor was made with, calls only change the trace and tiles of the maze. -/
theorem made_with_serve (m : Maze) (trace : Trace) (initial : Option Pose) (calls : List Call) :
    ((create m trace initial).serve calls).1.initial = initial.getD m.startPose ∧
      ((create m trace initial).serve calls).1.maze =
        { m with grid := ((create m trace initial).serve calls).1.maze.grid } := by
  refine serve_preserves
    (P := fun e => e.initial = initial.getD m.startPose ∧ e.maze = { m with grid := e.maze.grid })
    (fun h hc => ⟨hc.initial_eq.trans h.1, ?_⟩) ⟨rfl, rfl⟩ calls
  have hmaze := hc.maze_eq
  rw [h.2] at hmaze
  exact hmaze

/-- Rewinding only looks at the maze, the trace and the initial pose. -/
theorem alike_rewind (hmaze : e'.maze = e.maze) (htrace : e'.trace = e.trace)
    (hinitial : e'.initial = e.initial) (phase : Phase) :
    (e.rewind phase).Alike (e'.rewind phase) := by
  refine ⟨e'.generation + 1, ?_⟩
  unfold rewind
  rw [hmaze, htrace, hinitial]

/-- An executor that was just made is as a reset leaves it. -/
theorem alike_reset_create (m : Maze) (trace : Trace) (initial : Option Pose) :
    (create m trace initial).Alike (create m trace initial).reset := ⟨1, rfl⟩

/-- Executors that are alike to one are alike. -/
theorem Alike.trans {e'' : Executor} (h : e.Alike e') (h' : e'.Alike e'') : e.Alike e'' := by
  obtain ⟨g, rfl⟩ := h
  obtain ⟨g', rfl⟩ := h'
  exact ⟨g', rfl⟩

/-- A start that begins a run rewinds to its first entry. -/
theorem start_eq_rewind (h : e.start.2 = true) : e.start.1 = e.rewind (.running 0 false) := by
  by_cases hexec : e.isExecuting = true
  · rw [start_of_executing hexec] at h
    exact nomatch h
  · rw [start_of_not_executing hexec]

/-- Rewinding is independent of the past: whichever calls were made before, if they left the
executor with the same grid and the same trace, then after a reset, or after a start that
began a run, no later call can tell the two apart, nor from an executor just made with that
maze, that trace and the initial pose. -/
theorem rewind_forgets (m : Maze) (trace : Trace) (initial : Option Pose)
    (past₁ past₂ : List Call) :
    let e₁ := ((create m trace initial).serve past₁).1
    let e₂ := ((create m trace initial).serve past₂).1
    let fresh := create e₁.maze e₁.trace (some (initial.getD m.startPose))
    e₁.maze.grid = e₂.maze.grid → e₁.trace = e₂.trace →
      (e₁.reset.Indistinct e₂.reset ∧ fresh.Indistinct e₁.reset) ∧
      (e₁.start.2 = true → e₂.start.2 = true →
        e₁.start.1.Indistinct e₂.start.1 ∧ fresh.start.1.Indistinct e₁.start.1) := by
  intro e₁ e₂ fresh hgrid htrace
  obtain ⟨hinitial₁, hmaze₁⟩ := made_with_serve m trace initial past₁
  obtain ⟨hinitial₂, hmaze₂⟩ := made_with_serve m trace initial past₂
  have hmaze : e₂.maze = e₁.maze := by
    rw [hmaze₁, hmaze₂, hgrid]
  have hinitial : e₂.initial = e₁.initial := hinitial₂.trans hinitial₁.symm
  have hboth : ∀ phase, (e₁.rewind phase).Alike (e₂.rewind phase) :=
    alike_rewind hmaze htrace.symm hinitial
  have hfresh : ∀ phase, (fresh.rewind phase).Alike (e₁.rewind phase) :=
    alike_rewind rfl rfl hinitial₁
  refine ⟨⟨?_, ?_⟩, fun hstart₁ hstart₂ => ⟨?_, ?_⟩⟩
  · exact (hboth .idle).indistinct
  · -- just made and just reset is the same
    exact ((alike_reset_create _ _ _).trans (hfresh .idle)).indistinct
  · rw [start_eq_rewind hstart₁, start_eq_rewind hstart₂]
    exact (hboth _).indistinct
  · rw [start_eq_rewind hstart₁]
    exact (hfresh _).indistinct

/-- The one run is paused over a filled hole, the other one has fallen into it under another
trace. -/
theorem rewind_forgets_trench :
    let trace : Trace := [.basic .ifHole, .basic .forward, .basic .forward]
    let past₁ : List Call := [.start, .step none, .step (some 1), .pause]
    let past₂ : List Call :=
      [.setTrace [.basic .forward], .start, .step none, .setTrace trace]
    let e₁ := ((create .trench trace).serve past₁).1
    let e₂ := ((create .trench trace).serve past₂).1
    e₁.phase = .running 2 true ∧ e₂.phase = .failed .fellInHole ∧
      e₁.world.overlay ≠ e₂.world.overlay ∧
      e₁.maze.grid = e₂.maze.grid ∧ e₁.trace = e₂.trace ∧
      e₁.start.2 = true ∧ e₂.start.2 = true ∧
      e₁.reset.Indistinct e₂.reset ∧ e₁.start.1.Indistinct e₂.start.1 := by
  intro trace past₁ past₂ e₁ e₂
  -- one past ends paused with the hole filled, the other in the hole
  have hgrid : e₁.maze.grid = e₂.maze.grid := by decide
  have htrace : e₁.trace = e₂.trace := by decide
  have hstart₁ : e₁.start.2 = true := by decide
  have hstart₂ : e₂.start.2 = true := by decide
  obtain ⟨⟨hreset, -⟩, hstarts⟩ :=
    rewind_forgets .trench trace none past₁ past₂ hgrid htrace
  exact ⟨by decide, by decide, by decide, hgrid, htrace, hstart₁, hstart₂, hreset,
    (hstarts hstart₁ hstart₂).1⟩

end Executor

end MazeRobot
