import MazeRobot.Proofs.Executor.Calls

/-!
# Where the robot stands

The initial pose of a run may lie anywhere, even outside of the grid.  From the first move
on the robot stands on a tile of the overlay, and status and reason can be read off that
tile (`Phase.Stands`): the goal after a success, a hole after a fall, and floor or the
start in every other case, however the overlay was changed on the way.

Being blocked changes nothing: the failures at an edge and at a wall leave the world as it
was.
-/

namespace MazeRobot

/-- The tiles that a robot which has moved can stand on in a phase. -/
def Phase.Stands (p : Phase) (tile : Option Tile) : Prop :=
  match p with
  | .success => tile = some .goal
  | .failed .fellInHole => tile = some .hole
  | _ => tile = some .floor ∨ tile = some .start

/-- The tiles that an action with this verdict can leave under a robot that has moved. -/
def Verdict.Stands (v : Verdict) (tile : Option Tile) : Prop :=
  match v with
  | .reachesGoal => tile = some .goal
  | .fails .fellInHole => tile = some .hole
  | _ => tile = some .floor ∨ tile = some .start

/-- The tile under the robot. -/
def World.underfoot (w : World) : Option Tile := w.overlay.look? w.robot.cell

namespace World

variable {w w' : World} {a : Action} {v : Verdict}

@[simp] theorem underfoot_advance (w : World) :
    w.advance.underfoot = w.overlay.look? w.robot.ahead := rfl

/-- Filling a hole takes no floor and no start from under the robot, even if the robot
heads nowhere and the cell ahead is its own. -/
theorem underfoot_fill (hole : w.overlay.look? w.robot.ahead = some .hole)
    (h : w.underfoot = some .floor ∨ w.underfoot = some .start) :
    World.underfoot { w with overlay := w.overlay.put w.robot.ahead .floor } = some .floor ∨
      World.underfoot { w with overlay := w.overlay.put w.robot.ahead .floor } = some .start := by
  unfold underfoot
  by_cases hcell : w.robot.cell = w.robot.ahead
  · -- a heading of zero length
    left
    show (w.overlay.put w.robot.ahead .floor).look? w.robot.cell = some .floor
    rw [hcell, Grid.look?_put_self hole]
  · show (w.overlay.put w.robot.ahead .floor).look? w.robot.cell = some .floor ∨ _
    rw [Grid.look?_put_of_ne hcell (Grid.nonneg_of_look? hole)]
    exact h

/-- What an action leaves under a robot that stood on floor or start if it had moved. -/
theorem Does.stands (h : w.Does a w' v)
    (hfloor : 0 < w.moves → w.underfoot = some .floor ∨ w.underfoot = some .start)
    (hmoved : 0 < w'.moves) : v.Stands w'.underfoot := by
  cases h with
  | leaves _ | collides _ | turnsRight | turnsLeft | passes _ => exact hfloor hmoved
  | falls ahead => exact ahead
  | arrives ahead => exact ahead
  | walks ahead free =>
    -- the tile that was ahead is now underfoot
    rw [underfoot_advance, ahead]
    rcases free with rfl | rfl
    · exact .inl rfl
    · exact .inr rfl
  | fills ahead => exact underfoot_fill ahead (hfloor hmoved)

/-- The goal is reached by a move. -/
theorem Does.moves_pos (h : w.Does a w' .reachesGoal) : 0 < w'.moves := by
  cases h
  exact Nat.succ_pos _

end World

namespace Executor

variable {e e' : Executor}

/-- The world of an executor is in order: grids are square, and status and reason fit the
tile under a robot that has moved. -/
structure Grounded (e : Executor) : Prop where
  maze : e.maze.WellFormed
  square : e.world.overlay.Square
  success_moved : e.phase = .success → 0 < e.world.moves
  stands : 0 < e.world.moves → e.phase.Stands e.world.underfoot

/-- The phase after an action stands on what the action leaves under the robot. -/
theorem stands_phaseAfter {v : Verdict} {tile : Option Tile} (h : v.Stands tile)
    (trace : Trace) (cursor : Nat) : (phaseAfter trace cursor v).Stands tile := by
  cases v with
  | continues filled =>
    simp only [phaseAfter]
    split <;> exact h
  | reachesGoal => exact h
  | fails reason => cases reason <;> exact h

/-- A run only succeeds by reaching the goal. -/
theorem eq_reachesGoal_of_phaseAfter {trace : Trace} {cursor : Nat} {v : Verdict}
    (h : phaseAfter trace cursor v = .success) : v = .reachesGoal := by
  cases v with
  | continues filled =>
    simp only [phaseAfter] at h
    split at h <;> exact nomatch h
  | reachesGoal => rfl
  | fails reason => exact nomatch h

/-- Going back to the beginning undoes all moves. -/
theorem Grounded.rewind (h : e.Grounded) {phase : Phase} (hphase : phase ≠ .success) :
    (e.rewind phase).Grounded :=
  ⟨h.maze, h.maze.square, fun hs => absurd hs hphase, fun hm => absurd hm (Nat.lt_irrefl 0)⟩

/-- A step keeps the world in order. -/
theorem Grounded.step {r : StepResult} (h : e.Grounded) (hs : e.Steps e' r) : e'.Grounded := by
  cases hs with
  | exhausted due past =>
    -- running out of entries fails where a running robot may stand
    refine ⟨h.maze, h.square, nofun, fun hmoved => ?_⟩
    have hstood := h.stands hmoved
    rw [due] at hstood
    exact hstood
  | acts due entry effect =>
    have hdoes := World.does_of_perform h.square effect
    have hstood := h.stands
    rw [due] at hstood
    refine ⟨h.maze, hdoes.square h.square, fun hs => ?_, fun hmoved => ?_⟩
    · obtain rfl := eq_reachesGoal_of_phaseAfter hs
      exact hdoes.moves_pos
    · exact stands_phaseAfter (hdoes.stands hstood hmoved) _ _

/-- Every call keeps the world in order. -/
theorem Grounded.called {c : Call} {a : Answer} (h : e.Grounded) (hc : e.Called c e' a) :
    e'.Grounded := by
  cases hc with
  | starts _ => exact h.rewind nofun
  | pauses due =>
    refine ⟨h.maze, h.square, nofun, fun hmoved => ?_⟩
    -- a pause changes the phase only by its mark, and ground does not depend on that
    have hstood := h.stands hmoved
    rw [due] at hstood
    exact hstood
  | resets => exact h.rewind nofun
  | retraces => exact ⟨h.maze, h.square, h.success_moved, h.stands⟩
  | steps _ step => exact h.step step
  | edits edit => exact ⟨h.maze.setTile edit, h.square, h.success_moved, h.stands⟩
  | goesOn _ | rests _ | skips _ | raises _ | misses _ => exact h

/-- A new executor on a square maze has its world in order. -/
theorem grounded_create {m : Maze} (hm : m.WellFormed) (trace : Trace) (initial : Option Pose) :
    (create m trace initial).Grounded :=
  ⟨hm, hm.square, nofun, fun hmoved => absurd hmoved (Nat.lt_irrefl 0)⟩

/-- After any calls to an executor on a square maze its world is in order. -/
theorem grounded_serve {m : Maze} (hm : m.WellFormed) (trace : Trace) (initial : Option Pose)
    (calls : List Call) : ((create m trace initial).serve calls).1.Grounded :=
  serve_preserves Grounded.called (grounded_create hm trace initial) calls

/-! ## What is reported -/

/-- The tile of a phase determines, and is determined by, how the run stands. -/
theorem exists_tile_of_stands {p : Phase} {tile : Option Tile} (h : p.Stands tile) :
    ∃ t, tile = some t ∧ t ≠ .wall ∧ (t = .goal ↔ p.status = .success) ∧
      (t = .hole ↔ p.status = .failed ∧ p.reason? = some .fellInHole) ∧
      (p.status ≠ .success → ¬ (p.status = .failed ∧ p.reason? = some .fellInHole) →
        t = .floor ∨ t = .start) := by
  cases p with
  | success =>
    obtain rfl : tile = some .goal := h
    exact ⟨.goal, rfl, by decide⟩
  | failed reason =>
    cases reason with
    | fellInHole =>
      obtain rfl : tile = some .hole := h
      exact ⟨.hole, rfl, by decide⟩
    | _ =>
      obtain rfl | rfl : tile = some .floor ∨ tile = some .start := h
      · exact ⟨.floor, rfl, by decide⟩
      · exact ⟨.start, rfl, by decide⟩
  -- while nothing has been decided the robot is on open ground
  | idle | running _ _ =>
    obtain rfl | rfl : tile = some .floor ∨ tile = some .start := h
    · exact ⟨.floor, rfl, by simp [Phase.status]⟩
    · exact ⟨.start, rfl, by simp [Phase.status]⟩

/-- A reason other than running out of entries comes from the verdict. -/
theorem eq_fails_of_reason? {trace : Trace} {cursor : Nat} {v : Verdict} {reason : FailureReason}
    (h : (phaseAfter trace cursor v).reason? = some reason) (hne : reason ≠ .goalNotReached) :
    v = .fails reason := by
  cases v with
  | continues filled =>
    simp only [phaseAfter] at h
    split at h
    · exact nomatch h
    · exact absurd (Option.some.inj h).symm hne
  | reachesGoal => exact nomatch h
  | fails reason' =>
    obtain rfl := Option.some.inj h
    rfl

/-- A step that fails at an edge or at a wall leaves the world as it was. -/
theorem Steps.world_eq_of_blocked {r : StepResult} (hs : e.Steps e' r)
    (hsq : e.world.overlay.Square)
    (hr : r.reason = some .outOfBounds ∨ r.reason = some .wallCollision) :
    e'.world = e.world := by
  cases hs with
  | exhausted due past => rfl
  | acts due entry effect =>
    have hdoes := World.does_of_perform hsq effect
    refine hdoes.eq_of_blocked ?_
    rcases hr with hr | hr
    · exact .inl (eq_fails_of_reason? hr nofun)
    · exact .inr (eq_fails_of_reason? hr nofun)

/-- After any calls to an executor on a square maze, whatever its trace and the pose it
began from: a success has moved, and a robot that has moved is in bounds, on a tile that
tells how the run stands.  The next step, should it fail at an edge or at a wall, leaves
robot, grid and moves as they are. -/
theorem footing_serve (m : Maze) (hm : m.WellFormed) (trace : Trace) (initial : Option Pose)
    (calls : List Call) :
    let e := ((create m trace initial).serve calls).1
    let s := e.snapshot
    (s.status = .success → 0 < s.moves) ∧
    (0 < s.moves → s.grid.inBounds s.robot.cell = true ∧
      ∃ t, s.grid.tileAt s.robot.cell = .ok t ∧ t ≠ .wall ∧ (t = .goal ↔ s.status = .success) ∧
        (t = .hole ↔ s.status = .failed ∧ s.reason = some .fellInHole) ∧
        (s.status ≠ .success → ¬ (s.status = .failed ∧ s.reason = some .fellInHole) →
          t = .floor ∨ t = .start)) ∧
    ∀ token e' r, e.step token = .ok (e', some r) →
      r.reason = some .outOfBounds ∨ r.reason = some .wallCollision →
      e'.snapshot.robot = s.robot ∧ e'.snapshot.grid = s.grid ∧ e'.snapshot.moves = s.moves := by
  intro e s
  have he : e.Grounded := grounded_serve hm trace initial calls
  refine ⟨fun hs => ?_, fun hmoved => ?_, fun token e' r hstep hr => ?_⟩
  · refine he.success_moved ?_
    change e.phase.status = .success at hs
    cases hp : e.phase <;> simp_all [Phase.status]
  · obtain ⟨t, htile, hrest⟩ := exists_tile_of_stands (he.stands hmoved)
    exact ⟨he.square.inBounds_of_look? htile, t, Grid.tileAt_of_look? htile, hrest⟩
  -- both reasons are decided before the robot is moved
  · have hworld := (step_eq_some_iff.mp hstep).2.world_eq_of_blocked he.square hr
    show e'.world.robot = e.world.robot ∧ e'.world.overlay = e.world.overlay ∧
      e'.world.moves = e.world.moves
    rw [hworld]
    exact ⟨rfl, rfl, rfl⟩

/-- From outside of the grid over a filled hole and into the wall. -/
theorem footing_serve_trench :
    let calls : List Call := .start :: List.replicate 5 (.step none)
    let e := ((create .trench [.basic .forward, .basic .ifHole, .basic .forward,
      .basic .turnRight, .basic .forward] (some ⟨-1, 0, .east⟩)).serve calls).1
    Maze.trench.WellFormed ∧ e.snapshot.reason = some .wallCollision ∧ 0 < e.snapshot.moves ∧
      ∃ t, e.snapshot.grid.tileAt e.snapshot.robot.cell = .ok t ∧ (t = .floor ∨ t = .start) := by
  intro calls e
  have hmoved : 0 < e.snapshot.moves := by decide
  have hreason : e.snapshot.reason = some .wallCollision := by decide
  obtain ⟨-, hfoot, -⟩ := footing_serve .trench Maze.trench_wellFormed _ _ calls
  obtain ⟨-, t, htile, -, -, -, hfree⟩ := hfoot hmoved
  refine ⟨Maze.trench_wellFormed, hreason, hmoved, t, htile, hfree (by decide) ?_⟩
  rw [hreason]
  exact nofun

end Executor

end MazeRobot
