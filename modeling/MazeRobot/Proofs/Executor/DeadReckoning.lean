import MazeRobot.Proofs.Executor.Overlay
import MazeRobot.Proofs.Landmarks

/-!
# Dead reckoning

How far a robot can have come is told by its moves alone.  A robot that sets out along an axis
keeps to the axes, so every move takes it one cell nearer to the pose it set out from or one
cell further away: the distance is at most the number of moves, and both are even or both odd
(`World.Reckoned`).  A move is made by a forward, so there are at most as many as forwards have
been resolved since the run went back to its beginning.

No move leaves the grid.  A robot that begins on the grid stays there, and the start tile is
on the grid (`Maze.WellFormed.inBounds_startPose`).
-/

namespace MazeRobot

/-- The number of steps along the axes between two cells. -/
def Cell.distance (c d : Cell) : Nat := (c.x - d.x).natAbs + (c.y - d.y).natAbs

@[simp] theorem Cell.distance_self (c : Cell) : c.distance c = 0 := by
  simp [distance]

/-- A step along an axis leads one cell away from any cell or one towards it. -/
theorem Pose.distance_ahead {p : Pose} (h : p.heading ∈ Heading.compass) (c : Cell) :
    p.ahead.distance c = p.cell.distance c + 1 ∨ p.ahead.distance c + 1 = p.cell.distance c := by
  obtain ⟨x, y, heading⟩ := p
  simp only [Heading.compass, List.mem_cons, List.not_mem_nil, or_false] at h
  -- one coordinate changes by one, and its distance from that of `c` with it
  rcases h with rfl | rfl | rfl | rfl <;>
    simp only [ahead, cell, Cell.distance, Heading.east, Heading.south, Heading.west,
      Heading.north] <;> omega

namespace Answer

/-- The answer of a step that resolved a forward, whatever became of it. -/
def isForward : Answer → Bool
  | stepped (some r) => decide (r.command = some (.basic .forward))
  | _ => false

/-- The forwards resolved since the run last went back to its beginning. -/
def forwardsSinceRewind (answers : List Answer) : Nat :=
  (answers.reverse.takeWhile fun a => !a.isRewind).countP isForward

/-- A rewinding answer forgets the forwards, and any other adds one if it is that of a forward.
-/
theorem forwardsSinceRewind_concat {answers : List Answer} {a : Answer} :
    forwardsSinceRewind (answers ++ [a]) =
      if a.isRewind = true then 0
      else forwardsSinceRewind answers + if a.isForward = true then 1 else 0 := by
  unfold forwardsSinceRewind
  rw [List.reverse_append, List.reverse_singleton, List.singleton_append, List.takeWhile_cons]
  cases a.isRewind with
  | true => rfl
  | false => simp [List.countP_cons]

end Answer

namespace World

/-- The robot has come from `origin` along the axes. -/
structure Reckoned (origin : Pose) (w : World) : Prop where
  heading : w.robot.heading ∈ Heading.compass
  distance_le : w.robot.cell.distance origin.cell ≤ w.moves
  parity : w.robot.cell.distance origin.cell % 2 = w.moves % 2

/-- What can be told of a world from where its run began and from the forwards resolved since
then, on a grid with a given edge length. -/
structure Tracked (origin : Pose) (edge forwards : Nat) (w : World) : Prop where
  size_eq : w.overlay.size = edge
  reckoned : origin.heading ∈ Heading.compass → w.Reckoned origin
  inside : w.overlay.inBounds origin.cell = true → w.overlay.inBounds w.robot.cell = true
  moves_le : w.moves ≤ forwards

variable {origin : Pose} {edge forwards : Nat} {w w' : World} {a : Action} {v : Verdict}

/-- A move is one step along an axis, away from the origin or back towards it. -/
theorem Reckoned.advance (h : w.Reckoned origin) : w.advance.Reckoned origin := by
  have hstep := Pose.distance_ahead h.heading origin.cell
  have hle := h.distance_le
  have hparity := h.parity
  refine ⟨h.heading, ?_, ?_⟩
  · show w.robot.ahead.distance origin.cell ≤ w.moves + 1
    omega
  · show w.robot.ahead.distance origin.cell % 2 = (w.moves + 1) % 2
    omega

/-- Only a forward moves the robot, and a turn keeps it on the axes. -/
theorem Does.reckoned (hd : w.Does a w' v) (h : w.Reckoned origin) : w'.Reckoned origin := by
  cases hd with
  | leaves _ | collides _ | passes _ => exact h
  | falls _ | arrives _ | walks _ _ => exact h.advance
  | turnsRight => exact ⟨Heading.right_mem_compass h.heading, h.distance_le, h.parity⟩
  | turnsLeft => exact ⟨Heading.left_mem_compass h.heading, h.distance_le, h.parity⟩
  | fills _ => exact ⟨h.heading, h.distance_le, h.parity⟩

/-- A robot on the grid stays there. -/
theorem Does.inBounds (hd : w.Does a w' v) (hsq : w.overlay.Square)
    (h : w.overlay.inBounds w.robot.cell = true) : w'.overlay.inBounds w'.robot.cell = true := by
  rw [Grid.inBounds_of_size_eq hd.size_eq]
  cases hd with
  | falls ahead | arrives ahead | walks ahead _ => exact hsq.inBounds_of_look? ahead
  | _ => exact h

/-- Only a forward moves, and it does so once at most. -/
theorem Does.moves_le (hd : w.Does a w' v) :
    w'.moves ≤ w.moves + if a = .forward then 1 else 0 := by
  cases hd with
  | leaves _ | collides _ => exact Nat.le_add_right _ _
  | _ => exact Nat.le_refl _

/-- An action keeps what can be told, and a forward counts as one. -/
theorem Does.tracked (hd : w.Does a w' v) (hsq : w.overlay.Square)
    (h : w.Tracked origin edge forwards) :
    w'.Tracked origin edge (forwards + if a = .forward then 1 else 0) where
  size_eq := hd.size_eq.trans h.size_eq
  reckoned hheading := hd.reckoned (h.reckoned hheading)
  inside horigin := by
    rw [Grid.inBounds_of_size_eq hd.size_eq] at horigin
    exact hd.inBounds hsq (h.inside horigin)
  moves_le := Nat.le_trans hd.moves_le (Nat.add_le_add_right h.moves_le _)

/-- At the beginning nothing has been resolved, and the robot is where it sets out. -/
theorem tracked_fresh {m : Maze} (hm : m.WellFormed) (origin : Pose) :
    (Executor.freshWorld m origin).Tracked origin m.size 0 where
  size_eq := hm.rows_length
  reckoned hheading := by
    refine ⟨hheading, ?_, ?_⟩ <;> simp [Executor.freshWorld]
  inside := id
  moves_le := Nat.le_refl 0

end World

namespace Executor

/-- The world of an executor is tracked by the answers given so far. -/
structure Tracked (origin : Pose) (edge : Nat) (e : Executor) (answers : List Answer) : Prop where
  grounded : e.Grounded
  initial_eq : e.initial = origin
  edge_eq : e.maze.size = edge
  world : e.world.Tracked origin edge (Answer.forwardsSinceRewind answers)

variable {origin : Pose} {edge : Nat} {e e' : Executor} {answers : List Answer}

/-- Back at the beginning the forwards are counted anew. -/
theorem Tracked.world_rewind {a : Answer} (h : e.Tracked origin edge answers)
    (hrewind : a.isRewind = true) :
    (freshWorld e.maze e.initial).Tracked origin edge
      (Answer.forwardsSinceRewind (answers ++ [a])) := by
  rw [Answer.forwardsSinceRewind_concat, if_pos hrewind, h.initial_eq, ← h.edge_eq]
  exact World.tracked_fresh h.grounded.maze origin

/-- A step that is applied counts if it resolves a forward. -/
theorem Tracked.world_step {r : StepResult} (h : e.Tracked origin edge answers)
    (hs : e.Steps e' r) :
    e'.world.Tracked origin edge
      (Answer.forwardsSinceRewind (answers ++ [.stepped (some r)])) := by
  rw [Answer.forwardsSinceRewind_concat, if_neg (by exact Bool.false_ne_true)]
  cases hs with
  | exhausted due past => exact h.world
  | @acts cursor a w v due entry effect =>
    -- the answer names the command, whatever became of it
    have htracked := (World.does_of_perform h.grounded.square effect).tracked h.grounded.square
      h.world
    simpa [Answer.isForward] using htracked

/-- Every call keeps track. -/
theorem Tracked.called {c : Call} {a : Answer} (h : e.Tracked origin edge answers)
    (hc : e.Called c e' a) : e'.Tracked origin edge (answers ++ [a]) := by
  refine ⟨h.grounded.called hc, hc.initial_eq.trans h.initial_eq,
    (congrArg Maze.size hc.maze_eq).trans h.edge_eq, ?_⟩
  cases hc with
  | starts _ | resets => exact h.world_rewind rfl
  | steps _ step => exact h.world_step step
  | _ =>
    -- no step is applied and nothing is rewound
    rw [Answer.forwardsSinceRewind_concat]
    exact h.world

/-- A run that has not begun is where it begins. -/
theorem tracked_create {m : Maze} (hm : m.WellFormed) (trace : Trace) (initial : Option Pose) :
    (create m trace initial).Tracked (initial.getD m.startPose) m.size [] :=
  ⟨grounded_create hm trace initial, rfl, rfl, World.tracked_fresh hm _⟩

/-- After any calls to an executor on a square maze, whatever its trace: a robot that set out
along an axis looks along one, its distance from the pose it set out from is at most the
number of its moves, and both are even or both odd.  There are at most as many moves as
forwards resolved since the last rewind.  A robot that set out on the grid is on the grid, and
the start pose is on the grid, in whatever direction it looks. -/
theorem dead_reckoning (m : Maze) (hm : m.WellFormed) (trace : Trace) (initial : Option Pose)
    (calls : List Call) :
    let origin := initial.getD m.startPose
    let s := ((create m trace initial).serve calls).1.snapshot
    let answers := ((create m trace initial).serve calls).2
    (origin.heading ∈ Heading.compass →
      s.robot.heading ∈ Heading.compass ∧
      s.robot.cell.distance origin.cell ≤ s.moves ∧
      s.robot.cell.distance origin.cell % 2 = s.moves % 2) ∧
    s.moves ≤ Answer.forwardsSinceRewind answers ∧
    (m.grid.inBounds origin.cell = true → m.grid.inBounds s.robot.cell = true) ∧
    ∀ heading, m.grid.inBounds (m.startPose heading).cell = true := by
  intro origin s answers
  have h := serve_induction Tracked.called (tracked_create hm trace initial) calls
  rw [List.nil_append] at h
  have hsize : s.grid.size = m.grid.size := h.world.size_eq.trans hm.rows_length.symm
  -- holes are filled on the working copy, so its size is that of the maze
  refine ⟨fun hheading => ?_, h.world.moves_le, fun horigin => ?_, hm.inBounds_startPose⟩
  · have hreckoned := h.world.reckoned hheading
    exact ⟨hreckoned.heading, hreckoned.distance_le, hreckoned.parity⟩
  · rw [← Grid.inBounds_of_size_eq hsize] at horigin ⊢
    exact h.world.inside horigin

/-- Four forwards, the last one into a wall: three moves to a cell at distance three. -/
theorem dead_reckoning_trench :
    let trace : Trace := [.basic .turnRight, .basic .forward, .basic .forward, .basic .turnLeft,
      .basic .forward, .basic .turnLeft, .basic .forward]
    let calls : List Call := .start :: List.replicate 7 (.step none)
    let s := ((create .trench trace).serve calls).1.snapshot
    Maze.trench.WellFormed ∧ Maze.trench.startPose.heading ∈ Heading.compass ∧
      s.reason = some .wallCollision ∧ s.moves = 3 ∧
      Answer.forwardsSinceRewind ((create .trench trace).serve calls).2 = 4 ∧
      s.robot.cell.distance ⟨0, 0⟩ ≤ 3 ∧ s.robot.cell.distance ⟨0, 0⟩ % 2 = 1 ∧
      Maze.trench.grid.inBounds s.robot.cell = true := by
  intro trace calls s
  have heading : Maze.trench.startPose.heading ∈ Heading.compass := by decide
  have hmoves : s.moves = 3 := by decide
  obtain ⟨hreckoned, -, hinside, hstart⟩ :=
    dead_reckoning .trench Maze.trench_wellFormed trace none calls
  obtain ⟨-, hle, hparity⟩ := hreckoned heading
  refine ⟨Maze.trench_wellFormed, heading, by decide, hmoves, by decide, ?_, ?_,
    hinside (hstart _)⟩
  · exact hmoves ▸ hle
  · exact hparity.trans (congrArg (· % 2) hmoves)

end Executor

end MazeRobot
