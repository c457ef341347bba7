import MazeRobot.Proofs.Executor.Calls
import MazeRobot.Proofs.Symmetry

/-!
# Runs on a turned or transposed maze

An executor can be moved by a symmetry of the square as a whole: its maze, its overlay and
its poses.  A transposition also exchanges right and left turns in the trace.  Steps then do
to the image what the symmetry makes of what they do to the executor (`step_executor`), steps
that are refused included, so that two such runs can be told apart at no time.

An image is one of an `n` by `n` grid, and what carries through a run is that the overlay
keeps the maze's edge length (`Fitted`).
-/

namespace MazeRobot

/-- The overlay is a square of the maze's edge length. -/
structure Executor.Fitted (e : Executor) : Prop where
  square : e.world.overlay.Square
  size_eq : e.world.overlay.size = e.maze.size

namespace Symmetry

mutual

/-- The command that does in the image what a command does. -/
def command (s : Symmetry) : Command → Command
  | .basic a => .basic (s.action a)
  | .loop count body => .loop count (trace s body)

/-- The trace that does in the image what a trace does. -/
def trace (s : Symmetry) : Trace → Trace
  | [] => []
  | c :: rest => command s c :: trace s rest

end

/-- The maze moved. -/
def maze (s : Symmetry) (m : Maze) : Maze := { m with grid := s.grid m.grid }

/-- The executor moved, with all that it works on. -/
def executor (s : Symmetry) (e : Executor) : Executor where
  maze := s.maze e.maze
  trace := s.trace e.trace
  initial := s.pose e.maze.size e.initial
  phase := e.phase
  world := s.world e.maze.size e.world
  generation := e.generation

/-- What a step on an `n` by `n` grid has to report in the image. -/
def result (s : Symmetry) (n : Nat) (r : StepResult) : StepResult :=
  { r with
    command := r.command.map s.command
    robot := s.pose n r.robot
    filled := r.filled.map (s.cell n) }

/-- What a call has to answer in the image. -/
def answer (s : Symmetry) (n : Nat) (a : Answer) : Answer :=
  match a with
  | .stepped r => .stepped (r.map (s.result n))
  | a => a

variable {e : Executor}

/-! ## Traces -/

/-- An entry of the moved trace is that of the trace, moved. -/
theorem getElem?_trace (s : Symmetry) (t : Trace) (i : Nat) :
    (s.trace t)[i]? = t[i]?.map s.command := by
  induction t generalizing i with
  | nil => rfl
  | cons c rest ih =>
    cases i with
    | zero => rfl
    | succ i => exact ih i

@[simp] theorem length_trace (s : Symmetry) (t : Trace) : (s.trace t).length = t.length := by
  induction t with
  | nil => rfl
  | cons c rest ih => rw [trace, List.length_cons, List.length_cons, ih]

mutual

/-- Turning the maze leaves commands alone: the robot tells left from right as before. -/
@[simp] theorem command_quarterTurn : (c : Command) → quarterTurn.command c = c
  | .basic _ => rfl
  | .loop count body => congrArg (Command.loop count) (trace_quarterTurn body)

/-- A quarter turn leaves traces as they are. -/
@[simp] theorem trace_quarterTurn : (t : Trace) → quarterTurn.trace t = t
  | [] => rfl
  | c :: rest => congrArg₂ List.cons (command_quarterTurn c) (trace_quarterTurn rest)

end

/-- How a run goes on does not depend on where the maze was moved. -/
theorem phaseAfter_verdict (s : Symmetry) (n : Nat) (t : Trace) (cursor : Nat) (v : Verdict) :
    Executor.phaseAfter (s.trace t) cursor (s.verdict n v) = Executor.phaseAfter t cursor v := by
  cases v with
  | continues filled => simp only [verdict, Executor.phaseAfter, length_trace]
  | _ => rfl

/-- The filled cell of a moved verdict is that of the verdict, moved. -/
theorem filledBy_verdict (s : Symmetry) (n : Nat) (v : Verdict) :
    Executor.filledBy (s.verdict n v) = (Executor.filledBy v).map (s.cell n) := by
  cases v <;> rfl

/-! ## Steps -/

/-- A step at the cursor of the image is the image of the step. -/
theorem stepAt_executor (s : Symmetry) (he : e.Fitted) (cursor : Nat) :
    (s.executor e).stepAt cursor =
      (e.stepAt cursor).map fun (e', r) => (s.executor e', s.result e.maze.size r) := by
  have hentry : (s.executor e).trace[cursor]? = e.trace[cursor]?.map s.command :=
    s.getElem?_trace e.trace cursor
  unfold Executor.stepAt
  rw [hentry]
  cases e.trace[cursor]? with
  | none => rfl
  | some c =>
    cases c with
    -- refused on both sides, at the same cursor
    | loop count body => rfl
    | basic a =>
      have hperform : (s.executor e).world.perform (s.action a) = _ :=
        s.perform_world he.square he.size_eq a
      simp only [Option.map_some, command, hperform]
      cases e.world.perform a with
      | none => rfl
      | some p =>
        obtain ⟨w', v⟩ := p
        have hphase := s.phaseAfter_verdict e.maze.size e.trace cursor v
        have hfilled := s.filledBy_verdict e.maze.size v
        simp only [Option.map_some, executor, hphase, hfilled]
        rfl

/-- A step of the image is the image of the step. -/
theorem step_executor (s : Symmetry) (he : e.Fitted) (token : Option Int) :
    (s.executor e).step token =
      (e.step token).map fun (e', r) => (s.executor e', r.map (s.result e.maze.size)) := by
  -- the image is due for the same step, or for none
  by_cases h : e.Current token ∧ e.isExecuting = true
  · obtain ⟨hcurrent, hexec⟩ := h
    obtain ⟨cursor, due⟩ := Executor.isExecuting_iff.mp hexec
    have hcurrent' : (s.executor e).Current token := hcurrent
    have due' : (s.executor e).phase = .running cursor false := due
    rw [Executor.step_of_due hcurrent due, Executor.step_of_due hcurrent' due',
      s.stepAt_executor he]
    cases e.stepAt cursor with
    | error failure => rfl
    | ok p => rfl
  · have h' : ¬ ((s.executor e).Current token ∧ (s.executor e).isExecuting = true) := h
    rw [Executor.step_of_not_due h, Executor.step_of_not_due h']
    rfl

/-- The step of a moved executor is the step of the executor, moved. -/
theorem call_step_executor (s : Symmetry) (he : e.Fitted) (token : Option Int) :
    (s.executor e).call (.step token) =
      (s.executor (e.call (.step token)).1, s.answer e.maze.size (e.call (.step token)).2) := by
  rw [Executor.call_step, Executor.call_step, s.step_executor he]
  cases e.step token with
  | error failure => rfl
  | ok p => rfl

/-- The image of a well-formed maze is one. -/
theorem wellFormed_maze (s : Symmetry) {m : Maze} (hm : m.WellFormed) : (s.maze m).WellFormed := by
  have hsize : (s.grid m.grid).size = m.size := (s.size_grid m.grid).trans hm.rows_length
  exact ⟨hm.size_pos, hsize, fun row hrow =>
    ((s.square_grid hm.square).row_length row hrow).trans hsize⟩

end Symmetry

namespace Executor

variable {e e' : Executor} {r : StepResult}

/-- A step keeps maze and overlay of one size. -/
theorem Fitted.step (he : e.Fitted) (h : e.Steps e' r) : e'.Fitted := by
  cases h with
  | exhausted due past => exact ⟨he.square, he.size_eq⟩
  | acts due entry effect =>
    have hdoes := World.does_of_perform he.square effect
    exact ⟨hdoes.square he.square, hdoes.size_eq.trans he.size_eq⟩

/-- A step never changes the authoritative maze, refused or not. -/
theorem maze_call_step (e : Executor) (token : Option Int) :
    (e.call (.step token)).1.maze = e.maze :=
  call_step_preserves (P := fun e' => e'.maze = e.maze) rfl Steps.maze_eq token

/-- The call of a step keeps maze and overlay of one size, refused or not. -/
theorem Fitted.call_step (he : e.Fitted) (token : Option Int) :
    (e.call (.step token)).1.Fitted :=
  call_step_preserves he he.step token

/-- Steps keep the maze. -/
theorem maze_serve_steps (e : Executor) (tokens : List (Option Int)) :
    (e.serve (tokens.map .step)).1.maze = e.maze := by
  induction tokens generalizing e with
  | nil => rfl
  | cons token rest ih =>
    rw [List.map_cons, serve_cons, ih]
    exact maze_call_step e token

/-- Steps of the image are the images of the steps. -/
theorem serve_steps_executor (s : Symmetry) (he : e.Fitted) (tokens : List (Option Int)) :
    (s.executor e).serve (tokens.map .step) =
      (s.executor (e.serve (tokens.map .step)).1,
        (e.serve (tokens.map .step)).2.map (s.answer e.maze.size)) := by
  -- on the tokens; the maze stays, so all images are taken at one edge length
  induction tokens generalizing e with
  | nil => rfl
  | cons token rest ih =>
    rw [List.map_cons, serve_cons, serve_cons, s.call_step_executor he, ih (he.call_step token),
      maze_call_step, List.map_cons]

/-- When a run begins maze and overlay have one size. -/
theorem fitted_start {m : Maze} (hm : m.WellFormed) (trace : Trace) (initial : Option Pose) :
    (create m trace initial).start.1.Fitted :=
  ⟨hm.square, hm.rows_length⟩

/-- The run on the moved maze, from the moved pose, is at every time the run moved: after a
start and any steps the snapshots differ only in that robot, grid and trace are moved, and
the answers in that robots, commands and the cells of filled holes are.  The moved maze holds
at the image of each cell the tile of the cell, and the moved trace is the trace, with right
and left exchanged if the maze was transposed. -/
theorem serve_symmetric (s : Symmetry) (m : Maze) (hm : m.WellFormed) (trace : Trace) (p : Pose)
    (tokens : List (Option Int)) :
    let calls : List Call := .start :: tokens.map .step
    let run := (create m trace (some p)).serve calls
    let run' := (create (s.maze m) (s.trace trace) (some (s.pose m.size p))).serve calls
    ((s.maze m).WellFormed ∧
      (∀ c, (s.maze m).grid.look? (s.cell m.size c) = m.grid.look? c) ∧
      Symmetry.quarterTurn.trace trace = trace) ∧
    run'.1.snapshot =
      { run.1.snapshot with
        trace := s.trace run.1.snapshot.trace
        robot := s.pose m.size run.1.snapshot.robot
        grid := s.grid run.1.snapshot.grid } ∧
    run'.2 = run.2.map (s.answer m.size) := by
  intro calls run run'
  have hcell : ∀ c, (s.maze m).grid.look? (s.cell m.size c) = m.grid.look? c := by
    intro c
    have hlook := s.look?_grid hm.square c
    rwa [Grid.size, hm.rows_length] at hlook
  -- both are started, and the second is then the image of the first
  have hsteps := serve_steps_executor s (fitted_start hm trace (some p)) tokens
  have hmaze := maze_serve_steps (create m trace (some p)).start.1 tokens
  have hrun : run =
      (((create m trace (some p)).start.1.serve (tokens.map .step)).1,
        .started true :: ((create m trace (some p)).start.1.serve (tokens.map .step)).2) := rfl
  have hrun' : run' =
      (((s.executor (create m trace (some p)).start.1).serve (tokens.map .step)).1,
        .started true ::
          ((s.executor (create m trace (some p)).start.1).serve (tokens.map .step)).2) := rfl
  rw [hsteps] at hrun'
  refine ⟨⟨s.wellFormed_maze hm, hcell, Symmetry.trace_quarterTurn trace⟩, ?_, ?_⟩
  · have himage : run'.1 = s.executor run.1 := by rw [hrun', hrun]
    have hsize : run.1.maze.size = m.size := by
      rw [hrun]
      exact congrArg Maze.size hmaze
    rw [himage, ← hsize]
    rfl
  · rw [hrun', hrun]
    rfl

/-- On the turned maze the robot heads down the right edge, over the filled hole, and then
into the same wall. -/
theorem serve_symmetric_trench :
    let trace : Trace := [.basic .ifHole, .basic .forward, .basic .turnRight, .basic .forward]
    let turned : Maze := Symmetry.quarterTurn.maze .trench
    let run' := (create turned (Symmetry.quarterTurn.trace trace)
      (some (Symmetry.quarterTurn.pose Maze.trench.size ⟨0, 0, .east⟩))).serve
        (.start :: [none, some 1, none, none].map .step)
    Maze.trench.WellFormed ∧
      turned.grid =
        ⟨[[.floor, .floor, .start], [.floor, .wall, .hole], [.floor, .floor, .goal]]⟩ ∧
      run'.1.snapshot.robot = ⟨2, 1, .west⟩ ∧ run'.1.snapshot.reason = some .wallCollision ∧
      run'.1.snapshot.grid =
        ⟨[[.floor, .floor, .start], [.floor, .wall, .floor], [.floor, .floor, .goal]]⟩ := by
  intro trace turned run'
  obtain ⟨-, hsnapshot, -⟩ := serve_symmetric .quarterTurn .trench Maze.trench_wellFormed trace
    ⟨0, 0, .east⟩ [none, some 1, none, none]
  refine ⟨Maze.trench_wellFormed, by decide, ?_⟩
  show run'.1.snapshot.robot = _ ∧ run'.1.snapshot.reason = _ ∧ run'.1.snapshot.grid = _
  rw [hsnapshot]
  decide

end Executor

end MazeRobot
