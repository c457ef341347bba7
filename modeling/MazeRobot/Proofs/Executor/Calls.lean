import MazeRobot.Proofs.Executor.Step

/-!
# Sequences of calls

A `Call` is whatever can be asked of an executor from outside, replacing a tile of the
authoritative maze in place included.  `Executor.serve` makes calls in order and collects
their answers; a call that is refused leaves the executor as it was, and the calls after
it are still made.

`Executor.Called` lists everything that a single call can do.  An invariant of all
sequences of calls needs one case for each of its rules (`called`, `serve_induction`).
-/

namespace MazeRobot

/-- What can be asked of an executor. -/
inductive Call where
  | start
  | pause
  | reset
  | setTrace (trace : Trace)
  | step (token : Option Int)
  /-- A tile of the authoritative maze is replaced in place. -/
  | editTile (cell : Cell) (tile : Tile)
  deriving DecidableEq, Repr

/-- What a call answers. -/
inductive Answer where
  | started (did : Bool)
  | paused (did : Bool)
  | rewound
  | changed
  | stepped (result : Option StepResult)
  | refused (failure : Failure)

namespace Answer

/-- The answer of a start that began a run. -/
def isStart : Answer → Bool
  | started did => did
  | _ => false

/-- The answer of a start or a pause that took effect, or of a reset. -/
def isTransition : Answer → Bool
  | started did | paused did => did
  | rewound => true
  | _ => false

/-- The answer of a step that was applied. -/
def isApplied : Answer → Bool
  | stepped result => result.isSome
  | _ => false

end Answer

namespace Executor

/-- Makes a call: the executor afterwards and the answer. -/
def call (e : Executor) : Call → Executor × Answer
  | .start => (e.start.1, .started e.start.2)
  | .pause => (e.pause.1, .paused e.pause.2)
  | .reset => (e.reset, .rewound)
  | .setTrace trace => (e.setTrace trace, .changed)
  | .step token =>
    match e.step token with
    | .ok (e', result) => (e', .stepped result)
    | .error failure => (e, .refused failure)
  | .editTile cell tile =>
    match e.maze.setTile cell tile with
    | .ok maze => (e.setMaze maze, .changed)
    | .error fault => (e, .refused (.cell fault))

/-- The answer to a step, and a refused one leaves the executor as it was. -/
theorem call_step (e : Executor) (token : Option Int) :
    e.call (.step token) =
      match e.step token with
      | .ok (e', result) => (e', .stepped result)
      | .error failure => (e, .refused failure) := rfl

/-- An edit of a tile, and a refused one leaves the executor as it was. -/
theorem call_editTile (e : Executor) (cell : Cell) (tile : Tile) :
    e.call (.editTile cell tile) =
      match e.maze.setTile cell tile with
      | .ok maze => (e.setMaze maze, .changed)
      | .error fault => (e, .refused (.cell fault)) := rfl

/-- Makes calls in order: the executor after the last one, and all answers. -/
def serve (e : Executor) : List Call → Executor × List Answer
  | [] => (e, [])
  | c :: rest =>
    let (e, answer) := e.call c
    let (e, answers) := serve e rest
    (e, answer :: answers)

theorem serve_nil (e : Executor) : e.serve [] = (e, []) := rfl

theorem serve_cons (e : Executor) (c : Call) (rest : List Call) :
    e.serve (c :: rest) =
      (((e.call c).1.serve rest).1, (e.call c).2 :: ((e.call c).1.serve rest).2) := rfl

/-! ## What a call does -/

/-- What a call can do: the executor afterwards and the answer. -/
inductive Called (e : Executor) : Call → Executor → Answer → Prop where
  | starts (idle : ¬ e.isExecuting = true) :
      Called e .start (e.rewind (.running 0 false)) (.started true)
  | goesOn (busy : e.isExecuting = true) : Called e .start e (.started false)
  | pauses {cursor : Nat} (due : e.phase = .running cursor false) :
      Called e .pause
        { e with phase := .running cursor true, generation := e.generation + 1 } (.paused true)
  | rests (idle : ¬ e.isExecuting = true) : Called e .pause e (.paused false)
  | resets : Called e .reset (e.rewind .idle) .rewound
  | retraces {trace : Trace} : Called e (.setTrace trace) { e with trace } .changed
  | steps {token : Option Int} {e' : Executor} {r : StepResult} (current : e.Current token)
      (step : e.Steps e' r) : Called e (.step token) e' (.stepped (some r))
  | skips {token : Option Int} (notDue : ¬ (e.Current token ∧ e.isExecuting = true)) :
      Called e (.step token) e (.stepped none)
  | edits {cell : Cell} {tile : Tile} {maze : Maze} (edit : e.maze.setTile cell tile = .ok maze) :
      Called e (.editTile cell tile) { e with maze } .changed
  | raises {token : Option Int} {failure : Failure} (step : e.step token = .error failure) :
      Called e (.step token) e (.refused failure)
  | misses {cell : Cell} {tile : Tile} {fault : CellFault}
      (edit : e.maze.setTile cell tile = .error fault) :
      Called e (.editTile cell tile) e (.refused (.cell fault))

/-- A run that is executing is not started anew. -/
theorem start_of_executing {e : Executor} (h : e.isExecuting = true) : e.start = (e, false) :=
  if_pos h

/-- A start begins a run where none is executing. -/
theorem start_of_not_executing {e : Executor} (h : ¬ e.isExecuting = true) :
    e.start = (e.rewind (.running 0 false), true) :=
  if_neg h

/-- A run that is executing is held at its cursor. -/
theorem pause_of_running {e : Executor} {cursor : Nat} (due : e.phase = .running cursor false) :
    e.pause = ({ e with phase := .running cursor true, generation := e.generation + 1 }, true) := by
  unfold pause
  rw [due]

/-- A pause does nothing where no run is executing. -/
theorem pause_of_not_executing {e : Executor} (h : ¬ e.isExecuting = true) :
    e.pause = (e, false) := by
  unfold pause
  split
  · rename_i cursor due
    exact absurd (isExecuting_iff.mpr ⟨cursor, due⟩) h
  · rfl

/-- A call does one of the listed things. -/
theorem called (e : Executor) (c : Call) : e.Called c (e.call c).1 (e.call c).2 := by
  cases c with
  | start =>
    unfold call
    by_cases h : e.isExecuting = true
    · rw [start_of_executing h]
      exact .goesOn h
    · rw [start_of_not_executing h]
      exact .starts h
  | pause =>
    unfold call
    by_cases h : e.isExecuting = true
    · obtain ⟨cursor, due⟩ := isExecuting_iff.mp h
      rw [pause_of_running due]
      exact .pauses due
    · rw [pause_of_not_executing h]
      exact .rests h
  | reset => exact .resets
  | setTrace trace => exact .retraces
  | step token =>
    rw [call_step]
    -- a step is refused, was not due, or is applied
    cases hstep : e.step token with
    | error failure => exact .raises hstep
    | ok p =>
      obtain ⟨e', result⟩ := p
      cases result with
      | none =>
        obtain ⟨rfl, notDue⟩ := step_eq_none_iff.mp hstep
        exact .skips notDue
      | some r =>
        obtain ⟨current, step⟩ := step_eq_some_iff.mp hstep
        exact .steps current step
  | editTile cell tile =>
    rw [call_editTile]
    cases hedit : e.maze.setTile cell tile with
    | error fault => exact .misses hedit
    | ok maze => exact .edits hedit

/-- No call changes the pose that runs begin from. -/
theorem Called.initial_eq {e e' : Executor} {c : Call} {a : Answer} (h : e.Called c e' a) :
    e'.initial = e.initial := by
  cases h with
  | steps _ step => cases step <;> rfl
  | _ => rfl

/-- No call changes more of the maze than its grid. -/
theorem Called.maze_eq {e e' : Executor} {c : Call} {a : Answer} (h : e.Called c e' a) :
    e'.maze = { e.maze with grid := e'.maze.grid } := by
  cases h with
  | steps _ step => cases step <;> rfl
  | @edits cell tile maze edit =>
    unfold Maze.setTile at edit
    cases hset : e.maze.grid.setTile cell tile with
    | error fault =>
      rw [hset] at edit
      exact nomatch edit
    | ok grid =>
      rw [hset] at edit
      obtain rfl := Except.ok.inj edit
      rfl
  | _ => rfl

/-- Only a `setTrace` changes the trace. -/
theorem Called.trace_eq {e e' : Executor} {c : Call} {a : Answer} (h : e.Called c e' a) :
    e'.trace = e.trace ∨ c = .setTrace e'.trace := by
  cases h with
  | steps _ step => exact .inl step.trace_eq
  | retraces => exact .inr rfl
  | _ => exact .inl rfl

/-- What holds of an executor and of wherever a step takes it holds after the call of a step,
whatever the call answers. -/
theorem call_step_preserves {P : Executor → Prop} {e : Executor} (start : P e)
    (step : ∀ {e' r}, e.Steps e' r → P e') (token : Option Int) :
    P (e.call (.step token)).1 := by
  have hcalled := called e (.step token)
  generalize (e.call (.step token)).1 = e' at hcalled ⊢
  generalize (e.call (.step token)).2 = answer at hcalled
  cases hcalled with
  | steps _ hstep => exact step hstep
  | skips _ => exact start
  | raises _ => exact start

/-- What every call keeps holds after all calls.  The answers so far may be part of it. -/
theorem serve_induction {P : Executor → List Answer → Prop}
    (step : ∀ {e answers c e' answer}, P e answers → Called e c e' answer →
      P e' (answers ++ [answer]))
    {e : Executor} {answers : List Answer} (start : P e answers) (cs : List Call) :
    P (e.serve cs).1 (answers ++ (e.serve cs).2) := by
  induction cs generalizing e answers with
  | nil => rwa [serve_nil, List.append_nil]
  | cons c cs ih =>
    -- the answer of the first call joins those given before
    rw [serve_cons, ← List.singleton_append, ← List.append_assoc]
    exact ih (step start (called e c))

/-- The same, for what does not depend on the answers. -/
theorem serve_preserves {P : Executor → Prop}
    (step : ∀ {e c e' answer}, P e → Called e c e' answer → P e') {e : Executor} (start : P e)
    (cs : List Call) : P (e.serve cs).1 := by
  induction cs generalizing e with
  | nil => exact start
  | cons c cs ih => exact ih (step start (called e c))

end Executor

end MazeRobot
