import MazeRobot.Proofs.Executor.Calls

/-!
# An executor as separate fields

The phase of an `Executor` holds status, pause, cursor and reason in one value, so that no
executor can be paused without running or have failed without a reason.  A machine has a field
for each of them and assigns one after the other: nothing but the order and the completeness of
those assignments keeps the fields in step.

`Fields` is the executor as such a record.  The calls are made on it the way a machine makes
them (`Piecework`): fields are assigned one by one, a refused call keeps whatever has been
assigned before, and every look-up in the trace or in the grid goes through a signed position,
which would count from the end if it were negative.  Each such access is noted together with
the length of what was accessed.

## Main definitions

- `Fields`, `Executor.fields`: the record, and an executor seen as one
- `Piecework`: the pieces that calls are made of
- `Fields.call`, `Fields.serve`: one call and calls in order, piece by piece
-/

namespace MazeRobot

/-! ## The record -/

/-- What an executor keeps, each thing in a field of its own. -/
structure Fields where
  maze : Maze
  initial : Pose
  trace : Trace
  status : RunStatus
  paused : Bool
  /-- The index of the entry that is due; minus one is meant to say that there is none. -/
  cursor : Int
  robot : Pose
  overlay : Grid
  moves : Nat
  reason : Option FailureReason
  generation : Nat
  deriving DecidableEq, Repr

namespace Fields

/-- The fields of a new executor. -/
def create (maze : Maze) (trace : Trace) (initial : Option Pose := none) : Fields :=
  let initial := initial.getD maze.startPose
  { maze, initial, trace, status := .idle, paused := false, cursor := -1, robot := initial,
    overlay := maze.grid, moves := 0, reason := none, generation := 0 }

/-- Running and not paused. -/
def isExecuting (f : Fields) : Bool := f.status = .running && !f.paused

/-- What renderers see. -/
def snapshot (f : Fields) : Snapshot where
  status := f.status
  paused := f.paused
  cursor := f.cursor
  trace := f.trace
  robot := f.robot
  grid := f.overlay
  moves := f.moves
  message :=
    match f.reason with
    | some reason => reason.message
    | none => ""
  reason := f.reason
  generation := f.generation

end Fields

namespace Executor

/-- The executor as separate fields. -/
def fields (e : Executor) : Fields where
  maze := e.maze
  initial := e.initial
  trace := e.trace
  status := e.phase.status
  paused := e.phase.isPaused
  cursor := e.phase.cursor
  robot := e.world.robot
  overlay := e.world.overlay
  moves := e.world.moves
  reason := e.phase.reason?
  generation := e.generation

/-- A new executor has the fields of a new executor. -/
theorem fields_create (maze : Maze) (trace : Trace) (initial : Option Pose) :
    (create maze trace initial).fields = Fields.create maze trace initial := rfl

/-- The fields show what the executor shows. -/
theorem snapshot_fields (e : Executor) : e.fields.snapshot = e.snapshot := rfl

/-- The fields tell whether a run is executing. -/
theorem isExecuting_fields (e : Executor) : e.fields.isExecuting = e.isExecuting := by
  unfold Fields.isExecuting isExecuting fields
  cases e.phase with
  | running cursor paused => cases paused <;> rfl
  | _ => rfl

/-- A phase is told by what is reported of it. -/
theorem phase_eq_of_reports {p q : Phase} (hstatus : p.status = q.status)
    (hpaused : p.isPaused = q.isPaused) (hcursor : p.cursor = q.cursor)
    (hreason : p.reason? = q.reason?) : p = q := by
  cases p with
  | idle =>
    cases q with
    | idle => rfl
    | _ => cases hstatus
  | running cursor paused =>
    cases q with
    | running cursor' paused' =>
      obtain rfl : paused = paused' := hpaused
      obtain rfl : cursor = cursor' := Int.ofNat.inj hcursor
      rfl
    | _ => cases hstatus
  | success =>
    cases q with
    | success => rfl
    | _ => cases hstatus
  | failed reason =>
    cases q with
    | failed reason' =>
      obtain rfl : reason = reason' := Option.some.inj hreason
      rfl
    | _ => cases hstatus

/-- Nothing of an executor is lost in its fields. -/
theorem fields_inj {e e' : Executor} : e.fields = e'.fields ↔ e = e' := by
  constructor
  · intro h
    have hphase : e.phase = e'.phase :=
      phase_eq_of_reports (congrArg Fields.status h) (congrArg Fields.paused h)
        (congrArg Fields.cursor h) (congrArg Fields.reason h)
    obtain ⟨maze, trace, initial, phase, ⟨robot, overlay, moves⟩, generation⟩ := e
    obtain ⟨maze', trace', initial', phase', ⟨robot', overlay', moves'⟩, generation'⟩ := e'
    obtain rfl : phase = phase' := hphase
    simp_all [fields]
  · rintro rfl
    rfl

end Executor

/-! ## The pieces of a call -/

/-- An element of a list that was read or written: its signed position, and the length of the
list. -/
structure Access where
  position : Int
  length : Nat
  deriving DecidableEq, Repr

/-- Whether the position counts from the front and names an element. -/
def Access.Inside (a : Access) : Prop := 0 ≤ a.position ∧ a.position < a.length

/-- An executor in the middle of a call, and what has been accessed so far. -/
structure Bench where
  fields : Fields
  accesses : List Access

/-- A piece of a call.  It keeps what it has done to the fields even if it is refused. -/
abbrev Piecework := EStateM Failure Bench

namespace Piecework

/-- Notes an access. -/
def note (position : Int) (length : Nat) : Piecework Unit :=
  modify fun b => { b with accesses := b.accesses ++ [⟨position, length⟩] }

/-- Reads the element at a signed position. -/
def fetch (xs : List α) (i : Int) : Piecework α := do
  note i xs.length
  match Position.get xs i with
  | .ok a => return a
  | .error _ => throw (.cell .reading)

/-- Writes the element at a signed position. -/
def store (xs : List α) (i : Int) (a : α) : Piecework (List α) := do
  note i xs.length
  match Position.set xs i a with
  | .ok ys => return ys
  | .error _ => throw (.cell .writing)

/-- The fields as they stand. -/
def fields : Piecework Fields := do return (← get).fields

/-- Assigns to a field. -/
def assign (g : Fields → Fields) : Piecework Unit :=
  modify fun b => { b with fields := g b.fields }

/-- The tile of a cell, the row first. -/
def tileAt (c : Cell) : Piecework Tile := do
  let f ← fields
  let row ← fetch f.overlay.rows c.y
  fetch row c.x

/-- Replaces the tile of a cell and puts the row back. -/
def setTile (c : Cell) (t : Tile) : Piecework Unit := do
  let f ← fields
  let row ← fetch f.overlay.rows c.y
  let row ← store row c.x t
  let rows ← store f.overlay.rows c.y row
  assign fun f => { f with overlay := ⟨rows⟩ }

/-! ### Steps -/

/-- The run ends as failed. -/
def fail (reason : FailureReason) : Piecework Unit := do
  assign fun f => { f with status := .failed }
  assign fun f => { f with reason := some reason }
  assign fun f => { f with cursor := -1 }

/-- The run ends at the goal. -/
def arrive : Piecework Unit := do
  assign fun f => { f with status := .success }
  assign fun f => { f with cursor := -1 }

/-- The cursor goes on to the next entry. -/
def proceed : Piecework Unit :=
  assign fun f => { f with cursor := f.cursor + 1 }

/-- The robot steps onto a cell, and the move is counted. -/
def advance (c : Cell) : Piecework Unit := do
  assign fun f => { f with robot := f.robot.movedTo c }
  assign fun f => { f with moves := f.moves + 1 }

/-- Moves towards a cell that holds a tile. -/
def enter (c : Cell) (target : Tile) : Piecework Unit := do
  if target = .wall then fail .wallCollision
  else
    advance c
    if target = .hole then fail .fellInHole
    else if target = .goal then arrive
    else proceed

/-- Tries to step forward. -/
def forward : Piecework Unit := do
  let f ← fields
  let ahead := f.robot.ahead
  if f.overlay.inBounds ahead then enter ahead (← tileAt ahead) else fail .outOfBounds

/-- Fills the hole ahead and tells where it was. -/
def fillHole : Piecework (Option Cell) := do
  let f ← fields
  let ahead := f.robot.ahead
  if f.overlay.inBounds ahead then
    if (← tileAt ahead) = .hole then
      setTile ahead .floor
      return some ahead
    else return none
  else return none

/-- Resolves one entry of the trace; the answer is the cell that was filled. -/
def resolve (index : Nat) : Command → Piecework (Option Cell)
  | .basic .forward => do
    forward
    return none
  | .basic .turnRight => do
    assign fun f => { f with robot := f.robot.turnedRight }
    proceed
    return none
  | .basic .turnLeft => do
    assign fun f => { f with robot := f.robot.turnedLeft }
    proceed
    return none
  | .basic .ifHole => do
    let filled ← fillHole
    proceed
    return filled
  | .loop _ _ => throw (.loopInTrace index)

/-- Notices the end of the trace. -/
def finish : Piecework Unit := do
  let f ← fields
  if f.status = .running ∧ f.trace.length ≤ f.cursor then fail .goalNotReached

/-- What is reported of a step, read off the fields at its end. -/
def result (index : Nat) (command : Option Command) (filled : Option Cell) :
    Piecework StepResult := do
  let f ← fields
  return ⟨index, command, f.robot, f.status, f.reason, filled⟩

/-- Resolves the entry at a position, if the trace goes on that far. -/
def stepAt (index : Int) : Piecework StepResult := do
  let f ← fields
  if f.trace.length ≤ index then
    fail .goalNotReached
    result index.toNat none none
  else
    let c ← fetch f.trace index
    let filled ← resolve index.toNat c
    finish
    result index.toNat (some c) filled

/-- A whole step.  The cursor is a signed position, and whether a run is executing is asked of
the status and of the pause. -/
def step (token : Option Int) : Piecework (Option StepResult) := do
  let f ← fields
  if token.all (· == (f.generation : Int)) && f.isExecuting then return some (← stepAt f.cursor)
  else return none

/-! ### Transitions -/

/-- Everything a run has changed goes back to where it was. -/
def rewind : Piecework Unit := do
  assign fun f => { f with generation := f.generation + 1 }
  assign fun f => { f with paused := false }
  assign fun f => { f with robot := f.initial }
  assign fun f => { f with overlay := f.maze.grid }
  assign fun f => { f with moves := 0 }
  assign fun f => { f with reason := none }

/-- Begins a fresh run, unless one is executing. -/
def start : Piecework Bool := do
  let f ← fields
  if f.isExecuting then return false
  else
    rewind
    assign fun f => { f with status := .running }
    assign fun f => { f with cursor := 0 }
    return true

/-- Pauses an executing run. -/
def pause : Piecework Bool := do
  let f ← fields
  if f.isExecuting then
    assign fun f => { f with paused := true }
    assign fun f => { f with generation := f.generation + 1 }
    return true
  else return false

/-- Back to idle. -/
def reset : Piecework Unit := do
  rewind
  assign fun f => { f with status := .idle }
  assign fun f => { f with cursor := -1 }

/-- A tile of the authoritative maze is replaced in place. -/
def editTile (c : Cell) (t : Tile) : Piecework Unit := do
  let f ← fields
  match f.maze.setTile c t with
  | .ok maze => assign fun f => { f with maze }
  | .error fault => throw (.cell fault)

/-- Makes a call. -/
def call : Call → Piecework Answer
  | .start => return .started (← start)
  | .pause => return .paused (← pause)
  | .reset => do
    reset
    return .rewound
  | .setTrace trace => do
    assign fun f => { f with trace }
    return .changed
  | .step token => return .stepped (← step token)
  | .editTile cell tile => do
    editTile cell tile
    return .changed

end Piecework

namespace Fields

/-- Makes a call piece by piece: the fields afterwards and the answer.  A refused call leaves
what it had assigned by then. -/
def call (f : Fields) (c : Call) : Fields × Answer :=
  match (Piecework.call c).run ⟨f, []⟩ with
  | .ok answer b => (b.fields, answer)
  | .error failure b => (b.fields, .refused failure)

/-- Makes calls in order: the fields after the last one, and all answers. -/
def serve (f : Fields) : List Call → Fields × List Answer
  | [] => (f, [])
  | c :: rest =>
    let (f, answer) := f.call c
    let (f, answers) := serve f rest
    (f, answer :: answers)

theorem serve_cons (f : Fields) (c : Call) (rest : List Call) :
    f.serve (c :: rest) =
      (((f.call c).1.serve rest).1, (f.call c).2 :: ((f.call c).1.serve rest).2) := rfl

end Fields

end MazeRobot
