import MazeRobot.Command.Unroll
import MazeRobot.Executor.World
import MazeRobot.Failure
import MazeRobot.Maze.Basic

/-! # Running a trace

An `Executor` runs a trace on one maze, one entry per step.  Where it stands is its
`Phase`: only a running executor has a cursor, only a failed one has a reason, and a
pause is a way of running.

`start` and `reset` take the world back to the maze and the initial pose; there is no
resuming in place.  Whatever makes a pending step obsolete (an effective start or pause,
a reset) raises the `generation`, and a step that was scheduled under another generation
does nothing.

The end of the trace is noticed inside the step that uses up its last entry. -/

namespace MazeRobot

/-- How a run stands, as reported. -/
inductive RunStatus where
  | idle
  | running
  | success
  | failed
  deriving DecidableEq, Repr, Inhabited

namespace RunStatus

/-- The statuses in the order in which they are listed. -/
def all : List RunStatus := [idle, running, success, failed]

/-- The name of a status in records. -/
def word : RunStatus → String
  | idle => "idle"
  | running => "running"
  | success => "success"
  | failed => "failed"

end RunStatus

/-- How a run stands. -/
inductive Phase where
  | idle
  /-- The entry at `cursor` is due. -/
  | running (cursor : Nat) (paused : Bool)
  | success
  | failed (reason : FailureReason)
  deriving DecidableEq, Repr, Inhabited

namespace Phase

/-- The status that is reported of a phase. -/
def status : Phase → RunStatus
  | idle => .idle
  | running _ _ => .running
  | success => .success
  | failed _ => .failed

/-- Whether the run is held; only a running one can be. -/
def isPaused : Phase → Bool
  | running _ paused => paused
  | _ => false

/-- Running and not paused. -/
def isExecuting : Phase → Bool
  | running _ paused => !paused
  | _ => false

/-- The index of the entry that is due, or minus one. -/
def cursor : Phase → Int
  | running cursor _ => cursor
  | _ => -1

/-- Why the run failed, if it did. -/
def reason? : Phase → Option FailureReason
  | failed reason => some reason
  | _ => none

/-- The failure in words; empty unless the run failed. -/
def message (p : Phase) : String :=
  match p.reason? with
  | some reason => reason.message
  | none => ""

end Phase

/-- A run of one trace on one maze. -/
structure Executor where
  /-- The authoritative maze; steps never change it. -/
  maze : Maze
  trace : Trace
  /-- The pose that start and reset go back to. -/
  initial : Pose
  phase : Phase
  world : World
  generation : Nat
  deriving DecidableEq, Repr, Inhabited

/-- What a step did. -/
structure StepResult where
  index : Nat
  /-- None if the trace had no entry left. -/
  command : Option Command
  robot : Pose
  status : RunStatus
  reason : Option FailureReason
  filled : Option Cell
  deriving DecidableEq, Repr

/-- What renderers see of an executor. -/
structure Snapshot where
  status : RunStatus
  paused : Bool
  cursor : Int
  trace : Trace
  robot : Pose
  grid : Grid
  moves : Nat
  message : String
  reason : Option FailureReason
  generation : Nat
  deriving DecidableEq, Repr

namespace Executor

/-- The world at the beginning of every run. -/
def freshWorld (maze : Maze) (initial : Pose) : World := ⟨initial, maze.grid, 0⟩

/-- An idle executor. -/
def create (maze : Maze) (trace : Trace) (initial : Option Pose := none) : Executor :=
  let initial := initial.getD maze.startPose
  ⟨maze, trace, initial, .idle, freshWorld maze initial, 0⟩

/-- Whether a step would be taken. -/
def isExecuting (e : Executor) : Bool := e.phase.isExecuting

/-- How the run stands, as reported. -/
def status (e : Executor) : RunStatus := e.phase.status

/-- What renderers see at the moment. -/
def snapshot (e : Executor) : Snapshot where
  status := e.phase.status
  paused := e.phase.isPaused
  cursor := e.phase.cursor
  trace := e.trace
  robot := e.world.robot
  grid := e.world.overlay
  moves := e.world.moves
  message := e.phase.message
  reason := e.phase.reason?
  generation := e.generation

/-- Another trace; a running cursor keeps its index. -/
def setTrace (e : Executor) (trace : Trace) : Executor := { e with trace }

/-- Another authoritative maze; the run in progress does not notice. -/
def setMaze (e : Executor) (maze : Maze) : Executor := { e with maze }

/-- Back to the beginning, under a new generation. -/
def rewind (e : Executor) (phase : Phase) : Executor :=
  { e with phase, world := freshWorld e.maze e.initial, generation := e.generation + 1 }

/-- Begins a fresh run, unless one is executing; tells whether it did. -/
def start (e : Executor) : Executor × Bool :=
  if e.isExecuting then (e, false) else (e.rewind (.running 0 false), true)

/-- Pauses an executing run; tells whether there was one. -/
def pause (e : Executor) : Executor × Bool :=
  match e.phase with
  | .running cursor false =>
    ({ e with phase := .running cursor true, generation := e.generation + 1 }, true)
  | _ => (e, false)

/-- Back to idle. -/
def reset (e : Executor) : Executor := e.rewind .idle

/-- The phase after an action that was taken at `cursor`. -/
def phaseAfter (trace : Trace) (cursor : Nat) : Verdict → Phase
  | .continues _ =>
    if cursor + 1 < trace.length then .running (cursor + 1) false else .failed .goalNotReached
  | .reachesGoal => .success
  | .fails reason => .failed reason

/-- What a step at `index` has to report once the executor is in its new state. -/
def report (e : Executor) (index : Nat) (command : Option Command) (filled : Option Cell) :
    StepResult :=
  ⟨index, command, e.world.robot, e.phase.status, e.phase.reason?, filled⟩

/-- The cell filled by an action. -/
def filledBy : Verdict → Option Cell
  | .continues filled => filled
  | _ => none

/-- Resolves the entry at `cursor`, whatever the phase. -/
def stepAt (e : Executor) (cursor : Nat) : Except Failure (Executor × StepResult) :=
  match e.trace[cursor]? with
  | none =>
    let e := { e with phase := .failed .goalNotReached }
    .ok (e, e.report cursor none none)
  | some (.loop _ _) => .error (.loopInTrace cursor)
  | some (.basic action) =>
    match e.world.perform action with
    | none => .error (.cell .reading)
    | some (world, verdict) =>
      let e := { e with world, phase := phaseAfter e.trace cursor verdict }
      .ok (e, e.report cursor (some (.basic action)) (filledBy verdict))

/-- Resolves the entry that is due.  Nothing happens unless the run is executing and the
step was scheduled under the present generation (`token`) or under none. -/
def step (e : Executor) (token : Option Int := none) :
    Except Failure (Executor × Option StepResult) :=
  if token.all (· == (e.generation : Int)) then
    match e.phase with
    | .running cursor false => (e.stepAt cursor).map fun (e, r) => (e, some r)
    | _ => .ok (e, none)
  else .ok (e, none)

/-- Steps while the run is executing, at most `limit` times; a failing step ends it. -/
def stepWhileExecuting (e : Executor) : (limit : Nat) →
    Executor × List StepResult × Option Failure
  | 0 => (e, [], none)
  | limit + 1 =>
    match e.phase with
    | .running cursor false =>
      match e.stepAt cursor with
      | .error failure => (e, [], some failure)
      | .ok (e, r) =>
        let (e, rs, failure) := stepWhileExecuting e limit
        (e, r :: rs, failure)
    | _ => (e, [], none)

end Executor

end MazeRobot
