import MazeRobot.Command.Basic
import MazeRobot.Grid

/-! # What a single action does

A `World` is everything that an action can change: the robot's pose, the working copy of
the grid, and the number of moves made.  `World.perform` is the whole effect of one
action, together with a `Verdict` on how the run goes on.

An action only looks at the cell ahead of the robot.  `perform` gives no answer if that
cell is in bounds but missing from its row, which cannot happen on a square grid. -/

namespace MazeRobot

/-- Why a run failed. -/
inductive FailureReason where
  | outOfBounds
  | wallCollision
  | fellInHole
  | goalNotReached
  deriving DecidableEq, Repr, Inhabited

namespace FailureReason

/-- The reasons in the order in which they are listed. -/
def all : List FailureReason := [outOfBounds, wallCollision, fellInHole, goalNotReached]

/-- The name of a reason in records. -/
def word : FailureReason → String
  | outOfBounds => "OutOfBounds"
  | wallCollision => "WallCollision"
  | fellInHole => "FellInHole"
  | goalNotReached => "GoalNotReached"

/-- The reason as told to the learner. -/
def message : FailureReason → String
  | outOfBounds => "out of bounds"
  | wallCollision => "hit wall"
  | fellInHole => "fell in hole"
  | goalNotReached => "did not reach goal"

end FailureReason

/-- What actions work on. -/
structure World where
  robot : Pose
  overlay : Grid
  moves : Nat
  deriving DecidableEq, Repr, Inhabited

/-- How a run goes on after an action. -/
inductive Verdict where
  /-- The run goes on; a hole may have been filled. -/
  | continues (filled : Option Cell)
  | reachesGoal
  | fails (reason : FailureReason)
  deriving DecidableEq, Repr

namespace World

/-- The robot steps onto the cell ahead. -/
def advance (w : World) : World :=
  { w with robot := w.robot.movedTo w.robot.ahead, moves := w.moves + 1 }

/-- Tries to step forward. -/
def forward (w : World) : Option (World × Verdict) :=
  let ahead := w.robot.ahead
  if w.overlay.inBounds ahead then
    (w.overlay.tileAt? ahead).map fun
      | .wall => (w, .fails .wallCollision)
      | .hole => (w.advance, .fails .fellInHole)
      | .goal => (w.advance, .reachesGoal)
      | .floor | .start => (w.advance, .continues none)
  else some (w, .fails .outOfBounds)

/-- Turns a hole ahead into floor. -/
def fillHole (w : World) : Option (World × Verdict) :=
  let ahead := w.robot.ahead
  if w.overlay.inBounds ahead then
    match w.overlay.tileAt? ahead with
    | none => none
    | some .hole =>
      match w.overlay.setTile ahead .floor with
      | .ok overlay => some ({ w with overlay }, .continues (some ahead))
      | .error _ => none
    | some _ => some (w, .continues none)
  else some (w, .continues none)

/-- The effect of one action. -/
def perform (w : World) : Action → Option (World × Verdict)
  | .forward => w.forward
  | .turnRight => some ({ w with robot := w.robot.turnedRight }, .continues none)
  | .turnLeft => some ({ w with robot := w.robot.turnedLeft }, .continues none)
  | .ifHole => w.fillHole

end World

end MazeRobot
