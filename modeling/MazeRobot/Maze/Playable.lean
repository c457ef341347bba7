import MazeRobot.Maze.Layout

/-! # Which mazes can be played

A maze is playable if its edge length is in range and it has exactly one start and one
goal.  `Maze.issues` lists everything that stands in the way. -/

namespace MazeRobot

namespace Maze

/-- What is wrong with a tile that has to occur exactly once. -/
def countIssues (m : Maze) (t : Tile) : List String :=
  match m.grid.countTile t with
  | 0 => [s!"place one {t.word} tile"]
  | 1 => []
  | n => [s!"only one {t.word} tile is allowed, found {n}"]

/-- What is wrong with the edge length. -/
def sizeIssues (m : Maze) : List String :=
  if minSize ≤ m.size ∧ m.size ≤ maxSize then []
  else [s!"size must be between {minSize} and {maxSize}, got {m.size}"]

/-- Everything that keeps a maze from being played. -/
def issues (m : Maze) : List String :=
  m.sizeIssues ++ m.countIssues .start ++ m.countIssues .goal

/-- The maze itself, if it can be played. -/
def playable (m : Maze) : Except Failure Maze :=
  if m.issues.isEmpty then .ok m else .error (.unplayable m.id m.issues)

end Maze

end MazeRobot
