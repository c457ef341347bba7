import MazeRobot.Grid
import MazeRobot.Text.Basic

/-! # Mazes

A `Maze` is a named grid.  `Maze.WellFormed` says that the grid is the square which
`size` claims; every maze that enters through a record or a layout is well formed. -/

namespace MazeRobot

/-- A named grid of tiles. -/
structure Maze where
  id : Text
  name : Text
  size : Nat
  grid : Grid
  deriving DecidableEq, Repr, Inhabited

namespace Maze

/-- The grid has `size` rows of `size` tiles, and at least one. -/
structure WellFormed (m : Maze) : Prop where
  size_pos : 1 ≤ m.size
  rows_length : m.grid.rows.length = m.size
  row_length : ∀ row ∈ m.grid.rows, row.length = m.size

/-- The robot on the start cell. -/
def startPose (m : Maze) (heading : Heading := .east) : Pose :=
  ⟨m.grid.startCell.x, m.grid.startCell.y, heading⟩

/-- The maze with one tile of its grid replaced. -/
def setTile (m : Maze) (c : Cell) (t : Tile) : Except CellFault Maze :=
  (m.grid.setTile c t).map fun grid => { m with grid }

end Maze

end MazeRobot
