import MazeRobot.Tile
import MazeRobot.Pose
import MazeRobot.Position

/-! # Grids of tiles

A `Grid` is a list of rows, the top row first.  It serves both as the authoritative
picture of a maze and as the working copy that a run fills holes in: grids are values,
so a working copy never disturbs the picture it was taken from.

The edge length of a grid is its number of rows, and `Grid.inBounds` compares both
coordinates with it.  Reading and writing a cell use signed positions, the row first. -/

namespace MazeRobot

/-- Rows of tiles, the top row first. -/
structure Grid where
  rows : List (List Tile)
  deriving DecidableEq, Repr, Inhabited

/-- Why a cell cannot be read or written. -/
inductive CellFault where
  /-- The row does not exist, or the cell to be read does not exist in its row. -/
  | reading
  /-- The row exists but has no cell to be written at that column. -/
  | writing
  /-- A coordinate does not fit into sixty-four bits. -/
  | tooWide
  deriving DecidableEq, Repr

namespace CellFault

/-- The fault of a look-up. -/
def ofReading : Position.Fault → CellFault
  | .outside => reading
  | .tooWide => tooWide

/-- The fault of a replacement. -/
def ofWriting : Position.Fault → CellFault
  | .outside => writing
  | .tooWide => tooWide

end CellFault

namespace Grid

/-- Edge length: the number of rows. -/
def size (g : Grid) : Nat := g.rows.length

/-- Whether both coordinates lie between zero and the edge length. -/
def inBounds (g : Grid) (c : Cell) : Bool :=
  decide (0 ≤ c.x) && decide (c.x < g.size) && decide (0 ≤ c.y) && decide (c.y < g.size)

/-- The tile of a cell. -/
def tileAt (g : Grid) (c : Cell) : Except CellFault Tile := do
  let row ← (Position.get g.rows c.y).mapError .ofReading
  (Position.get row c.x).mapError .ofReading

/-- The tile of a cell, if there is such a cell. -/
def tileAt? (g : Grid) (c : Cell) : Option Tile := (g.tileAt c).toOption

/-- The grid with one cell replaced. -/
def setTile (g : Grid) (c : Cell) (t : Tile) : Except CellFault Grid := do
  let row ← (Position.get g.rows c.y).mapError .ofReading
  let row ← (Position.set row c.x t).mapError .ofWriting
  let rows ← (Position.set g.rows c.y row).mapError .ofReading
  return ⟨rows⟩

/-- The first place, in reading order, whose entry satisfies `p`. -/
def findCell? (p : α → Bool) (rows : List (List α)) : Option Cell :=
  go 0 rows
where
  go (y : Nat) : List (List α) → Option Cell
    | [] => none
    | row :: rest =>
      match row.findIdx? p with
      | some x => some ⟨x, y⟩
      | none => go (y + 1) rest

/-- The first cell, in reading order, that holds `t`. -/
def find? (g : Grid) (t : Tile) : Option Cell := findCell? (· == t) g.rows

/-- The cell a robot starts on: the first start tile, or the top left corner. -/
def startCell (g : Grid) : Cell := (g.find? .start).getD ⟨0, 0⟩

/-- The first goal tile. -/
def goalCell? (g : Grid) : Option Cell := g.find? .goal

/-- How many cells hold `t`. -/
def countTile (g : Grid) (t : Tile) : Nat := g.rows.flatten.count t

/-- The layout of a grid: one character per tile. -/
def symbols (g : Grid) : List String := g.rows.map fun row => String.ofList (row.map Tile.symbol)

end Grid

end MazeRobot
