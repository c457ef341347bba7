import MazeRobot.Failure
import MazeRobot.Json.Reader
import MazeRobot.Maze.Basic

/-! # Mazes as JSON records

A maze is stored as an object with `id`, `name`, `size` and `grid`, the grid as rows of
tile words.  `Maze.check` reads such a record; once all four fields are good, the grid
has to be the square that `size` claims. -/

namespace MazeRobot

namespace Maze

/-- An edge length. -/
def checkSize (v : Json) : Checked Int :=
  (Checked.integer v).bind fun n => if n < 1 then Checked.complain (.tooSmall 1) else .ok n

/-- A tile word. -/
def checkTile (v : Json) : Checked Tile :=
  Checked.word (Tile.all.map Tile.word) Tile.ofWord? v

/-- A row of tile words. -/
def checkRow (source : Source) : Json → Checked (List Tile)
  | .arr cells => Checked.each checkTile cells
  | _ => Checked.complain (.notList source)

/-- Rows of tile words. -/
def checkRows (source : Source) : Json → Checked (List (List Tile))
  | .arr rows => Checked.each (checkRow source) rows
  | _ => Checked.complain (.notList source)

/-- The first row, counted from `y` on, whose length is not `size`. -/
def firstUnevenRow? (size : Int) (y : Nat) : List (List Tile) → Option (Nat × Nat)
  | [] => none
  | row :: rest =>
    if (row.length : Int) ≠ size then some (y, row.length) else firstUnevenRow? size (y + 1) rest

/-- Puts a maze together; the grid has to be the square that `size` claims. -/
def assemble (id name : Text) (size : Int) (rows : List (List Tile)) : Checked Maze :=
  if (rows.length : Int) ≠ size then
    Checked.complain (.rule s!"grid has {rows.length} rows but size is {size}")
  else
    match firstUnevenRow? size 0 rows with
    | some (y, length) =>
      Checked.complain (.rule s!"row {y} has {length} tiles but size is {size}")
    | none => .ok ⟨id, name, rows.length, ⟨rows⟩⟩

/-- Reads the record of a maze. -/
def check (source : Source) : Json → Checked Maze
  | .obj fields =>
    (Checked.both (Checked.required fields "id" Checked.text)
      (Checked.both (Checked.required fields "name" Checked.text)
        (Checked.both (Checked.required fields "size" checkSize)
          (Checked.required fields "grid" (checkRows source))))).bind
      fun (id, name, size, rows) => assemble id name size rows
  | _ => Checked.complain (.notRecord .maze source)

/-- How deep a text with a record may be nested. -/
def maxNesting : Nat := 200

/-- The maze of a decoded record. -/
def ofJson (v : Json) : Except Failure Maze :=
  (check .value v).mapError fun issues => .invalid ⟨.maze, issues⟩

/-- The maze of a record given as a text. -/
def ofText (t : Text) : Except Failure Maze :=
  ((Checked.string t).bind fun s =>
    match Json.read .strict maxNesting s with
    | .error _ => Checked.complain .malformed
    | .ok v => check .text v).mapError fun issues => .invalid ⟨.maze, issues⟩

end Maze

/-- Rows of tile words. -/
def Grid.toJson (g : Grid) : Json :=
  .arr (g.rows.map fun row => .arr (row.map fun t => .str t.word))

/-- The tile that a value names. -/
def Tile.ofJson (v : Json) : Except Failure Tile :=
  match v with
  | .str w =>
    match w.string?.bind Tile.ofWord? with
    | some t => .ok t
    | none => .error (.notATile v)
  | _ => .error (.notATile v)

/-- The grid named by rows of values.  The cell `covered` is not looked at and counts as
floor. -/
def Grid.ofValues (covered : Option Cell) (rows : List (List Json)) : Except Failure Grid :=
  (rowsFrom 0 rows).map Grid.mk
where
  rowsFrom (y : Nat) : List (List Json) → Except Failure (List (List Tile))
    | [] => .ok []
    | row :: rest => do
      let tiles ← cellsFrom y 0 row
      return tiles :: (← rowsFrom (y + 1) rest)
  cellsFrom (y x : Nat) : List Json → Except Failure (List Tile)
    | [] => .ok []
    | v :: rest => do
      let tile ← if covered = some ⟨x, y⟩ then pure .floor else Tile.ofJson v
      return tile :: (← cellsFrom y (x + 1) rest)

namespace Maze

/-- The record of a maze. -/
def toJson (m : Maze) : Json :=
  .obj [("id", .str m.id), ("name", .str m.name), ("size", .int m.size), ("grid", m.grid.toJson)]

/-- The record of a maze whose id and name have yet to be checked. -/
def draft (id name : Json) (g : Grid) : Json :=
  .obj [("id", id), ("name", name), ("size", .int g.size), ("grid", g.toJson)]

end Maze

end MazeRobot
