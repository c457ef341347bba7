import MazeRobot.Maze.Record

/-! # Mazes drawn by hand

A layout has one string a row and one character a tile.  `Maze.ofLayout` first
reads the characters, so that an unknown one is reported even if the shape is wrong
too, and then checks the result like any other maze.  `Maze.blank` is an empty maze with
start and goal in opposite corners. -/

namespace MazeRobot

namespace Grid

/-- The tiles of one layout row; on failure the first unknown symbol. -/
def ofSymbolRow : List CodePoint → Except CodePoint (List Tile)
  | [] => .ok []
  | p :: rest =>
    match p.char?.bind Tile.ofSymbol? with
    | none => .error p
    | some t => (ofSymbolRow rest).map (t :: ·)

/-- The tiles of a layout; on failure the first unknown symbol in reading order. -/
def ofSymbols : List Text → Except CodePoint (List (List Tile))
  | [] => .ok []
  | row :: rest =>
    match ofSymbolRow row.points with
    | .error p => .error p
    | .ok tiles => (ofSymbols rest).map (tiles :: ·)

end Grid

namespace Maze

/-- The maze that a layout draws. -/
def ofLayout (id name : Json) (rows : List Text) : Except Failure Maze :=
  match Grid.ofSymbols rows with
  | .error symbol => .error (.unknownSymbol symbol)
  | .ok tiles => ofJson (draft id name ⟨tiles⟩)

/-- Least edge length of a playable maze. -/
def minSize : Nat := 5

/-- Greatest edge length of a playable maze. -/
def maxSize : Nat := 10

/-- The grid of a blank maze: start top left, goal bottom right, floor elsewhere. -/
def blankGrid (size : Int) : Except CellFault Grid := do
  let floor : Grid := ⟨List.replicate size.toNat (List.replicate size.toNat .floor)⟩
  let started ← floor.setTile ⟨0, 0⟩ .start
  started.setTile ⟨size - 1, size - 1⟩ .goal

/-- A blank maze. -/
def blank (id name : Json) (size : Int := minSize) : Except Failure Maze :=
  match blankGrid size with
  | .error fault => .error (.cell fault)
  | .ok g => ofJson (draft id name g)

end Maze

end MazeRobot
