import MazeRobot.Grid

/-! # Grids drawn as text

Every cell takes two characters, the robot's cell shows its heading instead of the tile,
and blanks at the end of a line are dropped. -/

namespace MazeRobot

/-- The two characters that draw a tile. -/
def Tile.drawing : Tile → List Char
  | floor => ['.', ' ']
  | wall => ['█', '█']
  | hole => ['O', ' ']
  | start => ['S', ' ']
  | goal => ['G', ' ']

/-- The two characters that draw the robot. -/
def Heading.drawing (h : Heading) : List Char :=
  if h = .east then ['>', ' ']
  else if h = .south then ['v', ' ']
  else if h = .west then ['<', ' ']
  else if h = .north then ['^', ' ']
  else ['R', ' ']

namespace Grid

/-- One cell of the drawing. -/
def drawCell (robot : Option Pose) (y x : Nat) (t : Tile) : List Char :=
  match robot with
  | some p => if p.cell = ⟨x, y⟩ then p.heading.drawing else t.drawing
  | none => t.drawing

/-- One line of the drawing, from column `x` on, with its trailing blanks. -/
def drawRow (robot : Option Pose) (y x : Nat) : List Tile → List Char
  | [] => []
  | t :: rest => drawCell robot y x t ++ drawRow robot y (x + 1) rest

/-- A line without its trailing blanks. -/
def dropTrailingBlanks (cs : List Char) : List Char :=
  (cs.reverse.dropWhile (· == ' ')).reverse

/-- The lines of the drawing, from row `y` on. -/
def drawRows (robot : Option Pose) (y : Nat) : List (List Tile) → List String
  | [] => []
  | row :: rest =>
    String.ofList (dropTrailingBlanks (drawRow robot y 0 row)) :: drawRows robot (y + 1) rest

/-- The drawing of a grid, with the robot if there is one. -/
def sketch (g : Grid) (robot : Option Pose := none) : String :=
  "\n".intercalate (drawRows robot 0 g.rows)

end Grid

end MazeRobot
