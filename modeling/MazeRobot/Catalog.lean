import MazeRobot.Maze.Basic

/-! # The built-in mazes

Ten practice mazes, from plain sequences over loops and hole checks to all three
combined. -/

namespace MazeRobot

namespace Catalog

/-- The maze drawn by rows of layout characters. -/
def drawn (id name : String) (rows : List String) : Maze :=
  ⟨id, name, rows.length, ⟨rows.map fun row => row.toList.filterMap Tile.ofSymbol?⟩⟩

/-- The built-in mazes in teaching order. -/
def mazes : List Maze := [
  drawn "maze1" "Sequence 1" ["S..##", ".#.##", "...G#", "#####", "....."],
  drawn "maze2" "Sequence 2" ["S###.", "...#.", "##.#.", "G..#.", "####."],
  drawn "maze3" "Sequence + Loop 1" ["S....", ".###.", ".#.#.", ".###.", "....G"],
  drawn "maze4" "Sequence + Loop 2" ["S#G.#", ".##.#", ".##.#", "....#", "#####"],
  drawn "maze5" "Sequence + Condition 1" ["S#...", "O#...", "G#...", ".....", "....."],
  drawn "maze6" "Sequence + Condition 2" ["S####", "O.OG#", "#####", ".....", "....."],
  drawn "maze7" "Sequence + Loop + Condition 1" ["S....", ".#.#.", ".....", ".#.#.", "....G"],
  drawn "maze8" "Sequence + Loop + Condition 2" ["S#...", ".#.#.", "O.O#.", "####.", "G...."],
  drawn "maze9" "Sequence + Loop + Condition 3" ["S#GO#", "O##O#", "O##O#", "OOOO#", "#####"],
  drawn "maze10" "Sequence + Loop + Condition 4" ["S#...", ".#...", "O#...", ".####", "OO.OG"]]

/-- The built-in maze with the given id. -/
def find? (id : Text) : Option Maze := mazes.find? fun m => m.id == id

end Catalog

end MazeRobot
