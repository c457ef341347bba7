/-! # Terrain of a maze cell

`Tile` is what a single cell of a maze holds.  A tile has two written forms: the
word under which it is stored (`Tile.word`, read back by `Tile.ofWord?`) and the
single character used in hand-drawn layouts (`Tile.symbol`, read back by
`Tile.ofSymbol?`).  Both readers accept exactly what their writer produces. -/

namespace MazeRobot

/-- Terrain of one maze cell. -/
inductive Tile where
  | floor
  | wall
  | hole
  | start
  | goal
  deriving DecidableEq, Repr, Inhabited

namespace Tile

/-- Every kind of terrain, in the order in which the kinds are listed to users. -/
def all : List Tile := [floor, wall, hole, start, goal]

/-- The word under which a tile is stored. -/
def word : Tile → String
  | floor => "floor"
  | wall => "wall"
  | hole => "hole"
  | start => "start"
  | goal => "goal"

/-- The tile a stored word names; words are matched exactly. -/
def ofWord? (w : String) : Option Tile := all.find? fun t => t.word == w

/-- The character that stands for a tile in a layout. -/
def symbol : Tile → Char
  | floor => '.'
  | wall => '#'
  | hole => 'O'
  | start => 'S'
  | goal => 'G'

/-- The tile a layout character stands for. -/
def ofSymbol? (c : Char) : Option Tile := all.find? fun t => t.symbol == c

@[simp] theorem ofWord?_word (t : Tile) : ofWord? t.word = some t := by
  cases t <;> decide

@[simp] theorem ofSymbol?_symbol (t : Tile) : ofSymbol? t.symbol = some t := by
  cases t <;> decide

theorem mem_all (t : Tile) : t ∈ all := by
  cases t <;> decide

/-- Only its own name is read as a tile. -/
theorem ofWord?_eq_some_iff {w : String} {t : Tile} : ofWord? w = some t ↔ w = t.word := by
  constructor
  · intro h
    have found := List.find?_some h
    exact (eq_of_beq found).symm
  · rintro rfl
    simp

/-- Only its own character is read as a tile. -/
theorem ofSymbol?_eq_some_iff {c : Char} {t : Tile} : ofSymbol? c = some t ↔ c = t.symbol := by
  constructor
  · intro h
    have found := List.find?_some h
    exact (eq_of_beq found).symm
  · rintro rfl
    simp

end Tile

end MazeRobot
