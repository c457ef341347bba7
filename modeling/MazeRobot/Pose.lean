/-! # Where the robot stands and where it looks

Cells are addressed by a column `x` and a row `y`; the `y` axis points down the
grid.  A `Heading` is the vector added to a cell by one step forward.  A `Pose` is
a cell together with a heading.  Coordinates are unbounded: whether a cell lies on
a given grid is the grid's business. -/

namespace MazeRobot

/-- A cell address: column, then row. -/
structure Cell where
  x : Int
  y : Int
  deriving DecidableEq, Repr, Inhabited

/-- The vector of one step forward. -/
structure Heading where
  dx : Int
  dy : Int
  deriving DecidableEq, Repr, Inhabited

namespace Heading

def east : Heading := ⟨1, 0⟩
def south : Heading := ⟨0, 1⟩
def west : Heading := ⟨-1, 0⟩
def north : Heading := ⟨0, -1⟩

/-- The headings along the axes, clockwise. -/
def compass : List Heading := [east, south, west, north]

/-- A quarter turn clockwise on screen: east, south, west, north. -/
def right (h : Heading) : Heading := ⟨-h.dy, h.dx⟩

/-- A quarter turn counter-clockwise on screen. -/
def left (h : Heading) : Heading := ⟨h.dy, -h.dx⟩

@[simp] theorem left_right (h : Heading) : h.right.left = h := by
  simp [left, right]

@[simp] theorem right_left (h : Heading) : h.left.right = h := by
  simp [left, right]

/-- Turning right stays on the axes. -/
theorem right_mem_compass {h : Heading} (hh : h ∈ compass) : h.right ∈ compass := by
  simp only [compass, List.mem_cons, List.not_mem_nil, or_false] at hh
  rcases hh with rfl | rfl | rfl | rfl <;> decide

/-- Turning left stays on the axes. -/
theorem left_mem_compass {h : Heading} (hh : h ∈ compass) : h.left ∈ compass := by
  simp only [compass, List.mem_cons, List.not_mem_nil, or_false] at hh
  rcases hh with rfl | rfl | rfl | rfl <;> decide

end Heading

/-- The robot's cell and heading. -/
structure Pose where
  x : Int
  y : Int
  heading : Heading := .east
  deriving DecidableEq, Repr, Inhabited

namespace Pose

/-- The cell the robot stands on. -/
def cell (p : Pose) : Cell := ⟨p.x, p.y⟩

/-- The cell one step along the heading. -/
def ahead (p : Pose) : Cell := ⟨p.x + p.heading.dx, p.y + p.heading.dy⟩

/-- The same heading on another cell. -/
def movedTo (p : Pose) (c : Cell) : Pose := { p with x := c.x, y := c.y }

/-- The same cell, a quarter turn clockwise. -/
def turnedRight (p : Pose) : Pose := { p with heading := p.heading.right }

/-- The same cell, a quarter turn counter-clockwise. -/
def turnedLeft (p : Pose) : Pose := { p with heading := p.heading.left }

@[simp] theorem turnedLeft_turnedRight (p : Pose) : p.turnedRight.turnedLeft = p := by
  simp [turnedLeft, turnedRight]

@[simp] theorem turnedRight_turnedLeft (p : Pose) : p.turnedLeft.turnedRight = p := by
  simp [turnedLeft, turnedRight]

end Pose

end MazeRobot
