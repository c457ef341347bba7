import Mathlib.Data.List.Basic
import MazeRobot.Proofs.World

/-!
# Symmetries of the square

A square maze can be turned and transposed, and the robot along with it.  `Symmetry` names
the two moves that generate all others; `cell`, `heading`, `pose`, `grid` and `action` say
where each thing goes.  A turn takes right turns to right turns, a transposition takes them
to left turns.

The image of a grid is written down row by row, from the columns of the grid.  The lemma
`look?_grid` bridges to the view: a cell's image holds the cell's tile.  From there on the
rules for actions carry over one by one (`World.Does.image`), so an action does to the image
what the symmetry makes of its effect (`perform_world`).
-/

namespace MazeRobot

/-- The tiles of a column, from the top down. -/
def Grid.column (g : Grid) (x : Nat) : List Tile := g.rows.filterMap fun row => row[x]?

/-- A symmetry of the square. -/
inductive Symmetry where
  /-- A quarter turn clockwise. -/
  | quarterTurn
  /-- Rows and columns change places. -/
  | transposition
  deriving DecidableEq, Repr

namespace Symmetry

/-- Where a cell of a grid with edge length `n` goes. -/
def cell (s : Symmetry) (n : Nat) (c : Cell) : Cell :=
  match s with
  | quarterTurn => ⟨n - 1 - c.y, c.x⟩
  | transposition => ⟨c.y, c.x⟩

/-- Where a heading goes. -/
def heading (s : Symmetry) (h : Heading) : Heading :=
  match s with
  | quarterTurn => ⟨-h.dy, h.dx⟩
  | transposition => ⟨h.dy, h.dx⟩

/-- Where a pose on a grid with edge length `n` goes. -/
def pose (s : Symmetry) (n : Nat) (p : Pose) : Pose :=
  ⟨(s.cell n p.cell).x, (s.cell n p.cell).y, s.heading p.heading⟩

/-- The grid moved: its rows are the columns of `g`, read upwards or downwards. -/
def grid (s : Symmetry) (g : Grid) : Grid :=
  match s with
  | quarterTurn => ⟨(List.range g.size).map fun x => (g.column x).reverse⟩
  | transposition => ⟨(List.range g.size).map g.column⟩

/-- The action that does in the image what `a` does. -/
def action (s : Symmetry) (a : Action) : Action :=
  match s, a with
  | transposition, .turnRight => .turnLeft
  | transposition, .turnLeft => .turnRight
  | _, a => a

/-- The image of a world on a grid with edge length `n`. -/
def world (s : Symmetry) (n : Nat) (w : World) : World :=
  ⟨s.pose n w.robot, s.grid w.overlay, w.moves⟩

/-- The image of a verdict. -/
def verdict (s : Symmetry) (n : Nat) (v : Verdict) : Verdict :=
  match v with
  | .continues filled => .continues (filled.map (s.cell n))
  | v => v

end Symmetry

/-! ## Columns -/

namespace Grid

variable {g : Grid} {x : Nat}

/-- No row is too short for a column of a square grid. -/
theorem Square.column_eq_map (hg : g.Square) (hx : x < g.size) :
    g.column x = g.rows.map fun row => row[x]?.getD .floor := by
  unfold column
  apply List.filterMap_eq_map_iff_forall_eq_some.mpr
  intro row hrow
  have hlen := hg.row_length row hrow
  rw [List.getElem?_eq_getElem (by omega), Option.getD_some]

/-- A column of a square grid is as long as the grid is high. -/
theorem Square.length_column (hg : g.Square) (hx : x < g.size) : (g.column x).length = g.size := by
  rw [hg.column_eq_map hx, List.length_map]
  rfl

/-- The tile at the crossing of a column and a row. -/
theorem Square.getElem?_column (hg : g.Square) {y : Nat} (hx : x < g.size) :
    (g.column x)[y]? = g.look? ⟨x, y⟩ := by
  rw [hg.column_eq_map hx, List.getElem?_map, look?_natCast]
  cases hrow : g.rows[y]? with
  | none => rfl
  | some row =>
    have hlen := hg.length_of_getElem? hrow
    rw [Option.map_some, Option.bind_some, List.getElem?_eq_getElem (by omega), Option.getD_some]

end Grid

namespace Symmetry

variable {g : Grid} {c d : Cell}

/-! ## Grids -/

@[simp] theorem size_grid (s : Symmetry) (g : Grid) : (s.grid g).size = g.size := by
  cases s <;> simp [grid, Grid.size]

/-- The image of a square is one. -/
theorem square_grid (s : Symmetry) (hg : g.Square) : (s.grid g).Square := by
  refine ⟨fun row hrow => ?_⟩
  rw [size_grid]
  cases s with
  | quarterTurn =>
    obtain ⟨x, hx, rfl⟩ := List.mem_map.mp hrow
    rw [List.length_reverse, hg.length_column (List.mem_range.mp hx)]
  | transposition =>
    obtain ⟨x, hx, rfl⟩ := List.mem_map.mp hrow
    exact hg.length_column (List.mem_range.mp hx)

/-- A moved cell is in bounds if the cell is. -/
theorem inBounds_grid (s : Symmetry) (g : Grid) (c : Cell) :
    (s.grid g).inBounds (s.cell g.size c) = true ↔ g.inBounds c = true := by
  rw [Grid.inBounds_iff, Grid.inBounds_iff, size_grid]
  cases s with
  | quarterTurn =>
    simp only [cell]
    omega
  | transposition =>
    simp only [cell]
    omega

/-- The image of a cell holds the tile of the cell. -/
theorem look?_grid (s : Symmetry) (hg : g.Square) (c : Cell) :
    (s.grid g).look? (s.cell g.size c) = g.look? c := by
  by_cases hin : g.inBounds c = true
  · obtain ⟨x, y, rfl, hx, hy⟩ := Grid.exists_natCast_of_inBounds hin
    rw [← hg.getElem?_column hx]
    cases s with
    | quarterTurn =>
      -- counted from the right, the new column is the old row
      have hcell : quarterTurn.cell g.size ⟨x, y⟩ = ⟨(g.size - 1 - y : Nat), x⟩ := by
        simp only [cell, Cell.mk.injEq, and_true]
        omega
      have hlen := hg.length_column hx
      rw [hcell, Grid.look?_natCast, grid, List.getElem?_map, List.getElem?_range hx,
        Option.map_some, Option.bind_some, List.getElem?_reverse (by omega), hlen]
      congr 1
      omega
    | transposition =>
      rw [cell, Grid.look?_natCast, grid, List.getElem?_map, List.getElem?_range hx]
      rfl
  · rw [hg.look?_eq_none hin]
    exact (s.square_grid hg).look?_eq_none fun h => hin ((inBounds_grid s g c).mp h)

/-- No two cells are moved to one. -/
theorem cell_injective (s : Symmetry) (n : Nat) (h : s.cell n c = s.cell n d) : c = d := by
  obtain ⟨cx, cy⟩ := c
  obtain ⟨dx, dy⟩ := d
  cases s with
  | quarterTurn =>
    simp only [cell, Cell.mk.injEq] at h ⊢
    omega
  | transposition =>
    simp only [cell, Cell.mk.injEq] at h ⊢
    omega

/-- Every cell is the image of one. -/
theorem exists_cell_eq (s : Symmetry) (n : Nat) (d : Cell) : ∃ c, s.cell n c = d := by
  cases s with
  | quarterTurn =>
    refine ⟨⟨d.y, n - 1 - d.x⟩, ?_⟩
    simp only [cell, Int.sub_sub_self]
  | transposition => exact ⟨⟨d.y, d.x⟩, rfl⟩

/-- Replacing a tile and moving the grid can be done in either order. -/
theorem grid_put (s : Symmetry) (hg : g.Square) (hin : g.inBounds c = true) (t : Tile) :
    s.grid (g.put c t) = (s.grid g).put (s.cell g.size c) t := by
  apply Grid.Square.ext ((s.square_grid hg).put _ t) (s.square_grid (hg.put c t))
  · rw [size_grid, Grid.size_put, Grid.size_put, size_grid]
  · intro d
    -- compare the images of the cells of `g`
    obtain ⟨d, rfl⟩ := s.exists_cell_eq g.size d
    have hleft := s.look?_grid (hg.put c t) d
    rw [Grid.size_put] at hleft
    rw [hleft]
    obtain ⟨u, hu⟩ := hg.exists_look? hin
    have hu' := (s.look?_grid hg c).trans hu
    by_cases hd : d = c
    · rw [hd, Grid.look?_put_self hu, Grid.look?_put_self hu']
    · have hne : s.cell g.size d ≠ s.cell g.size c := fun h => hd (s.cell_injective _ h)
      rw [Grid.look?_put_of_ne hd (Grid.nonneg_of_look? hu),
        Grid.look?_put_of_ne hne (Grid.nonneg_of_look? hu'), s.look?_grid hg]

/-! ## Poses -/

/-- The image looks at the image of the cell ahead. -/
theorem ahead_pose (s : Symmetry) (n : Nat) (p : Pose) :
    (s.pose n p).ahead = s.cell n p.ahead := by
  cases s with
  | quarterTurn =>
    simp only [pose, cell, heading, Pose.ahead, Pose.cell, Cell.mk.injEq, and_true]
    omega
  | transposition => rfl

theorem pose_movedTo (s : Symmetry) (n : Nat) (p : Pose) (c : Cell) :
    s.pose n (p.movedTo c) = (s.pose n p).movedTo (s.cell n c) := rfl

/-- A left turn stays one on the turned maze.  For right turns, and for both turns on the
transposed maze, the like holds by definition. -/
theorem pose_turnedLeft (n : Nat) (p : Pose) :
    quarterTurn.pose n p.turnedLeft = (quarterTurn.pose n p).turnedLeft := by
  simp [pose, heading, cell, Pose.turnedLeft, Heading.left, Pose.cell]

/-! ## Worlds -/

variable {n : Nat} {w w' : World} {a : Action} {v : Verdict}

/-- To go forward is to go forward in the image. -/
@[simp] theorem action_forward (s : Symmetry) : s.action .forward = .forward := by
  cases s <;> rfl

/-- To fill a hole is to fill one in the image. -/
@[simp] theorem action_ifHole (s : Symmetry) : s.action .ifHole = .ifHole := by
  cases s <;> rfl

/-- A move in the image is the image of the move. -/
theorem world_advance (s : Symmetry) (n : Nat) (w : World) :
    s.world n w.advance = (s.world n w).advance := by
  unfold world World.advance
  rw [pose_movedTo, ahead_pose]

/-- The image of the robot finds the same tile ahead. -/
theorem look?_ahead_world (s : Symmetry) (hw : w.overlay.Square) (hn : w.overlay.size = n) :
    (s.world n w).overlay.look? (s.world n w).robot.ahead = w.overlay.look? w.robot.ahead := by
  subst hn
  show (s.grid w.overlay).look? (s.pose w.overlay.size w.robot).ahead = _
  rw [ahead_pose, s.look?_grid hw]

/-- Each rule carries over to the image. -/
theorem does_world (s : Symmetry) (hw : w.overlay.Square) (hn : w.overlay.size = n)
    (h : w.Does a w' v) :
    (s.world n w).Does (s.action a) (s.world n w') (s.verdict n v) := by
  have hahead := s.look?_ahead_world hw hn
  cases h with
  | leaves ahead =>
    rw [action_forward]
    exact .leaves (hahead.trans ahead)
  | collides ahead =>
    rw [action_forward]
    exact .collides (hahead.trans ahead)
  | falls ahead =>
    rw [action_forward, world_advance]
    exact .falls (hahead.trans ahead)
  | arrives ahead =>
    rw [action_forward, world_advance]
    exact .arrives (hahead.trans ahead)
  | walks ahead free =>
    rw [action_forward, world_advance]
    exact .walks (hahead.trans ahead) free
  -- a transposition is a reflection: it makes each turn into the other
  | turnsRight =>
    cases s with
    | quarterTurn => exact .turnsRight
    | transposition => exact .turnsLeft
  | turnsLeft =>
    cases s with
    | quarterTurn =>
      have hturns := World.Does.turnsLeft (w := quarterTurn.world n w)
      have hpose : (quarterTurn.world n w).robot.turnedLeft =
          quarterTurn.pose n w.robot.turnedLeft := (pose_turnedLeft n w.robot).symm
      rw [hpose] at hturns
      exact hturns
    | transposition => exact .turnsRight
  | fills ahead =>
    -- the cell that is filled is the image of the cell ahead, so the two grids stay images
    have hin := hw.inBounds_of_look? ahead
    have hfills := World.Does.fills (hahead.trans ahead)
    have hpose : (s.world n w).robot.ahead = s.cell n w.robot.ahead := s.ahead_pose n w.robot
    have hput : (s.world n w).overlay.put (s.cell n w.robot.ahead) .floor =
        s.grid (w.overlay.put w.robot.ahead .floor) := by
      subst hn
      exact (s.grid_put hw hin .floor).symm
    rw [hpose, hput] at hfills
    rw [action_ifHole]
    exact hfills
  | passes ahead =>
    rw [action_ifHole]
    exact .passes fun hole => ahead (hahead.symm.trans hole)

/-- An action does to the image what the symmetry makes of its effect. -/
theorem perform_world (s : Symmetry) (hw : w.overlay.Square) (hn : w.overlay.size = n)
    (a : Action) :
    (s.world n w).perform (s.action a) =
      (w.perform a).map fun (w', v) => (s.world n w', s.verdict n v) := by
  obtain ⟨w', v, hperform, hdoes⟩ := World.exists_perform hw a
  rw [hperform]
  exact (s.does_world hw hn hdoes).perform_eq (s.square_grid hw)

end Symmetry

end MazeRobot
