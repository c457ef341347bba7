import Mathlib.Data.List.DropRight
import MazeRobot.Maze.Sketch
import MazeRobot.Proofs.Grid
import MazeRobot.Proofs.Validation

/-!
# Drawings are read back

The drawing of a square grid can be read: its lines are as many as its cells in a line, so a
line from which trailing blanks were dropped can be filled up again, and then falls into pairs
of characters, each of which draws one `Mark`.  What is read are the marks of the grid
(`readSketch_sketch`): its tiles, and the heading of the robot in place of the tile under it.

## Key results

- `rightpad_dropTrailingBlanks`: filling up undoes the dropping of blanks
- `readSketch_sketch`: reading gives the marks back
- `getElem?_marks`: which mark a cell shows
- `sketch_faithful`: what can be told from a drawing
-/

namespace MazeRobot

/-- What a cell of a drawing shows. -/
inductive Mark where
  | tile (t : Tile)
  | robot (h : Heading)
  deriving DecidableEq, Repr

namespace Mark

/-- The two characters that draw a mark. -/
def drawing : Mark → List Char
  | tile t => t.drawing
  | robot h => h.drawing

/-- The tiles, and robots that look along an axis. -/
def all : List Mark := Tile.all.map tile ++ Heading.compass.map robot

/-- The mark that some characters draw. -/
def ofDrawing? (cs : List Char) : Option Mark := all.find? fun k => k.drawing == cs

/-- Every tile has its mark. -/
theorem tile_mem_all (t : Tile) : tile t ∈ all :=
  List.mem_append_left _ (List.mem_map_of_mem t.mem_all)

/-- A robot on a heading along the axes has its mark. -/
theorem robot_mem_all {h : Heading} (hh : h ∈ Heading.compass) : robot h ∈ all :=
  List.mem_append_right _ (List.mem_map_of_mem hh)

/-- No two marks are drawn alike. -/
theorem ofDrawing?_drawing : ∀ k ∈ all, ofDrawing? k.drawing = some k := by
  decide

/-- No drawing holds a line break. -/
theorem newline_notMem_drawing : ∀ k ∈ all, '\n' ∉ k.drawing := by
  decide

/-- A drawing is two characters wide. -/
theorem length_drawing (k : Mark) : k.drawing.length = 2 := by
  cases k with
  | tile t => cases t <;> rfl
  | robot h =>
    show h.drawing.length = 2
    unfold Heading.drawing
    repeat' split
    all_goals rfl

end Mark

namespace Grid

/-! ## Reading a drawing -/

/-- The characters of a line, in pairs. -/
def pairs : List Char → List (List Char)
  | a :: b :: rest => [a, b] :: pairs rest
  | _ => []

/-- The marks of a line, which has as many as `width` once its blanks are put back. -/
def readLine (width : Nat) (line : List Char) : Option (List Mark) :=
  (pairs (line.rightpad (2 * width) ' ')).mapM Mark.ofDrawing?

/-- The marks of a drawing, which is as wide as it has lines. -/
def readSketch (s : String) : Option (List (List Mark)) :=
  let lines := s.toList.splitOn '\n'
  lines.mapM (readLine lines.length)

/-- Filling a line up undoes the dropping of its trailing blanks. -/
theorem rightpad_dropTrailingBlanks (cs : List Char) :
    (dropTrailingBlanks cs).rightpad cs.length ' ' = cs := by
  show (cs.rdropWhile (· == ' ')).rightpad cs.length ' ' = cs
  induction cs using List.reverseRecOn with
  | nil => rfl
  | append_singleton cs c ih =>
    rw [List.rdropWhile_concat]
    split
    · next hblank =>
      -- one blank more was dropped, and one more is put back
      obtain rfl := beq_iff_eq.mp hblank
      have hle := (List.rdropWhile_prefix (p := (· == ' ')) cs).length_le
      rw [List.rightpad] at ih ⊢
      rw [List.length_append, List.length_singleton, Nat.succ_sub hle, List.replicate_succ',
        ← List.append_assoc, ih]
    · rw [List.rightpad, Nat.sub_self, List.replicate_zero, List.append_nil]

/-- Drawings side by side are told apart by their width. -/
theorem pairs_flatMap_drawing (ks : List Mark) :
    pairs (ks.flatMap Mark.drawing) = ks.map Mark.drawing := by
  induction ks with
  | nil => rfl
  | cons k ks ih =>
    obtain ⟨a, b, hk⟩ := List.length_eq_two.mp k.length_drawing
    rw [List.flatMap_cons, List.map_cons, hk, List.cons_append, List.cons_append, List.nil_append,
      pairs, ih]

/-- The line that draws some marks. -/
def line (ks : List Mark) : List Char := dropTrailingBlanks (ks.flatMap Mark.drawing)

/-- A line of marks is read back, even without the blanks at its end. -/
theorem readLine_line {ks : List Mark} (h : ∀ k ∈ ks, k ∈ Mark.all) :
    readLine ks.length (line ks) = some ks := by
  have hlength : (ks.flatMap Mark.drawing).length = 2 * ks.length := by
    rw [List.length_flatMap, List.map_congr_left fun k _ => k.length_drawing]
    simp [Nat.mul_comm]
  have hread : (ks.map Mark.drawing).mapM Mark.ofDrawing? = some (ks.map id) :=
    mapM_map_eq_pure fun k hk => Mark.ofDrawing?_drawing k (h k hk)
  rw [readLine, line, ← hlength, rightpad_dropTrailingBlanks, pairs_flatMap_drawing, hread,
    List.map_id]

/-- A line of marks holds no line break. -/
theorem newline_notMem_line {ks : List Mark} (h : ∀ k ∈ ks, k ∈ Mark.all) : '\n' ∉ line ks := by
  intro hmem
  have hdrawn : '\n' ∈ ks.flatMap Mark.drawing :=
    (List.rdropWhile_prefix (p := (· == ' ')) _).subset hmem
  obtain ⟨k, hk, hin⟩ := List.mem_flatMap.mp hdrawn
  exact Mark.newline_notMem_drawing k (h k hk) hin

/-! ## The marks of a grid -/

/-- What a cell of a grid shows. -/
def markAt (robot : Option Pose) (y x : Nat) (t : Tile) : Mark :=
  match robot with
  | some p => if p.cell = ⟨x, y⟩ then .robot p.heading else .tile t
  | none => .tile t

/-- What the cells of a row show, from column `x` on. -/
def markRow (robot : Option Pose) (y x : Nat) (row : List Tile) : List Mark :=
  (row.zipIdx x).map fun (t, x) => markAt robot y x t

/-- What the cells of some rows show, from row `y` on. -/
def markRows (robot : Option Pose) (y : Nat) (rows : List (List Tile)) : List (List Mark) :=
  (rows.zipIdx y).map fun (row, y) => markRow robot y 0 row

/-- What the cells of a grid show. -/
def marks (g : Grid) (robot : Option Pose) : List (List Mark) := markRows robot 0 g.rows

variable {g g' : Grid} {robot : Option Pose} {p p' : Pose}

theorem markRow_cons (robot : Option Pose) (y x : Nat) (t : Tile) (row : List Tile) :
    markRow robot y x (t :: row) = markAt robot y x t :: markRow robot y (x + 1) row := by
  rw [markRow, List.zipIdx_cons, List.map_cons]
  rfl

theorem markRows_cons (robot : Option Pose) (y : Nat) (row : List Tile) (rows : List (List Tile)) :
    markRows robot y (row :: rows) = markRow robot y 0 row :: markRows robot (y + 1) rows := by
  rw [markRows, List.zipIdx_cons, List.map_cons]
  rfl

/-- A cell is drawn as its mark. -/
theorem drawCell_eq (robot : Option Pose) (y x : Nat) (t : Tile) :
    drawCell robot y x t = (markAt robot y x t).drawing := by
  cases robot with
  | none => rfl
  | some p =>
    simp only [drawCell, markAt]
    split <;> rfl

/-- A row is drawn as its marks. -/
theorem drawRow_eq (robot : Option Pose) (y x : Nat) (row : List Tile) :
    drawRow robot y x row = (markRow robot y x row).flatMap Mark.drawing := by
  induction row generalizing x with
  | nil => rfl
  | cons t row ih =>
    rw [drawRow, ih, drawCell_eq, markRow_cons, List.flatMap_cons]

/-- A drawing has one line for every row of marks. -/
theorem drawRows_eq (robot : Option Pose) (y : Nat) (rows : List (List Tile)) :
    (drawRows robot y rows).map String.toList = (markRows robot y rows).map line := by
  induction rows generalizing y with
  | nil => rfl
  | cons row rows ih =>
    rw [drawRows, List.map_cons, ih, drawRow_eq, String.toList_ofList, markRows_cons, List.map_cons]
    rfl

/-- A grid is drawn line by line. -/
theorem toList_sketch (g : Grid) (robot : Option Pose) :
    (g.sketch robot).toList = ['\n'].intercalate ((g.marks robot).map line) := by
  rw [sketch, String.toList_intercalate, drawRows_eq]
  rfl

@[simp] theorem length_marks (g : Grid) (robot : Option Pose) :
    (g.marks robot).length = g.size := by
  rw [marks, markRows, List.length_map, List.length_zipIdx]
  rfl

/-- Nothing but tiles and robots along an axis is shown, and every row of a square is as wide as
there are rows. -/
theorem Square.forall_mem_marks (hg : g.Square) (h : ∀ p ∈ robot, p.heading ∈ Heading.compass) :
    ∀ ks ∈ g.marks robot, ks.length = g.size ∧ ∀ k ∈ ks, k ∈ Mark.all := by
  intro ks hks
  -- the number that a row carries does not matter here
  obtain ⟨⟨row, y⟩, hrow, rfl⟩ := List.mem_map.mp hks
  rw [List.mk_mem_zipIdx_iff_getElem?] at hrow
  refine ⟨?_, fun k hk => ?_⟩
  · rw [← hg.length_of_getElem? hrow]
    simp only [markRow, List.length_map, List.length_zipIdx]
  · obtain ⟨⟨t, x⟩, -, rfl⟩ := List.mem_map.mp hk
    cases robot with
    | none => exact Mark.tile_mem_all t
    | some p =>
      simp only [markAt]
      split
      · exact Mark.robot_mem_all (h p rfl)
      · exact Mark.tile_mem_all t

/-- The drawing of a square grid is read back. -/
theorem Square.readSketch_sketch (hg : g.Square) (hpos : 1 ≤ g.size)
    (h : ∀ p ∈ robot, p.heading ∈ Heading.compass) :
    readSketch (g.sketch robot) = some (g.marks robot) := by
  have hmarks := hg.forall_mem_marks h
  have hlines : (g.sketch robot).toList.splitOn '\n' = (g.marks robot).map line := by
    rw [toList_sketch]
    refine List.splitOn_intercalate '\n' (fun l hl => ?_) fun hnil => ?_
    · obtain ⟨ks, hks, rfl⟩ := List.mem_map.mp hl
      exact newline_notMem_line (hmarks ks hks).2
    · -- there is at least one row
      have hzero := congrArg List.length hnil
      rw [List.length_map, length_marks, List.length_nil] at hzero
      omega
  have hread : ((g.marks robot).map line).mapM (readLine g.size) = some ((g.marks robot).map id) :=
    mapM_map_eq_pure fun ks hks => by
      -- a row has as many marks as there are lines
      obtain ⟨hwidth, hall⟩ := hmarks ks hks
      rw [← hwidth]
      exact readLine_line hall
  rw [readSketch, hlines, List.length_map, length_marks, hread, List.map_id]

/-- Which mark a cell shows. -/
theorem getElem?_marks (g : Grid) (robot : Option Pose) (x y : Nat) :
    ((g.marks robot)[y]?.bind fun ks => ks[x]?) = (g.look? ⟨x, y⟩).map (markAt robot y x) := by
  rw [look?_natCast, marks, markRows, List.getElem?_map, List.getElem?_zipIdx]
  cases g.rows[y]? with
  | none => rfl
  | some row => simp [markRow, List.getElem?_map, List.getElem?_zipIdx, Function.comp_def]

/-! ## What the marks tell -/

/-- A cell without the robot is marked by its tile. -/
theorem markAt_of_ne {x y : Nat} (h : ∀ p ∈ robot, p.cell ≠ ⟨x, y⟩) (t : Tile) :
    markAt robot y x t = .tile t := by
  cases robot with
  | none => rfl
  | some p => exact if_neg (h p rfl)

/-- A robot is shown where it stands, as it looks. -/
theorem eq_of_markAt_eq_robot {x y : Nat} {t : Tile} {h : Heading}
    (hmark : markAt robot y x t = .robot h) : robot = some ⟨x, y, h⟩ := by
  cases robot with
  | none => exact nomatch hmark
  | some p =>
    simp only [markAt] at hmark
    split at hmark
    · next hcell =>
      obtain ⟨hx, hy⟩ := Cell.mk.inj hcell
      obtain rfl := Mark.robot.inj hmark
      rw [← hx, ← hy]
    · exact nomatch hmark

/-- Without a robot a row is marked by its tiles. -/
theorem markRow_none (y x : Nat) (row : List Tile) :
    markRow none y x row = row.map Mark.tile := by
  induction row generalizing x with
  | nil => rfl
  | cons t row ih =>
    rw [markRow_cons, ih]
    rfl

/-- Without a robot all rows are marked by their tiles. -/
theorem markRows_none (y : Nat) (rows : List (List Tile)) :
    markRows none y rows = rows.map fun row => row.map Mark.tile := by
  induction rows generalizing y with
  | nil => rfl
  | cons row rows ih => rw [markRows_cons, ih, markRow_none, List.map_cons]

/-- Without a robot all tiles are shown. -/
theorem marks_none (g : Grid) : g.marks none = g.rows.map fun row => row.map Mark.tile :=
  markRows_none 0 g.rows

/-- The tiles of all cells but the robot's are told by the marks. -/
theorem look?_eq_of_marks_eq {c : Cell} (h : g'.marks robot = g.marks robot)
    (hc : ∀ p ∈ robot, p.cell ≠ c) : g'.look? c = g.look? c := by
  by_cases h0 : 0 ≤ c.x ∧ 0 ≤ c.y
  · obtain ⟨x, y, rfl⟩ := exists_natCast_of_nonneg h0
    have hmarks := getElem?_marks g' robot x y
    rw [h, getElem?_marks g robot x y, funext (markAt_of_ne hc)] at hmarks
    exact (Option.map_injective (fun _ _ => Mark.tile.inj) hmarks).symm
  · rw [look?, look?, if_neg h0, if_neg h0]

/-- The robot on a grid is told by the marks. -/
theorem Square.robot_eq_of_marks_eq {robot' : Option Pose} (hg : g.Square)
    (hp : g.inBounds p.cell = true) (h : g'.marks robot' = g.marks (some p)) :
    robot' = some p := by
  obtain ⟨t, ht⟩ := hg.exists_look? hp
  obtain ⟨x, y, hcell, -, -⟩ := exists_natCast_of_inBounds hp
  -- the mark of this cell is the robot, so there is a robot on the other grid that shows it
  have hmark := getElem?_marks g' robot' x y
  rw [h, getElem?_marks g (some p) x y, ← hcell, ht, Option.map_some, markAt, if_pos hcell] at hmark
  obtain ⟨t', -, ht'⟩ := Option.map_eq_some_iff.mp hmark.symm
  obtain ⟨hx, hy⟩ := Cell.mk.inj hcell
  rw [eq_of_markAt_eq_robot ht', ← hx, ← hy]

/-- A robot that is not on the grid is not shown. -/
theorem Square.marks_of_not_inBounds (hg : g.Square) (hp : ¬ g.inBounds p.cell = true) :
    g.marks (some p) = g.marks none := by
  refine List.map_congr_left fun (row, y) hrow => List.map_congr_left fun (t, x) hcell => ?_
  rw [List.mk_mem_zipIdx_iff_getElem?] at hrow hcell
  refine markAt_of_ne (fun q hq hat => ?_) t
  obtain rfl := Option.some.inj hq
  have hlook : g.look? p.cell = some t := by rw [hat, look?_natCast, hrow, Option.bind_some, hcell]
  exact hp (hg.inBounds_of_look? hlook)

end Grid

namespace Maze

variable {m m' : Maze} {robot robot' : Option Pose}

/-- The drawing of a well-formed maze is read back. -/
theorem WellFormed.readSketch_sketch (hm : m.WellFormed)
    (h : ∀ p ∈ robot, p.heading ∈ Heading.compass) :
    Grid.readSketch (m.grid.sketch robot) = some (m.grid.marks robot) :=
  hm.square.readSketch_sketch hm.size_grid_pos h

example : trench.grid.sketch (some ⟨0, 1, .north⟩) = "S O G\n^ ██.\n. . ." := by decide

/-- Mazes that are drawn alike have the same marks. -/
theorem WellFormed.marks_eq_of_sketch_eq (hm : m.WellFormed) (hm' : m'.WellFormed)
    (h : ∀ p ∈ robot, p.heading ∈ Heading.compass)
    (h' : ∀ p ∈ robot', p.heading ∈ Heading.compass)
    (hsketch : m'.grid.sketch robot' = m.grid.sketch robot) :
    m'.grid.marks robot' = m.grid.marks robot := by
  have hread := hm'.readSketch_sketch h'
  rw [hsketch, hm.readSketch_sketch h] at hread
  exact (Option.some.inj hread).symm

/-- The drawing of a well-formed maze is read back, so mazes that are drawn alike have the same
grid.  A robot on the grid that looks along an axis is told by the drawing, with the size and
every tile but the one under it; a robot that is not on the grid is not drawn. -/
theorem sketch_faithful (m m' : Maze) (hm : m.WellFormed) (hm' : m'.WellFormed) :
    Grid.readSketch m.grid.sketch = some (m.grid.rows.map fun row => row.map Mark.tile) ∧
    (m'.grid.sketch = m.grid.sketch ↔ m'.grid = m.grid) ∧
    (∀ p : Pose, ∀ robot' : Option Pose, m.grid.inBounds p.cell = true →
      p.heading ∈ Heading.compass → (∀ p' ∈ robot', p'.heading ∈ Heading.compass) →
      m'.grid.sketch robot' = m.grid.sketch (some p) →
      robot' = some p ∧ m'.size = m.size ∧ ∀ c ≠ p.cell, m'.grid.look? c = m.grid.look? c) ∧
    ∀ p : Pose, ¬ m.grid.inBounds p.cell = true → m.grid.sketch (some p) = m.grid.sketch := by
  refine ⟨?_, ⟨fun hsketch => ?_, fun h => by rw [h]⟩, fun p robot' hp hheading h' hsketch => ?_,
    fun p hp => ?_⟩
  · rw [hm.readSketch_sketch fun p hp => (Option.not_mem_none p hp).elim, Grid.marks_none]
  · have hmarks := hm.marks_eq_of_sketch_eq hm' (fun p hp => (Option.not_mem_none p hp).elim)
      (fun p hp => (Option.not_mem_none p hp).elim) hsketch
    rw [Grid.marks_none, Grid.marks_none] at hmarks
    -- different tiles leave different marks
    have htiles : Function.Injective (List.map (List.map Mark.tile)) :=
      List.map_injective_iff.mpr (List.map_injective_iff.mpr fun _ _ => Mark.tile.inj)
    exact congrArg Grid.mk (htiles hmarks)
  · -- the robot's own mark tells its cell and heading, the other marks the tiles
    have hrobot : ∀ q ∈ some p, q.heading ∈ Heading.compass := by
      rintro q ⟨⟩
      exact hheading
    have hmarks := hm.marks_eq_of_sketch_eq hm' hrobot h' hsketch
    obtain rfl := hm.square.robot_eq_of_marks_eq hp hmarks
    refine ⟨rfl, ?_, fun c hc => Grid.look?_eq_of_marks_eq hmarks ?_⟩
    · have hsize := congrArg List.length hmarks
      rwa [Grid.length_marks, Grid.length_marks, Grid.size, Grid.size, hm'.rows_length,
        hm.rows_length] at hsize
    · rintro q ⟨⟩
      exact hc.symm
  · refine String.toList_inj.mp ?_
    rw [Grid.toList_sketch, Grid.toList_sketch, hm.square.marks_of_not_inBounds hp]

/-- Two mazes that differ under the robot only: they are drawn apart without it, and alike with
it. -/
theorem sketch_faithful_trench :
    let p : Pose := ⟨0, 1, .north⟩
    let m : Maze := { trench with grid := trench.grid.put p.cell .hole }
    trench.WellFormed ∧ m.WellFormed ∧ trench.grid.inBounds p.cell = true ∧
      p.heading ∈ Heading.compass ∧ m.grid.sketch (some p) = trench.grid.sketch (some p) ∧
      m.grid.sketch ≠ trench.grid.sketch ∧ ∀ c ≠ p.cell, m.grid.look? c = trench.grid.look? c := by
  intro p m
  have hm : m.WellFormed := ⟨by decide, by decide, by decide⟩
  have hinside : trench.grid.inBounds p.cell = true := by decide
  have hheading : p.heading ∈ Heading.compass := by decide
  have hsketch : m.grid.sketch (some p) = trench.grid.sketch (some p) := by decide
  obtain ⟨-, hsame, hrobot, -⟩ := sketch_faithful trench m trench_wellFormed hm
  obtain ⟨-, -, hlook⟩ :=
    hrobot p (some p) hinside hheading (by rintro q ⟨⟩; exact hheading) hsketch
  exact ⟨trench_wellFormed, hm, hinside, hheading, hsketch, mt hsame.mp (by decide), hlook⟩

end Maze

end MazeRobot
