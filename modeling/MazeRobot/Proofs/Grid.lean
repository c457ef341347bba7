import MazeRobot.Maze.Basic

/-!
# Square grids

On a square grid the bounds check decides whether a cell can be read, so reading and
writing never fail in bounds.  `Grid.look?` is the view in which this is said: the tile of
a cell, and nothing beyond the edges.  `Grid.put` is the replacement of a tile, and these
lemmas bridge to the view:

* `look?_isSome_iff`   a cell has a tile iff it is in bounds
* `tileAt_of_look?`    reading gives the tile of the view
* `setTile_eq_put`     writing in bounds is `put`
* `Square.ext`         square grids of one size are told apart by the view
* `look?_put_self`, `look?_put_of_ne`   what `put` does to the view
* `look?_fill_self`, `look?_fill_of_ne`   what filling a hole does to the view
-/

namespace MazeRobot

namespace Position

/-- Reading at a position counted from the front. -/
theorem get_of_getElem? {xs : List α} {i : Int} {a : α} (h0 : 0 ≤ i)
    (h : xs[i.toNat]? = some a) : get xs i = .ok a := by
  obtain ⟨hlt, _⟩ := List.getElem?_eq_some_iff.mp h
  have hi : i < xs.length := by omega
  simp [get, resolve?_of_lt h0 hi, h]

/-- Replacing at a position counted from the front. -/
theorem set_of_lt {xs : List α} {i : Int} (a : α) (h0 : 0 ≤ i) (h : i < xs.length) :
    set xs i a = .ok (xs.set i.toNat a) := by
  simp [set, resolve?_of_lt h0 h]

/-- What is read is an element of the list, at the index that the position names. -/
theorem getElem?_of_get {xs : List α} {i : Int} {a : α} (h : get xs i = .ok a) :
    ∃ k, resolve? xs.length i = some k ∧ xs[k]? = some a := by
  unfold get at h
  cases hr : resolve? xs.length i with
  | none => simp [hr] at h
  | some k =>
    refine ⟨k, rfl, ?_⟩
    cases hk : xs[k]? with
    | none => simp [hr, hk] at h
    | some b => simpa [hr, hk] using h

/-- A replacement is one at the index that the position names. -/
theorem eq_set_of_set {xs ys : List α} {i : Int} {a : α} (h : set xs i a = .ok ys) :
    ∃ k, resolve? xs.length i = some k ∧ ys = xs.set k a := by
  unfold set at h
  cases hr : resolve? xs.length i with
  | none => simp [hr] at h
  | some k =>
    simp only [hr, Except.ok.injEq] at h
    exact ⟨k, rfl, h.symm⟩

end Position

/-- What filling holes leaves of a tile. -/
def Tile.filled (t : Tile) : Tile := if t = .hole then .floor else t

namespace Grid

/-- The tile of a cell; cells beyond the edges have none. -/
def look? (g : Grid) (c : Cell) : Option Tile :=
  if 0 ≤ c.x ∧ 0 ≤ c.y then g.rows[c.y.toNat]?.bind fun row => row[c.x.toNat]? else none

/-- The grid with one tile replaced; a cell beyond the edges changes nothing. -/
def put (g : Grid) (c : Cell) (t : Tile) : Grid :=
  ⟨g.rows.modify c.y.toNat fun row => row.set c.x.toNat t⟩

/-- Every row is as long as the grid is high. -/
structure Square (g : Grid) : Prop where
  row_length : ∀ row ∈ g.rows, row.length = g.size

variable {g : Grid} {c d : Cell} {t u : Tile}

/-- The bounds check in terms of the coordinates. -/
theorem inBounds_iff :
    g.inBounds c = true ↔ (0 ≤ c.x ∧ c.x < g.size) ∧ 0 ≤ c.y ∧ c.y < g.size := by
  simp only [inBounds, Bool.and_eq_true, decide_eq_true_eq]
  omega

/-! ## The view of a square grid -/

/-- A row of a square grid is as long as the grid is high. -/
theorem Square.length_of_getElem? (hg : g.Square) {y : Nat} {row : List Tile}
    (h : g.rows[y]? = some row) : row.length = g.size :=
  hg.row_length row (List.mem_of_getElem? h)

/-- In bounds there is a tile, and only there. -/
theorem Square.look?_isSome_iff (hg : g.Square) :
    (g.look? c).isSome = true ↔ g.inBounds c = true := by
  rw [inBounds_iff]
  unfold look?
  split
  · rename_i h0
    -- first the row, then the column
    cases hrow : g.rows[c.y.toNat]? with
    | none =>
      have hy := List.getElem?_eq_none_iff.mp hrow
      simp only [Option.bind_none, Option.isSome_none, Bool.false_eq_true, false_iff]
      unfold size
      omega
    | some row =>
      obtain ⟨hy, _⟩ := List.getElem?_eq_some_iff.mp hrow
      have hlen := hg.length_of_getElem? hrow
      rw [Option.bind_some, isSome_getElem?, hlen]
      unfold size
      omega
  · rename_i h0
    simp only [Option.isSome_none, Bool.false_eq_true, false_iff]
    omega

/-- In bounds of a square grid there is a tile. -/
theorem Square.exists_look? (hg : g.Square) (h : g.inBounds c = true) :
    ∃ t, g.look? c = some t :=
  Option.isSome_iff_exists.mp (hg.look?_isSome_iff.mpr h)

/-- Out of bounds of a square grid there is no tile. -/
theorem Square.look?_eq_none (hg : g.Square) (h : ¬ g.inBounds c = true) : g.look? c = none := by
  rw [← hg.look?_isSome_iff] at h
  simpa using h

/-- A tile of a square grid is in bounds. -/
theorem Square.inBounds_of_look? (hg : g.Square) (h : g.look? c = some t) :
    g.inBounds c = true :=
  hg.look?_isSome_iff.mp (by rw [h, Option.isSome_some])

/-- A tile of the view stands in a row, and both positions count from the front. -/
theorem exists_row_of_look? (h : g.look? c = some t) :
    (0 ≤ c.x ∧ 0 ≤ c.y) ∧ ∃ row, g.rows[c.y.toNat]? = some row ∧ row[c.x.toNat]? = some t := by
  unfold look? at h
  split at h
  · rename_i h0
    exact ⟨h0, Option.bind_eq_some_iff.mp h⟩
  · exact nomatch h

/-- The row of a cell in bounds is there, however long it is. -/
theorem exists_row_of_inBounds (h : g.inBounds c = true) :
    (0 ≤ c.x ∧ 0 ≤ c.y) ∧ ∃ row, g.rows[c.y.toNat]? = some row := by
  obtain ⟨⟨hx, -⟩, hy, hlt⟩ := inBounds_iff.mp h
  have hrow : c.y.toNat < g.rows.length := by unfold size at hlt; omega
  exact ⟨⟨hx, hy⟩, _, List.getElem?_eq_getElem hrow⟩

/-- What is left to do once the row of a cell has been read. -/
theorem tileAt_of_get {row : List Tile} (hget : Position.get g.rows c.y = .ok row) :
    g.tileAt c = (Position.get row c.x).mapError CellFault.ofReading := by
  unfold tileAt
  rw [hget]
  rfl

/-- Reading gives the tile of the view. -/
theorem tileAt_of_look? (h : g.look? c = some t) : g.tileAt c = .ok t := by
  obtain ⟨h0, row, hrow, hcell⟩ := exists_row_of_look? h
  rw [tileAt_of_get (Position.get_of_getElem? h0.2 hrow), Position.get_of_getElem? h0.1 hcell]
  rfl

/-- In bounds of any grid nothing but the tile of the view is read. -/
theorem look?_of_tileAt? (hin : g.inBounds c = true) (h : g.tileAt? c = some t) :
    g.look? c = some t := by
  obtain ⟨h0, row, hrow⟩ := exists_row_of_inBounds hin
  rw [tileAt?, tileAt_of_get (Position.get_of_getElem? h0.2 hrow)] at h
  cases hcell : Position.get row c.x with
  | error fault =>
    rw [hcell] at h
    exact nomatch h
  | ok u =>
    rw [hcell] at h
    obtain rfl := Option.some.inj h
    obtain ⟨k, hres, hk⟩ := Position.getElem?_of_get hcell
    -- a position counted from the front is its own index
    have hx : c.x < row.length := by
      unfold Position.resolve? at hres
      grind
    rw [Position.resolve?_of_lt h0.1 hx] at hres
    obtain rfl := Option.some.inj hres
    rw [look?, if_pos h0, hrow, Option.bind_some, hk]

/-- Reading that may come to nothing gives the tile of the view. -/
theorem tileAt?_of_look? (h : g.look? c = some t) : g.tileAt? c = some t := by
  rw [tileAt?, tileAt_of_look? h]
  rfl

/-- For natural coordinates the view needs no case distinction. -/
theorem look?_natCast (x y : Nat) : g.look? ⟨x, y⟩ = g.rows[y]?.bind fun row => row[x]? := by
  simp [look?]

/-- Coordinates that are not negative are natural numbers. -/
theorem exists_natCast_of_nonneg (h0 : 0 ≤ c.x ∧ 0 ≤ c.y) : ∃ x y : Nat, c = ⟨x, y⟩ := by
  obtain ⟨x, hx⟩ := Int.eq_ofNat_of_zero_le h0.1
  obtain ⟨y, hy⟩ := Int.eq_ofNat_of_zero_le h0.2
  exact ⟨x, y, congr (congrArg Cell.mk hx) hy⟩

/-- The cells in bounds are those with small natural coordinates. -/
theorem exists_natCast_of_inBounds (h : g.inBounds c = true) :
    ∃ x y : Nat, c = ⟨x, y⟩ ∧ x < g.size ∧ y < g.size := by
  obtain ⟨⟨hx0, hx⟩, hy0, hy⟩ := inBounds_iff.mp h
  obtain ⟨x, y, rfl⟩ := exists_natCast_of_nonneg ⟨hx0, hy0⟩
  exact ⟨x, y, rfl, Int.ofNat_lt.mp hx, Int.ofNat_lt.mp hy⟩

/-- Square grids of one size with the same view are the same. -/
theorem Square.ext {g' : Grid} (hg : g.Square) (hg' : g'.Square) (hsize : g'.size = g.size)
    (h : ∀ c, g'.look? c = g.look? c) : g' = g := by
  have hrows : g'.rows = g.rows := by
    apply List.ext_getElem hsize
    intro y hy' hy
    -- the rows have one length in both, so the cells at one place are both there
    have hrow' := hg'.row_length _ (List.getElem_mem hy')
    have hrow := hg.row_length _ (List.getElem_mem hy)
    apply List.ext_getElem (by rw [hrow', hrow, hsize])
    intro x hx' hx
    have hcell := h ⟨x, y⟩
    rw [look?_natCast, look?_natCast, List.getElem?_eq_getElem hy', List.getElem?_eq_getElem hy,
      Option.bind_some, Option.bind_some, List.getElem?_eq_getElem hx',
      List.getElem?_eq_getElem hx] at hcell
    exact Option.some.inj hcell
  exact congrArg Grid.mk hrows

/-! ## Replacing a tile -/

/-- The rows after a replacement. -/
theorem getElem?_rows_put (y : Nat) :
    (g.put c t).rows[y]? =
      g.rows[y]?.map fun row => if c.y.toNat = y then row.set c.x.toNat t else row := by
  rw [put, List.getElem?_modify]
  rfl

@[simp] theorem size_put : (g.put c t).size = g.size := by
  simp [size, put]

/-- A replacement keeps a grid square. -/
theorem Square.put (hg : g.Square) (c : Cell) (t : Tile) : (g.put c t).Square := by
  refine ⟨fun row hrow => ?_⟩
  rw [size_put]
  obtain ⟨y, hy⟩ := List.mem_iff_getElem?.mp hrow
  rw [getElem?_rows_put] at hy
  obtain ⟨row', hrow', rfl⟩ := Option.map_eq_some_iff.mp hy
  have hlen := hg.length_of_getElem? hrow'
  split
  · rw [List.length_set, hlen]
  · exact hlen

/-- A tile that is put is seen. -/
theorem look?_put_self (h : g.look? c = some u) : (g.put c t).look? c = some t := by
  obtain ⟨h0, row, hrow, hcell⟩ := exists_row_of_look? h
  obtain ⟨hx, _⟩ := List.getElem?_eq_some_iff.mp hcell
  unfold look?
  rw [if_pos h0, getElem?_rows_put, hrow]
  simp [List.getElem?_set_self hx]

/-- A replacement leaves the other cells. -/
theorem look?_put_of_ne (h : d ≠ c) (h0 : 0 ≤ c.x ∧ 0 ≤ c.y) :
    (g.put c t).look? d = g.look? d := by
  unfold look?
  split
  · rename_i hd
    rw [getElem?_rows_put]
    by_cases hy : c.y.toNat = d.y.toNat
    · -- the same row, so the columns differ
      have hx : c.x.toNat ≠ d.x.toNat := by
        intro hx
        apply h
        have hxe : d.x = c.x := by omega
        have hye : d.y = c.y := by omega
        cases d
        cases c
        simp_all
      cases g.rows[d.y.toNat]? with
      | none => rfl
      | some row => simp [hy, List.getElem?_set_ne hx]
    · simp [hy]
  · rfl

/-- Only coordinates that are not negative have a tile. -/
theorem nonneg_of_look? (h : g.look? c = some t) : 0 ≤ c.x ∧ 0 ≤ c.y :=
  (exists_row_of_look? h).1

/-- Which cells hold a tile once one has been put on a cell. -/
theorem Square.look?_put_eq_some_iff (hg : g.Square)
    (h : g.inBounds c = true) :
    (g.put c t).look? d = some u ↔ if d = c then u = t else g.look? d = some u := by
  obtain ⟨v, hv⟩ := hg.exists_look? h
  split
  · next hd => rw [hd, look?_put_self hv, Option.some.injEq, eq_comm]
  · next hd => rw [look?_put_of_ne hd (nonneg_of_look? hv)]

/-- What is left to do once a row has been read. -/
theorem setTile_of_get {row : List Tile} (hget : Position.get g.rows c.y = .ok row) (t : Tile) :
    g.setTile c t = (do
      let row ← (Position.set row c.x t).mapError CellFault.ofWriting
      let rows ← (Position.set g.rows c.y row).mapError CellFault.ofReading
      return ⟨rows⟩) := by
  unfold setTile
  rw [hget]
  rfl

/-- What is left to do once a row has been changed. -/
theorem setTile_of_set {row row' : List Tile} (hget : Position.get g.rows c.y = .ok row)
    (hset : Position.set row c.x t = .ok row') :
    g.setTile c t = (do
      let rows ← (Position.set g.rows c.y row').mapError CellFault.ofReading
      return ⟨rows⟩) := by
  rw [setTile_of_get hget, hset]
  rfl

/-- Writing where there is a tile is a replacement. -/
theorem setTile_of_look? (h : g.look? c = some u) (t : Tile) :
    g.setTile c t = .ok (g.put c t) := by
  obtain ⟨⟨hx0, hy0⟩, row, hrow, hcell⟩ := exists_row_of_look? h
  obtain ⟨hy, -⟩ := List.getElem?_eq_some_iff.mp hrow
  obtain ⟨hx, -⟩ := List.getElem?_eq_some_iff.mp hcell
  have hset : Position.set row c.x t = .ok (row.set c.x.toNat t) :=
    Position.set_of_lt t hx0 (by omega)
  rw [setTile_of_set (Position.get_of_getElem? hy0 hrow) hset,
    Position.set_of_lt _ hy0 (by omega), Grid.put, List.modify_eq_set, hrow]
  rfl

/-- Writing in bounds of a square grid is a replacement. -/
theorem Square.setTile_eq_put (hg : g.Square) (h : g.inBounds c = true) (t : Tile) :
    g.setTile c t = .ok (g.put c t) := by
  obtain ⟨u, hu⟩ := hg.exists_look? h
  exact setTile_of_look? hu t

/-- Whatever is written, one tile is replaced. -/
theorem exists_put_of_setTile {g' : Grid} (h : g.setTile c t = .ok g') :
    ∃ d, g' = g.put d t := by
  cases hget : Position.get g.rows c.y with
  | error f =>
    unfold setTile at h
    rw [hget] at h
    exact nomatch h
  | ok row =>
    obtain ⟨y, hres, hrow⟩ := Position.getElem?_of_get hget
    cases hset : Position.set row c.x t with
    | error f =>
      rw [setTile_of_get hget, hset] at h
      exact nomatch h
    | ok row' =>
      rw [setTile_of_set hget hset] at h
      obtain ⟨x, -, rfl⟩ := Position.eq_set_of_set hset
      -- the row goes back to where it was read
      have hrows : Position.set g.rows c.y (row.set x t) = .ok (g.rows.set y (row.set x t)) := by
        simp [Position.set, hres]
      rw [hrows] at h
      obtain rfl := Except.ok.inj h
      refine ⟨⟨x, y⟩, ?_⟩
      rw [put, Int.toNat_natCast, Int.toNat_natCast, List.modify_eq_set, hrow]
      rfl

/-! ## Filling a hole -/

/-- The grid with the hole at a cell turned into floor, if there is one. -/
def fill (g : Grid) (c : Cell) : Grid :=
  if g.look? c = some .hole then g.put c .floor else g

/-- Filling a cell fills its tile. -/
theorem look?_fill_self : (g.fill c).look? c = (g.look? c).map Tile.filled := by
  unfold fill
  split
  · rename_i hole
    rw [look?_put_self hole, hole]
    rfl
  · rename_i other
    cases htile : g.look? c with
    | none => rfl
    | some t =>
      have hne : t ≠ .hole := fun ht => other (by rw [htile, ht])
      rw [Option.map_some, Tile.filled, if_neg hne]

/-- Filling leaves the other cells. -/
theorem look?_fill_of_ne (h : d ≠ c) : (g.fill c).look? d = g.look? d := by
  unfold fill
  split
  · rename_i hole
    exact look?_put_of_ne h (nonneg_of_look? hole)
  · rfl

/-- A cell that has been filled holds no hole. -/
theorem fill_fill : (g.fill c).fill c = g.fill c := by
  have hno : ¬ (g.fill c).look? c = some .hole := by
    rw [look?_fill_self]
    intro h
    obtain ⟨t, -, ht⟩ := Option.map_eq_some_iff.mp h
    unfold Tile.filled at ht
    split at ht
    · exact nomatch ht
    · contradiction
  exact if_neg hno

end Grid

/-- The grid of a well-formed maze is square. -/
theorem Maze.WellFormed.square {m : Maze} (hm : m.WellFormed) : m.grid.Square :=
  ⟨fun row hrow => (hm.row_length row hrow).trans hm.rows_length.symm⟩

/-- The grid of a well-formed maze has a row. -/
theorem Maze.WellFormed.size_grid_pos {m : Maze} (hm : m.WellFormed) : 1 ≤ m.grid.size :=
  Nat.le_trans hm.size_pos (Nat.le_of_eq hm.rows_length.symm)

/-- Replacing a tile keeps a maze well formed. -/
theorem Maze.WellFormed.setTile {m m' : Maze} {c : Cell} {t : Tile} (hm : m.WellFormed)
    (h : m.setTile c t = .ok m') : m'.WellFormed := by
  unfold Maze.setTile at h
  cases hset : m.grid.setTile c t with
  | error f => rw [hset] at h; exact nomatch h
  | ok g =>
    rw [hset] at h
    obtain rfl := Except.ok.inj h
    obtain ⟨d, rfl⟩ := Grid.exists_put_of_setTile hset
    have hsize : (m.grid.put d t).rows.length = m.size :=
      Grid.size_put.trans hm.rows_length
    exact ⟨hm.size_pos, hsize, fun row hrow =>
      ((hm.square.put d t).row_length row hrow).trans hsize⟩

/-- A small maze whose goal lies behind a hole. -/
def Maze.trench : Maze where
  id := ⟨[]⟩
  name := ⟨[]⟩
  size := 3
  grid := ⟨[[.start, .hole, .goal], [.floor, .wall, .floor], [.floor, .floor, .floor]]⟩

/-- The small maze has three rows of three tiles. -/
theorem Maze.trench_wellFormed : Maze.trench.WellFormed :=
  ⟨by decide, by decide, by decide⟩

end MazeRobot
