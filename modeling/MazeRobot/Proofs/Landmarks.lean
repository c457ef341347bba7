import Mathlib.Data.Set.Card
import MazeRobot.Proofs.Grid

/-!
# Where a tile stands

A grid can be read cell by cell, the top row first (`Grid.entries`).  Looking for a tile
stops at the first entry that holds it (`find?_eq_entries`), and counting it counts the
entries that do (`countTile_eq_entries`).  The entries are the view of `Grid.look?`, each
cell once (`mem_entries`, `nodup_entries`), so both can be told from the set of cells that
hold the tile (`Grid.occurrences`), whatever the order:

* `look?_of_find?`       what is found holds the tile
* `find?_of_unique`      the only cell that holds the tile is found
* `ncard_occurrences`    the count is the number of cells that hold the tile
* `Square.landmarks`     one start and one goal are found, in bounds and apart
-/

namespace MazeRobot

namespace Grid

variable {g : Grid} {c : Cell} {t : Tile}

/-- Only the edge length of a grid bears on what is in bounds. -/
theorem inBounds_of_size_eq {g' : Grid} (h : g.size = g'.size) (c : Cell) :
    g.inBounds c = g'.inBounds c := by
  rw [inBounds, inBounds, h]

/-! ## Reading a grid cell by cell -/

/-- The cells of a row with their tiles, from column `x` on. -/
def rowEntries (y x : Nat) (row : List Tile) : List (Cell × Tile) :=
  (row.zipIdx x).map fun (t, x) => (⟨x, y⟩, t)

/-- The cells of some rows with their tiles, from row `y` on. -/
def entriesFrom (y : Nat) (rows : List (List Tile)) : List (Cell × Tile) :=
  (rows.zipIdx y).flatMap fun (row, y) => rowEntries y 0 row

/-- The cells of a grid with their tiles, in reading order. -/
def entries (g : Grid) : List (Cell × Tile) := entriesFrom 0 g.rows

theorem entriesFrom_cons (y : Nat) (row : List Tile) (rows : List (List Tile)) :
    entriesFrom y (row :: rows) = rowEntries y 0 row ++ entriesFrom (y + 1) rows := by
  rw [entriesFrom, List.zipIdx_cons, List.flatMap_cons]
  rfl

theorem rowEntries_cons (y x : Nat) (t : Tile) (row : List Tile) :
    rowEntries y x (t :: row) = (⟨x, y⟩, t) :: rowEntries y (x + 1) row := by
  rw [rowEntries, List.zipIdx_cons, List.map_cons]
  rfl

/-- The entries are the tiles of the view. -/
theorem mem_entries : (c, t) ∈ g.entries ↔ g.look? c = some t := by
  simp only [entries, entriesFrom, rowEntries, List.mem_flatMap, List.mem_map, Prod.exists,
    List.mk_mem_zipIdx_iff_getElem?, Prod.mk.injEq]
  constructor
  · rintro ⟨row, y, hrow, t', x, hcell, rfl, rfl⟩
    rw [look?_natCast, hrow, Option.bind_some, hcell]
  · intro h
    obtain ⟨⟨hx, hy⟩, row, hrow, hcell⟩ := exists_row_of_look? h
    refine ⟨row, c.y.toNat, hrow, t, c.x.toNat, hcell, ?_, rfl⟩
    rw [Int.toNat_of_nonneg hx, Int.toNat_of_nonneg hy]

/-- The tiles of the cells of a row are the row. -/
theorem map_snd_rowEntries (y x : Nat) (row : List Tile) :
    (rowEntries y x row).map Prod.snd = row := by
  induction row generalizing x with
  | nil => rfl
  | cons t row ih => rw [rowEntries_cons, List.map_cons, ih]

/-- The tiles of all cells are those of the rows. -/
theorem map_snd_entriesFrom (y : Nat) (rows : List (List Tile)) :
    (entriesFrom y rows).map Prod.snd = rows.flatten := by
  induction rows generalizing y with
  | nil => rfl
  | cons row rows ih =>
    rw [entriesFrom_cons, List.map_append, map_snd_rowEntries, ih, List.flatten_cons]

/-- No two elements of a numbered list have the same number. -/
private theorem pairwise_zipIdx {α : Type} (xs : List α) (n : Nat) :
    (xs.zipIdx n).Pairwise fun a b => a.2 ≠ b.2 := by
  have hnodup : ((xs.zipIdx n).map Prod.snd).Nodup := by
    rw [List.zipIdx_map_snd]
    exact List.nodup_range'
  exact List.pairwise_map.mp hnodup

/-- Every cell is read once. -/
theorem nodup_entries (g : Grid) : (g.entries.map Prod.fst).Nodup := by
  rw [List.Nodup, List.pairwise_map, entries, entriesFrom, List.pairwise_flatMap]
  constructor
  · rintro ⟨row, y⟩ -
    refine List.pairwise_map.mpr ((pairwise_zipIdx row 0).imp fun hne hcell => hne ?_)
    simpa using congrArg Cell.x hcell
  · refine (pairwise_zipIdx g.rows 0).imp fun {_ _} hne e he f hf hcell => hne ?_
    -- entries of different rows differ in `y`
    obtain ⟨_, _, rfl⟩ := List.mem_map.mp he
    obtain ⟨_, _, rfl⟩ := List.mem_map.mp hf
    simpa using congrArg Cell.y hcell

/-! ## Looking for a tile -/

/-- The first cell of a row with a property stands at the first such index. -/
theorem find?_rowEntries (p : Tile → Bool) (y x : Nat) (row : List Tile) :
    ((rowEntries y x row).find? fun e => p e.2).map Prod.fst =
      (row.findIdx? p).map fun i => ⟨x + i, y⟩ := by
  induction row generalizing x with
  | nil => rfl
  | cons t row ih =>
    rw [rowEntries_cons, List.findIdx?_cons, List.find?_cons]
    cases p t with
    | true => simp
    -- the entries to the right start one column on
    | false =>
      simp only [ih, Bool.false_eq_true, if_false, Option.map_map]
      congr 1
      funext i
      simp [Cell.mk.injEq]
      omega

/-- Searching row by row finds the first such cell in reading order. -/
theorem go_eq_entries (p : Tile → Bool) (y : Nat) (rows : List (List Tile)) :
    findCell?.go p y rows = ((entriesFrom y rows).find? fun e => p e.2).map Prod.fst := by
  induction rows generalizing y with
  | nil => rfl
  | cons row rows ih =>
    have hrow := find?_rowEntries p y 0 row
    rw [findCell?.go, entriesFrom_cons, List.find?_append, Option.map_or, hrow, ← ih]
    cases row.findIdx? p <;> simp

/-- A tile is found on the first cell that holds it. -/
theorem find?_eq_entries (g : Grid) (t : Tile) :
    g.find? t = (g.entries.find? fun e => e.2 == t).map Prod.fst :=
  go_eq_entries _ 0 g.rows

/-- What is found holds the tile. -/
theorem look?_of_find? (h : g.find? t = some c) : g.look? c = some t := by
  rw [find?_eq_entries] at h
  obtain ⟨⟨d, u⟩, hfound, rfl⟩ := Option.map_eq_some_iff.mp h
  obtain rfl : u = t := by simpa using List.find?_some hfound
  exact mem_entries.mp (List.mem_of_find?_eq_some hfound)

/-- A tile is missed only if no cell holds it. -/
theorem exists_find? (h : g.look? c = some t) : ∃ d, g.find? t = some d := by
  rw [find?_eq_entries]
  cases hfound : g.entries.find? fun e => e.2 == t with
  | some e => exact ⟨e.1, rfl⟩
  | none => simpa using List.find?_eq_none.mp hfound (c, t) (mem_entries.mpr h)

/-- The only cell that holds a tile is found. -/
theorem find?_of_unique (h : g.look? c = some t) (unique : ∀ d, g.look? d = some t → d = c) :
    g.find? t = some c := by
  obtain ⟨d, hd⟩ := exists_find? h
  rw [hd, unique d (look?_of_find? hd)]

/-! ## Counting a tile -/

/-- The cells that hold a tile. -/
def occurrences (g : Grid) (t : Tile) : Set Cell := { c | g.look? c = some t }

/-- Tiles are counted as the cells that hold them. -/
theorem countTile_eq_entries (g : Grid) (t : Tile) :
    g.countTile t = g.entries.countP fun e => e.2 == t := by
  rw [countTile, ← map_snd_entriesFrom 0 g.rows, List.count, List.countP_map]
  rfl

/-- Counting tiles row by row counts the cells that hold them. -/
theorem ncard_occurrences (g : Grid) (t : Tile) : (g.occurrences t).ncard = g.countTile t := by
  have hset : g.occurrences t =
      ((g.entries.filter fun e => e.2 == t).map Prod.fst).toFinset := by
    ext c
    simp [occurrences, ← mem_entries]
  have hnodup : ((g.entries.filter fun e => e.2 == t).map Prod.fst).Nodup :=
    (nodup_entries g).sublist (List.filter_sublist.map Prod.fst)
  rw [hset, Set.ncard_coe_finset, List.toFinset_card_of_nodup hnodup, List.length_map,
    countTile_eq_entries, List.countP_eq_length_filter]

/-- A tile that occurs once stands on one cell. -/
theorem exists_unique_of_ncard (h : (g.occurrences t).ncard = 1) :
    ∃ c, g.find? t = some c ∧ ∀ d, g.look? d = some t ↔ d = c := by
  obtain ⟨c, hc⟩ := Set.ncard_eq_one.mp h
  have hiff (d : Cell) : g.look? d = some t ↔ d = c := by
    have := Set.ext_iff.mp hc d
    simpa [occurrences] using this
  exact ⟨c, find?_of_unique ((hiff c).mpr rfl) fun d hd => (hiff d).mp hd, hiff⟩

/-- A tile occurs once if one cell and no other holds it. -/
theorem ncard_occurrences_eq_one_iff :
    (g.occurrences t).ncard = 1 ↔ ∃! c, g.look? c = some t := by
  constructor
  · intro h
    obtain ⟨c, -, hc⟩ := exists_unique_of_ncard h
    exact ⟨c, (hc c).mpr rfl, fun d hd => (hc d).mp hd⟩
  · rintro ⟨c, hc, unique⟩
    exact Set.ncard_eq_one.mpr ⟨c, Set.eq_singleton_iff_unique_mem.mpr ⟨hc, unique⟩⟩

/-! ## Start and goal -/

/-- There is one start and one goal, on cells of their own in bounds, and both are found. -/
structure Landmarks (g : Grid) (start goal : Cell) : Prop where
  start_iff : ∀ c, g.look? c = some .start ↔ c = start
  goal_iff : ∀ c, g.look? c = some .goal ↔ c = goal
  ne : start ≠ goal
  inBounds_start : g.inBounds start = true
  inBounds_goal : g.inBounds goal = true
  startCell_eq : g.startCell = start
  goalCell?_eq : g.goalCell? = some goal

/-- It is enough to know which cells hold the two tiles. -/
theorem Square.landmarks (hg : g.Square) {start goal : Cell}
    (hstart : ∀ c, g.look? c = some .start ↔ c = start)
    (hgoal : ∀ c, g.look? c = some .goal ↔ c = goal) : g.Landmarks start goal := by
  have hs := (hstart start).mpr rfl
  have ht := (hgoal goal).mpr rfl
  have hfind := find?_of_unique hs fun d => (hstart d).mp
  refine ⟨hstart, hgoal, fun hsame => ?_, hg.inBounds_of_look? hs, hg.inBounds_of_look? ht, ?_,
    find?_of_unique ht fun d => (hgoal d).mp⟩
  · rw [hsame, ht] at hs
    exact nomatch hs
  · rw [startCell, hfind, Option.getD_some]

end Grid

/-- The start cell of a maze is on its grid, whether or not there is a start tile. -/
theorem Maze.WellFormed.inBounds_startPose {m : Maze} (hm : m.WellFormed) (heading : Heading) :
    m.grid.inBounds (m.startPose heading).cell = true := by
  show m.grid.inBounds m.grid.startCell = true
  unfold Grid.startCell
  cases hfind : m.grid.find? .start with
  | some c => exact hm.square.inBounds_of_look? (Grid.look?_of_find? hfind)
  | none =>
    have hpos := hm.size_grid_pos
    rw [Option.getD_none, Grid.inBounds_iff]
    dsimp only
    omega

end MazeRobot
