import MazeRobot.Proofs.Maze.Record
import MazeRobot.Proofs.Grid
import MazeRobot.Store.Database

/-!
# Rows of a database are read back

A row is read as a maze exactly if its columns say so and the maze is well formed
(`ofRow_eq_ok_iff`).  Both ways of writing a grid down come to the same: its text is decoded to
the value that the connection may have decoded already (`decodeColumn_gridText`).  So the row
of a well-formed maze is read as that maze either way, however the connection hands it out,
and a row whose grid is no square of tiles is never read at all.
-/

namespace MazeRobot

namespace Row

variable {row : Row} {nesting : Nat} {v : Json}

/-- A column is there if the row has it. -/
theorem column_eq_ok_iff {name : String} :
    row.column name = .ok v ↔ Json.field? name row = some v := by
  unfold column
  cases Json.field? name row <;> simp

/-- The columns of grid and size describe a grid. -/
structure Holds (row : Row) (nesting : Nat) (g : Grid) : Prop where
  grid : ∃ v, row.column "grid" = .ok v ∧ decodeColumn nesting v = .ok g.toJson
  size : ∃ v, row.column "size" = .ok v ∧ Checked.integer v = .ok (g.size : Int)

/-- The text of a grid is decoded to its rows of tile words. -/
theorem decodeColumn_gridText (m : Maze) (hnesting : 2 ≤ nesting) :
    decodeColumn nesting (.str m.gridText) = .ok m.grid.toJson := by
  obtain ⟨room, rfl⟩ := Nat.exists_eq_add_of_le' hnesting
  have hread : Json.read .lenient (room + 2) m.gridText = .ok m.grid.toJson :=
    Json.read_render .lenient .spaced (Maze.plain_gridToJson room m.grid)
  rw [decodeColumn, decodeGrid, hread]
  rfl

/-- A grid that is decoded already stays as it is. -/
theorem decodeColumn_toJson (g : Grid) (nesting : Nat) :
    decodeColumn nesting g.toJson = .ok g.toJson := rfl

end Row

namespace Maze

variable {m : Maze} {row : Row} {nesting : Nat}

/-- What a row has to say to be read as a maze. -/
theorem ofRow_eq_ok_iff :
    ofRow row nesting = .ok m ↔
      row.Holds nesting m.grid ∧ row.column "id" = .ok (.str m.id) ∧
        row.column "name" = .ok (.str m.name) ∧ m.WellFormed := by
  show (Except.bind (row.column "grid") fun v => (Row.decodeColumn nesting v).bind fun grid =>
    (row.column "id").bind fun id => (row.column "name").bind fun name =>
      (row.column "size").bind fun size =>
        ofJson (.obj [("id", id), ("name", name), ("size", size), ("grid", grid)])) = .ok m ↔ _
  simp only [bind_eq_ok_iff, ofJson_eq_ok_iff, Json.obj.injEq]
  -- the record that is checked has the four columns as its fields
  constructor
  · rintro ⟨v, hv, grid, hgrid, id, hid, name, hname, size, hsize, _, rfl, h, hm⟩
    obtain rfl := Option.some.inj h.grid
    obtain rfl := Option.some.inj h.id
    obtain rfl := Option.some.inj h.name
    obtain ⟨_, hfield, hinteger⟩ := h.size
    obtain rfl := Option.some.inj hfield
    rw [← hm.rows_length] at hinteger
    exact ⟨⟨⟨v, hv, hgrid⟩, size, hsize, hinteger⟩, hid, hname, hm⟩
  · rintro ⟨⟨⟨v, hv, hgrid⟩, size, hsize, hinteger⟩, hid, hname, hm⟩
    refine ⟨v, hv, _, hgrid, _, hid, _, hname, size, hsize, _, rfl, ⟨rfl, rfl, ?_, rfl⟩, hm⟩
    exact ⟨size, rfl, hinteger.trans (congrArg _ (congrArg _ hm.rows_length))⟩

/-- The row of a maze with any value for its grid that is decoded to the grid. -/
theorem ofRow_of_decoded (hm : m.WellFormed) {v : Json}
    (hv : Row.decodeColumn nesting v = .ok m.grid.toJson) {row : Row}
    (hid : Json.field? "id" row = some (.str m.id))
    (hname : Json.field? "name" row = some (.str m.name))
    (hsize : Json.field? "size" row = some (.int m.size))
    (hgrid : Json.field? "grid" row = some v) : ofRow row nesting = .ok m := by
  refine ofRow_eq_ok_iff.mpr ⟨⟨⟨v, ?_, hv⟩, .int m.size, ?_, ?_⟩, ?_, ?_, hm⟩
  · exact Row.column_eq_ok_iff.mpr hgrid
  · exact Row.column_eq_ok_iff.mpr hsize
  · exact congrArg (Except.ok ∘ Nat.cast) hm.rows_length.symm
  · exact Row.column_eq_ok_iff.mpr hid
  · exact Row.column_eq_ok_iff.mpr hname

/-- The row of a well-formed maze is read as the maze. -/
theorem ofRow_toRow (hm : m.WellFormed) (hnesting : 2 ≤ nesting) :
    ofRow m.toRow nesting = .ok m :=
  ofRow_of_decoded hm (Row.decodeColumn_gridText m hnesting) rfl rfl rfl rfl

end Maze

/-! ## Saving and loading -/

namespace DatabaseStore

variable {s : DatabaseStore} {m : Maze}

/-- Saving asks for one insertion and puts one row into the table. -/
theorem save_of_open (hopen : s.isOpen = true) (m : Maze) :
    (MazeStore.save s m).1 =
      (s.ask (.execute insert (m.toRow.map Prod.snd))).withTable
        (s.database.table.put (.ofText m.id) m.toRow) := by
  show (s.whenOpen _).1 = _
  rw [whenOpen, if_pos hopen]
  rfl

/-- However the connection hands the row of a maze out, it is read as the maze. -/
theorem exists_handOut_toRow (hm : m.WellFormed) (db : Database) {nesting : Nat}
    (hnesting : 2 ≤ nesting) :
    ∃ row, db.handOut nesting m.toRow = .ok row ∧ Maze.ofRow row nesting = .ok m := by
  have hcolumn : m.toRow.column "grid" = .ok (.str m.gridText) := rfl
  unfold Database.handOut
  split
  · -- the decoded grid stands behind the text and takes its place
    refine ⟨m.toRow ++ ([("grid", m.grid.toJson)] : Row), ?_, ?_⟩
    · rw [hcolumn]
      show Except.bind (Row.decodeColumn nesting (.str m.gridText)) _ = _
      rw [Row.decodeColumn_gridText m hnesting]
      rfl
    · exact Maze.ofRow_of_decoded hm (Row.decodeColumn_toJson _ _) rfl rfl rfl rfl
  · exact ⟨m.toRow, rfl, Maze.ofRow_toRow hm hnesting⟩

/-- A maze that was saved is loaded, whether or not the connection decodes. -/
theorem load_save (hopen : s.isOpen = true) (hm : m.WellFormed) :
    (MazeStore.load (MazeStore.save s m).1 m.id).2 = .ok (some m) := by
  rw [save_of_open hopen]
  generalize hsaved : (s.ask _).withTable _ = saved
  have hopen' : saved.isOpen = true := by rw [← hsaved]; exact hopen
  have hfind : saved.database.table.find? (.text m.id) = some m.toRow := by
    rw [← hsaved]
    exact Table.find?_put_self _ (.ofText m.id) _
  obtain ⟨row, hhand, hrow⟩ := exists_handOut_toRow hm
    (saved.ask (.fetchRow selectOne [.str m.id])).database
    (show 2 ≤ Database.maxNesting by decide)
  -- the row is found under the id, handed out, and read as a maze
  have hfetch : (saved.ask (.fetchRow selectOne [.str m.id])).database.fetchRow m.id =
      .ok (some row) := by
    rw [Database.fetchRow, show (saved.ask _).database.table.find? _ = _ from hfind]
    exact congrArg (Except.map some) hhand
  show (saved.whenOpen _).2 = _
  rw [whenOpen, if_pos hopen']
  show Except.bind _ _ = _
  rw [hfetch]
  show (Maze.ofRow row Database.maxNesting).bind _ = _
  rw [hrow]
  rfl

end DatabaseStore

namespace Maze

/-- Saving a well-formed maze binds its id, its name, its edge length and the text of its grid.
The row with these columns is read as the maze, also if the text has been decoded, and so a
maze that was saved is loaded.  Any row that is read at all is read as a well-formed maze, with
the grid that the row holds; one that holds no square of tiles is refused. -/
theorem row_round_trip (m : Maze) (hm : m.WellFormed) (s : DatabaseStore) (hopen : s.isOpen = true)
    (row : Row) :
    (MazeStore.save s m).1.database.journal.head? = some (.execute DatabaseStore.insert
      [.str m.id, .str m.name, .int m.size, .str m.gridText]) ∧
    ofRow [("id", .str m.id), ("name", .str m.name), ("size", .int m.size),
      ("grid", .str m.gridText)] = .ok m ∧
    (∃ grid, Row.decodeColumn Row.maxNesting (.str m.gridText) = .ok grid ∧
      ofRow [("id", .str m.id), ("name", .str m.name), ("size", .int m.size), ("grid", grid)] =
        .ok m) ∧
    (MazeStore.load (MazeStore.save s m).1 m.id).2 = .ok (some m) ∧
    (∀ b, ofRow row = .ok b → b.WellFormed ∧ row.Holds Row.maxNesting b.grid) ∧
    ((∀ g : Grid, g.Square → 1 ≤ g.size → ¬ row.Holds Row.maxNesting g) →
      ∃ failure, ofRow row = .error failure) := by
  have hnesting : 2 ≤ Row.maxNesting := by decide
  have hread (b : Maze) (hb : ofRow row = .ok b) :
      b.WellFormed ∧ row.Holds Row.maxNesting b.grid := by
    obtain ⟨hholds, -, -, hwell⟩ := ofRow_eq_ok_iff.mp hb
    exact ⟨hwell, hholds⟩
  refine ⟨?_, ofRow_toRow hm hnesting, ⟨m.grid.toJson, ?_, ?_⟩, DatabaseStore.load_save hopen hm,
    hread, fun hno => ?_⟩
  · rw [DatabaseStore.save_of_open hopen]
    rfl
  · exact Row.decodeColumn_gridText m hnesting
  · exact ofRow_of_decoded hm (Row.decodeColumn_toJson _ _) rfl rfl rfl rfl
  · cases hrow : ofRow row with
    | error failure => exact ⟨failure, rfl⟩
    | ok b =>
      obtain ⟨hb, hholds⟩ := hread b hrow
      exact absurd hholds (hno b.grid hb.square hb.size_grid_pos)

/-- The trench goes to an open database and back.  A row with two rows of one tile each is
refused, although its edge length is two. -/
theorem row_round_trip_trench :
    let s : DatabaseStore := { isOpen := true, database := { decodes := true } }
    let narrow : Row := [("id", .str "narrow"), ("name", .str "Narrow"), ("size", .int 2),
      ("grid", .arr [.arr [.str "floor"], .arr [.str "goal"]])]
    trench.WellFormed ∧ s.isOpen = true ∧
      (MazeStore.load (MazeStore.save s trench).1 trench.id).2 = .ok (some trench) ∧
      (∀ g : Grid, g.Square → 1 ≤ g.size → ¬ narrow.Holds Row.maxNesting g) ∧
      ∃ failure, ofRow narrow = .error failure := by
  intro s narrow
  have hno : ∀ g : Grid, g.Square → 1 ≤ g.size → ¬ narrow.Holds Row.maxNesting g := by
    rintro g hg - ⟨⟨v, hv, hgrid⟩, -⟩
    obtain rfl := Except.ok.inj hv
    have hrows : checkRows .value (.arr [.arr [.str "floor"], .arr [.str "goal"]]) =
        .ok g.rows := checkRows_eq_ok_iff.mpr (Except.ok.inj hgrid)
    have heq : [[Tile.floor], [Tile.goal]] = g.rows := Except.ok.inj hrows
    -- two rows of one cell each: a square grid of two rows has two cells in each
    have hwide := hg.row_length [.floor] (heq ▸ List.mem_cons_self)
    rw [Grid.size, ← heq] at hwide
    exact absurd hwide (by decide)
  obtain ⟨-, -, -, hload, -, hrefused⟩ := row_round_trip trench trench_wellFormed s rfl narrow
  exact ⟨trench_wellFormed, rfl, hload, hno, hrefused hno⟩

end Maze

end MazeRobot
