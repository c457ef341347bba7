import MazeRobot.Maze.Record
import MazeRobot.Proofs.Json.Characters
import MazeRobot.Proofs.Validation

/-!
# Records of mazes are read back

`Maze.check` succeeds on a record exactly if the record names the id, the name, the edge length
and the grid of the maze that comes out, and the grid is a square of that size
(`check_eq_ok_iff`).  So only well-formed mazes are read, and the record of a well-formed maze
checks out as that maze (`check_toJson`).  If the maze can also be written as text
(`Maze.Storable`), the text of its record is read as that maze, in every layout
(`ofText_render`).
-/

namespace MazeRobot

namespace Maze

variable {m : Maze} {source : Source}

/-! ## What a record says that checks out -/

/-- Only its name is read as a tile. -/
theorem checkTile_eq_ok_iff {v : Json} {t : Tile} : checkTile v = .ok t ↔ v = .str t.word := by
  rw [checkTile, Checked.word_eq_ok_iff]
  simp only [Tile.ofWord?_eq_some_iff, exists_eq_right]

/-- Only an array of names is read as a row. -/
theorem checkRow_eq_ok_iff {v : Json} {row : List Tile} :
    checkRow source v = .ok row ↔ v = .arr (row.map fun t => .str t.word) := by
  cases v with
  | arr cells =>
    rw [checkRow, Checked.each_eq_ok_iff fun _ _ => checkTile_eq_ok_iff, Json.arr.injEq]
  | _ => simp [checkRow, Checked.complain]

/-- Rows check out exactly if they are written as the rows of a grid are. -/
theorem checkRows_eq_ok_iff {v : Json} {rows : List (List Tile)} :
    checkRows source v = .ok rows ↔ v = Grid.toJson ⟨rows⟩ := by
  cases v with
  | arr items =>
    rw [checkRows, Checked.each_eq_ok_iff fun _ _ => checkRow_eq_ok_iff, Grid.toJson,
      Json.arr.injEq]
  | _ => simp [checkRows, Checked.complain, Grid.toJson]

/-- A size is a whole number and at least one. -/
theorem checkSize_eq_ok_iff {v : Json} {n : Int} :
    checkSize v = .ok n ↔ Checked.integer v = .ok n ∧ 1 ≤ n := by
  rw [checkSize, bind_eq_ok_iff]
  constructor
  · rintro ⟨k, hk, hn⟩
    split at hn
    · exact nomatch hn
    · obtain rfl := Except.ok.inj hn
      exact ⟨hk, by omega⟩
  · rintro ⟨hv, hn⟩
    exact ⟨n, hv, if_neg (by omega)⟩

/-- No row is uneven if all have the length that is asked for. -/
theorem firstUnevenRow?_eq_none_iff {size : Int} {y : Nat} {rows : List (List Tile)} :
    firstUnevenRow? size y rows = none ↔ ∀ row ∈ rows, (row.length : Int) = size := by
  induction rows generalizing y with
  | nil => simp [firstUnevenRow?]
  | cons row rows ih =>
    rw [firstUnevenRow?, List.forall_mem_cons, ← ih (y := y + 1)]
    split <;> simp_all

/-- A maze is put together from a square, and only from a square. -/
theorem assemble_eq_ok_iff {id name : Text} {size : Int} {rows : List (List Tile)} :
    assemble id name size rows = .ok m ↔
      m = ⟨id, name, rows.length, ⟨rows⟩⟩ ∧ (rows.length : Int) = size ∧
        ∀ row ∈ rows, (row.length : Int) = size := by
  rw [← firstUnevenRow?_eq_none_iff (y := 0), assemble]
  by_cases hsize : (rows.length : Int) = size
  · rw [if_neg (not_not_intro hsize)]
    cases firstUnevenRow? size 0 rows with
    | some uneven => simp [Checked.complain]
    | none => simp [hsize, eq_comm]
  · rw [if_pos hsize]
    simp [Checked.complain, hsize]

/-- What a record has to say to be read as a maze. -/
structure Recorded (fields : List (Text × Json)) (m : Maze) : Prop where
  id : Json.field? "id" fields = some (.str m.id)
  name : Json.field? "name" fields = some (.str m.name)
  size : ∃ v, Json.field? "size" fields = some v ∧ Checked.integer v = .ok (m.size : Int)
  grid : Json.field? "grid" fields = some m.grid.toJson

/-- A record checks out as a maze exactly if it says so and the maze is well formed. -/
theorem check_eq_ok_iff {v : Json} :
    check source v = .ok m ↔ ∃ fields, v = .obj fields ∧ Recorded fields m ∧ m.WellFormed := by
  cases v with
  | obj fields =>
    simp only [check, bind_eq_ok_iff, Checked.both_eq_ok_iff, Checked.required_eq_ok_iff,
      Checked.text_eq_ok_iff, checkSize_eq_ok_iff, checkRows_eq_ok_iff, assemble_eq_ok_iff]
    constructor
    · rintro ⟨⟨id, name, size, rows⟩, ⟨⟨_, hid, rfl⟩, ⟨_, hname, rfl⟩,
        ⟨v, hv, hinteger, hpos⟩, _, hgrid, rfl⟩, rfl, hsize, hrows⟩
      dsimp only at hsize hrows hpos hinteger
      -- the size is the number of rows, so the record is the maze that was assembled
      subst hsize
      exact ⟨fields, rfl, ⟨hid, hname, ⟨v, hv, hinteger⟩, hgrid⟩, Int.ofNat_le.mp hpos, rfl,
        fun row hrow => Int.ofNat.inj (hrows row hrow)⟩
    · rintro ⟨_, hfields, h, hm⟩
      obtain rfl := Json.obj.inj hfields
      obtain ⟨v, hv, hinteger⟩ := h.size
      have hpos := hm.size_pos
      refine ⟨⟨m.id, m.name, m.size, m.grid.rows⟩, ⟨⟨_, h.id, rfl⟩, ⟨_, h.name, rfl⟩,
        ⟨v, hv, hinteger, by dsimp only; omega⟩, _, h.grid, rfl⟩, ?_,
        congrArg Nat.cast hm.rows_length,
        fun row hrow => congrArg Nat.cast (hm.row_length row hrow)⟩
      simp only [hm.rows_length]
  | _ => simp [check, Checked.complain]

/-- The record of a maze says what it has to. -/
theorem recorded_toJson (m : Maze) : Recorded
    [("id", .str m.id), ("name", .str m.name), ("size", .int m.size), ("grid", m.grid.toJson)] m :=
  ⟨rfl, rfl, ⟨_, rfl, rfl⟩, rfl⟩

/-- The record of a well-formed maze checks out as that maze. -/
theorem check_toJson (source : Source) (h : m.WellFormed) : check source m.toJson = .ok m :=
  check_eq_ok_iff.mpr ⟨_, rfl, recorded_toJson m, h⟩

/-- A record is read as a well-formed maze that it describes, and as nothing else. -/
theorem ofJson_eq_ok_iff {v : Json} :
    ofJson v = .ok m ↔ ∃ fields, v = .obj fields ∧ Recorded fields m ∧ m.WellFormed := by
  rw [ofJson, mapError_eq_ok_iff, check_eq_ok_iff]

/-! ## Writing a record as text -/

/-- Nothing stands in the way of writing the maze as text and reading it back: it is well
formed, its id and its name are strings, and its edge length has not too many digits. -/
structure Storable (m : Maze) : Prop where
  wellFormed : m.WellFormed
  id_string : ∃ s : String, m.id = .ofString s
  name_string : ∃ s : String, m.name = .ofString s
  size_short : (Nat.toDigits 10 m.size).length ≤ Numeral.maxWholeDigits

/-- A maze of a single cell. -/
theorem storable_cell (id name : String) (t : Tile) :
    Storable ⟨id, name, 1, ⟨[[t]]⟩⟩ := by
  refine ⟨⟨Nat.le_refl 1, rfl, List.forall_mem_singleton.2 rfl⟩, ⟨id, rfl⟩, ⟨name, rfl⟩, ?_⟩
  show (Nat.toDigits 10 1).length ≤ Numeral.maxWholeDigits
  rw [Nat.toDigits_of_lt_base (by decide)]
  decide

/-- The record of a grid is two levels deep and holds only strings. -/
theorem plain_gridToJson (room : Nat) (g : Grid) : Json.Plain (room + 2) g.toJson := by
  refine .arr fun v hv => ?_
  obtain ⟨row, -, rfl⟩ := List.mem_map.1 hv
  refine .arr fun v hv => ?_
  obtain ⟨t, -, rfl⟩ := List.mem_map.1 hv
  exact .str t.word

/-- The record of a maze that can be stored is plain, three levels deep. -/
theorem Storable.plain (h : m.Storable) (room : Nat) : Json.Plain (room + 3) m.toJson := by
  obtain ⟨id, hid⟩ := h.id_string
  obtain ⟨name, hname⟩ := h.name_string
  -- the size is not negative, so it is written without a sign
  have hsize : (toString (m.size : Int)).length ≤ Numeral.maxWholeDigits := by
    rw [← String.length_toList, Json.toList_toString_int,
      if_neg (Int.not_lt.2 (Int.natCast_nonneg m.size))]
    exact h.size_short
  refine .obj ?_ ?_
  · simp only [List.forall_mem_cons]
    exact ⟨⟨_, rfl⟩, ⟨_, rfl⟩, ⟨_, rfl⟩, ⟨_, rfl⟩, fun f hf => absurd hf List.not_mem_nil⟩
  · simp only [List.forall_mem_cons, hid, hname]
    exact ⟨.str id, .str name, .int hsize, plain_gridToJson room m.grid,
      fun f hf => absurd hf List.not_mem_nil⟩

/-- A maze that can be stored is written as a string without carriage returns. -/
theorem Storable.exists_string (h : m.Storable) (layout : Json.Layout) :
    ∃ s : String, m.toJson.render layout = .ofString s ∧ ∀ c ∈ s.toList, c ≠ '\r' :=
  Json.exists_string_of_lines (Json.lines_write (h.plain 0) 0)

/-- What is reported about a text that is no JSON text. -/
def unreadable : Failure := .invalid ⟨.maze, [⟨[], .malformed⟩]⟩

/-- A text that is no JSON is refused as unreadable. -/
theorem ofText_of_error {s : String} {fault : Json.Fault}
    (h : Json.read .strict maxNesting s = .error fault) : ofText s = .error unreadable := by
  simp only [ofText, Checked.string, Text.string?_ofString, Except.bind, h]
  rfl

/-- Otherwise the value that it holds is checked. -/
theorem ofText_of_ok {s : String} {v : Json} (h : Json.read .strict maxNesting s = .ok v) :
    ofText s = (check .text v).mapError fun issues => .invalid ⟨.maze, issues⟩ := by
  simp only [ofText, Checked.string, Text.string?_ofString, Except.bind, h]

/-- The text of a record is read as the maze, in every layout. -/
theorem Storable.ofText_render (h : m.Storable) (layout : Json.Layout) :
    ofText (m.toJson.render layout) = .ok m := by
  have hread : Json.read .strict maxNesting (m.toJson.render layout) = .ok m.toJson :=
    Json.read_render .strict layout (h.plain 197)
  obtain ⟨s, hs, -⟩ := h.exists_string layout
  rw [hs] at hread ⊢
  rw [ofText_of_ok hread, check_toJson .text h.wellFormed]
  rfl

end Maze

end MazeRobot
