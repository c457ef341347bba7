import Mathlib.Data.Set.Function
import MazeRobot.Maze.Layout
import MazeRobot.Proofs.Grid
import MazeRobot.Proofs.Maze.Record

/-!
# Layouts

A grid is drawn by its layout, with one character for each tile (`Grid.layout`).  A layout is
read in two steps.  The characters come first: they are the tiles of a grid, or the first one
that stands for no tile is reported (`ofSymbols_eq_ok_iff`, `ofSymbols_eq_error_iff`).  The grid
then has to be a square with at least one row, or the first row of another length is reported
(`ofJson_draft_of_not_square`).

So the layouts that are accepted can be told by their characters and lengths (`Drawable`), and
they are exactly the layouts of square grids, each of one grid only (`bijOn_layout`).

## Key results

- `ofLayout_eq_ok_iff`: a maze comes out exactly if the layout is that of its grid
- `exists_ofLayout_iff`: which layouts are accepted
- `layout_faithful`: acceptance, the bijection and the failures together
-/

namespace MazeRobot

namespace Tile

/-- The characters that stand for a tile. -/
def legend : List CodePoint := [.char 'S', .char 'G', .char '.', .char '#', .char 'O']

variable {p : CodePoint} {t : Tile}

/-- The legend is made of the characters of the tiles. -/
theorem mem_legend_iff : p ∈ legend ↔ ∃ t : Tile, p = .char t.symbol := by
  constructor
  · simp only [legend, List.mem_cons, List.not_mem_nil, or_false]
    rintro (rfl | rfl | rfl | rfl | rfl)
    exacts [⟨start, rfl⟩, ⟨goal, rfl⟩, ⟨floor, rfl⟩, ⟨wall, rfl⟩, ⟨hole, rfl⟩]
  · rintro ⟨t, rfl⟩
    cases t <;> decide

/-- No two tiles have one character. -/
theorem symbol_inj {t u : Tile} : t.symbol = u.symbol ↔ t = u := by
  rw [← ofSymbol?_eq_some_iff, ofSymbol?_symbol, Option.some.injEq]

/-- A character is read as the tile that it stands for. -/
theorem bind_ofSymbol?_eq_some_iff : p.char?.bind ofSymbol? = some t ↔ p = .char t.symbol := by
  cases p with
  | char c =>
    rw [CodePoint.char.injEq, ← ofSymbol?_eq_some_iff]
    rfl
  | half offset => exact ⟨nofun, nofun⟩

/-- What is not in the legend stands for no tile. -/
theorem bind_ofSymbol?_eq_none_iff : p.char?.bind ofSymbol? = none ↔ p ∉ legend := by
  rw [mem_legend_iff, Option.eq_none_iff_forall_ne_some, not_exists]
  exact forall_congr' fun t => not_congr bind_ofSymbol?_eq_some_iff

end Tile

namespace Grid

variable {rows : List Text} {line : Text} {tiles : List (List Tile)} {row : List Tile}
  {p : CodePoint} {ps : List CodePoint}

/-- The text of a row of tiles. -/
def rowText (row : List Tile) : Text := ⟨row.map fun t => .char t.symbol⟩

/-- The layout of a grid as texts. -/
def layout (g : Grid) : List Text := g.symbols.map Text.ofString

/-- A layout has a line for each row. -/
theorem layout_eq (g : Grid) : g.layout = g.rows.map rowText := by
  rw [layout, symbols, List.map_map]
  refine List.map_congr_left fun row _ => ?_
  rw [Function.comp_apply, Text.ofString, String.toList_ofList, Text.ofChars, List.map_map]
  rfl

/-- No two rows have one line. -/
theorem rowText_inj {row row' : List Tile} : rowText row = rowText row' ↔ row = row' := by
  rw [rowText, rowText, Text.mk.injEq]
  exact List.map_inj_right fun t u h => Tile.symbol_inj.mp (CodePoint.char.inj h)

/-! ## Characters -/

/-- The character of a tile is read as that tile. -/
theorem ofSymbolRow_symbol (t : Tile) (ps : List CodePoint) :
    ofSymbolRow (.char t.symbol :: ps) = (ofSymbolRow ps).map (t :: ·) := by
  rw [ofSymbolRow, Tile.bind_ofSymbol?_eq_some_iff.mpr rfl]

/-- A code point that is not in the legend stops the reading, and is what is told. -/
theorem ofSymbolRow_of_notMem (h : p ∉ Tile.legend) : ofSymbolRow (p :: ps) = .error p := by
  rw [ofSymbolRow, Tile.bind_ofSymbol?_eq_none_iff.mpr h]

/-- Only the line of a row is read as that row. -/
theorem ofSymbolRow_eq_ok_iff : ofSymbolRow line.points = .ok row ↔ line = rowText row := by
  obtain ⟨ps⟩ := line
  rw [rowText, Text.mk.injEq]
  show ofSymbolRow ps = .ok row ↔ _
  induction ps generalizing row with
  | nil => cases row <;> simp [ofSymbolRow]
  | cons p ps ih =>
    by_cases hp : p ∈ Tile.legend
    · obtain ⟨t, rfl⟩ := Tile.mem_legend_iff.mp hp
      rw [ofSymbolRow_symbol, map_eq_ok_iff]
      cases row with
      | nil => simp
      | cons u row => simp [ih, Tile.symbol_inj, and_comm]
    · rw [ofSymbolRow_of_notMem hp]
      refine ⟨nofun, fun h => ?_⟩
      obtain ⟨t, -, -, ht, -⟩ := List.map_eq_cons_iff.mp h.symm
      exact absurd (Tile.mem_legend_iff.mpr ⟨t, ht.symm⟩) hp

/-- A line is refused for its first code point that is not in the legend. -/
theorem ofSymbolRow_eq_error_iff :
    ofSymbolRow ps = .error p ↔ ps.find? (fun p => decide (p ∉ Tile.legend)) = some p := by
  induction ps with
  | nil => simp [ofSymbolRow]
  | cons q ps ih =>
    by_cases hq : q ∈ Tile.legend
    · obtain ⟨t, rfl⟩ := Tile.mem_legend_iff.mp hq
      rw [ofSymbolRow_symbol, List.find?_cons_of_neg (by simpa using hq), ← ih]
      cases ofSymbolRow ps <;> simp [Except.map]
    · rw [ofSymbolRow_of_notMem hq, List.find?_cons_of_pos (by simpa using hq)]
      simp

/-- The rows of a grid are read from its layout, and from no other. -/
theorem ofSymbols_eq_ok_iff : ofSymbols rows = .ok tiles ↔ rows = layout ⟨tiles⟩ := by
  rw [layout_eq]
  induction rows generalizing tiles with
  | nil => cases tiles <;> simp [ofSymbols]
  | cons line rows ih =>
    rw [ofSymbols]
    -- the first line is read on its own; a bad one is the line of no row
    cases hline : ofSymbolRow line.points with
    | error p =>
      refine ⟨nofun, fun h => ?_⟩
      obtain ⟨row, -, -, hrow, -⟩ := List.map_eq_cons_iff.mp h.symm
      rw [ofSymbolRow_eq_ok_iff.mpr hrow.symm] at hline
      cases hline
    | ok row =>
      obtain rfl := ofSymbolRow_eq_ok_iff.mp hline
      rw [map_eq_ok_iff]
      cases tiles with
      | nil => simp
      | cons row' tiles => simp [ih, rowText_inj, and_comm]

/-- What is reported is the first character that stands for no tile, row by row. -/
theorem ofSymbols_eq_error_iff :
    ofSymbols rows = .error p ↔
      (rows.flatMap Text.points).find? (fun p => decide (p ∉ Tile.legend)) = some p := by
  induction rows with
  | nil => simp [ofSymbols]
  | cons line rows ih =>
    rw [ofSymbols, List.flatMap_cons, List.find?_append]
    cases hline : ofSymbolRow line.points with
    | error q =>
      rw [ofSymbolRow_eq_error_iff.mp hline, Option.some_or]
      simp
    | ok row =>
      -- a row that is read has no unknown character, so the search goes on behind it
      have hnone : line.points.find? (fun p => decide (p ∉ Tile.legend)) = none := by
        rw [Option.eq_none_iff_forall_ne_some]
        intro q hq
        rw [← ofSymbolRow_eq_error_iff, hline] at hq
        cases hq
      rw [hnone, Option.none_or, ← ih]
      cases ofSymbols rows <;> simp [Except.map]

/-! ## Layouts of grids -/

theorem length_layout (g : Grid) : g.layout.length = g.size := by
  rw [layout_eq, List.length_map, size]

theorem length_rowText (row : List Tile) : (rowText row).points.length = row.length :=
  List.length_map _

/-- What holds of all lines holds of the lines of all rows. -/
theorem forall_mem_layout {g : Grid} {P : Text → Prop} :
    (∀ line ∈ g.layout, P line) ↔ ∀ row ∈ g.rows, P (rowText row) := by
  rw [layout_eq, List.forall_mem_map]

/-- A text of tiles is the layout of a grid, whatever its shape. -/
theorem exists_layout_iff :
    (∃ g : Grid, g.layout = rows) ↔ ∀ line ∈ rows, ∀ p ∈ line.points, p ∈ Tile.legend := by
  constructor
  · rintro ⟨g, rfl⟩
    rw [forall_mem_layout]
    intro row _ p hp
    obtain ⟨t, -, rfl⟩ := List.mem_map.mp hp
    exact Tile.mem_legend_iff.mpr ⟨t, rfl⟩
  · intro hknown
    -- reading the rows back gives the grid, or finds the character that is not known
    cases hread : ofSymbols rows with
    | ok tiles => exact ⟨⟨tiles⟩, (ofSymbols_eq_ok_iff.mp hread).symm⟩
    | error p =>
      have hfind := ofSymbols_eq_error_iff.mp hread
      obtain ⟨line, hline, hp⟩ := List.mem_flatMap.mp (List.mem_of_find?_eq_some hfind)
      exact absurd (hknown line hline p hp) (of_decide_eq_true (List.find?_some hfind :))

/-- No two grids have one record. -/
theorem toJson_inj {g g' : Grid} : g.toJson = g'.toJson ↔ g = g' := by
  refine ⟨fun h => ?_, congrArg toJson⟩
  have hrows : Maze.checkRows .value g.toJson = .ok g.rows := Maze.checkRows_eq_ok_iff.mpr rfl
  rw [Maze.checkRows_eq_ok_iff.mpr h] at hrows
  exact congrArg mk (Except.ok.inj hrows).symm

end Grid

/-- A layout that draws a square: it has a row, nothing but characters of tiles, and in every row
as many of them as there are rows. -/
structure Drawable (rows : List Text) : Prop where
  nonempty : rows ≠ []
  known : ∀ line ∈ rows, ∀ p ∈ line.points, p ∈ Tile.legend
  square : ∀ line ∈ rows, line.points.length = rows.length

namespace Grid

variable {g g' : Grid}

/-- The layout of a grid can be drawn if the grid is square and has a row. -/
theorem drawable_layout_iff : Drawable g.layout ↔ g.Square ∧ 1 ≤ g.size := by
  have hpos : g.layout ≠ [] ↔ 1 ≤ g.size := by
    rw [← length_layout, Nat.one_le_iff_ne_zero, Ne, Ne, List.length_eq_zero_iff]
  have hsquare : (∀ line ∈ g.layout, line.points.length = g.layout.length) ↔ g.Square := by
    rw [forall_mem_layout, length_layout]
    simp only [length_rowText]
    exact ⟨fun h => ⟨h⟩, fun h => h.row_length⟩
  constructor
  · rintro ⟨hne, -, heven⟩
    exact ⟨hsquare.mp heven, hpos.mp hne⟩
  · rintro ⟨hg, hsize⟩
    exact ⟨hpos.mpr hsize, exists_layout_iff.mp ⟨g, rfl⟩, hsquare.mpr hg⟩

/-- No two grids have one layout. -/
theorem layout_inj : g.layout = g'.layout ↔ g = g' := by
  refine ⟨fun h => ?_, congrArg layout⟩
  have hread : ofSymbols g.layout = .ok g.rows := ofSymbols_eq_ok_iff.mpr rfl
  rw [ofSymbols_eq_ok_iff.mpr h] at hread
  exact congrArg mk (Except.ok.inj hread).symm

/-- Every square is drawn by a layout of its own, and every layout that is accepted draws one. -/
theorem bijOn_layout :
    Set.BijOn layout {g | g.Square ∧ 1 ≤ g.size} {rows | Drawable rows} := by
  refine ⟨fun g hg => drawable_layout_iff.mpr hg, fun g _ g' _ h => layout_inj.mp h, ?_⟩
  intro rows hrows
  obtain ⟨g, rfl⟩ := exists_layout_iff.mpr hrows.known
  exact ⟨g, drawable_layout_iff.mp hrows, rfl⟩

end Grid

namespace Maze

variable {m : Maze} {g : Grid} {id name : Text} {rows : List Text}

/-! ## Shapes -/

/-- A draft becomes the maze that it describes, if that is well formed, and no other. -/
theorem ofJson_draft_eq_ok_iff :
    ofJson (draft (.str id) (.str name) g) = .ok m ↔
      m.WellFormed ∧ m.id = id ∧ m.name = name ∧ m.grid = g := by
  rw [ofJson_eq_ok_iff]
  constructor
  · rintro ⟨fields, hfields, h, hm⟩
    obtain rfl := Json.obj.inj hfields
    have hid : some (Json.str id) = some (.str m.id) := h.id
    have hname : some (Json.str name) = some (.str m.name) := h.name
    have hgrid : some g.toJson = some m.grid.toJson := h.grid
    rw [Option.some.injEq, Json.str.injEq] at hid hname
    rw [Option.some.injEq, Grid.toJson_inj] at hgrid
    exact ⟨hm, hid.symm, hname.symm, hgrid.symm⟩
  · rintro ⟨hm, rfl, rfl, rfl⟩
    have hsize : m.grid.size = m.size := hm.rows_length
    rw [draft, hsize]
    exact ⟨_, rfl, recorded_toJson m, hm⟩

/-- What is reported if there is no row. -/
theorem ofJson_draft_nil :
    ofJson (draft (.str id) (.str name) ⟨[]⟩) =
      .error (.invalid ⟨.maze, [⟨[.field "size"], .tooSmall 1⟩]⟩) := rfl

/-- A grid with a row is only tested for its shape. -/
theorem check_draft (h : 1 ≤ g.size) :
    check .value (draft (.str id) (.str name) g) = assemble id name g.size g.rows := by
  have hsize : checkSize (.int g.size) = .ok (g.size : Int) :=
    checkSize_eq_ok_iff.mpr ⟨rfl, by omega⟩
  have hrows : checkRows .value g.toJson = .ok g.rows := checkRows_eq_ok_iff.mpr rfl
  -- id and name are texts, so the four checks of the fields all pass
  show (Checked.both (.ok id) (Checked.both (.ok name)
    (Checked.both (Checked.within _ (checkSize (.int g.size)))
      (Checked.within _ (checkRows .value g.toJson))))).bind _ = _
  rw [hsize, hrows]
  rfl

/-- The first uneven row comes after rows of the right length. -/
theorem exists_split_of_firstUnevenRow? {size : Int} {y k n : Nat} {tiles : List (List Tile)}
    (h : firstUnevenRow? size y tiles = some (k, n)) :
    ∃ before row after, tiles = before ++ row :: after ∧
      (∀ r ∈ before, (r.length : Int) = size) ∧ (row.length : Int) ≠ size ∧
      k = y + before.length ∧ n = row.length := by
  induction tiles generalizing y with
  | nil => cases h
  | cons row tiles ih =>
    rw [firstUnevenRow?] at h
    split at h
    · next hne =>
      cases h
      exact ⟨[], row, tiles, rfl, List.forall_mem_nil _, hne, rfl, rfl⟩
    · next heq =>
      -- the row is even, and the one that is found lies behind it
      obtain ⟨before, other, after, rfl, hbefore, hother, rfl, rfl⟩ := ih h
      refine ⟨row :: before, other, after, rfl, ?_, hother, ?_, rfl⟩
      · exact List.forall_mem_cons.mpr ⟨not_not.mp heq, hbefore⟩
      · rw [List.length_cons]
        omega

/-- A grid that has a row, but is no square, is refused for the first row of another length. -/
theorem ofJson_draft_of_not_square (id name : Text) (hpos : 1 ≤ g.size) (hg : ¬ g.Square) :
    ∃ before row after, g.rows = before ++ row :: after ∧
      (∀ r ∈ before, r.length = g.size) ∧ row.length ≠ g.size ∧
      ofJson (draft (.str id) (.str name) g) =
        .error (.invalid ⟨.maze, [⟨[], .rule
          s!"row {before.length} has {row.length} tiles but size is {g.size}"⟩]⟩) := by
  -- the fields pass on their own; the rows are compared only when they are put together
  cases huneven : firstUnevenRow? g.size 0 g.rows with
  | none =>
    have heven := firstUnevenRow?_eq_none_iff.mp huneven
    exact absurd ⟨fun row hrow => Int.ofNat.inj (heven row hrow)⟩ hg
  | some uneven =>
    obtain ⟨y, n⟩ := uneven
    obtain ⟨before, row, after, hsplit, hbefore, hrow, rfl, rfl⟩ :=
      exists_split_of_firstUnevenRow? huneven
    refine ⟨before, row, after, hsplit, fun r hr => Int.ofNat.inj (hbefore r hr),
      fun h => hrow (congrArg Nat.cast h), ?_⟩
    have hlength : ¬ (g.rows.length : Int) ≠ g.size := not_not_intro rfl
    rw [ofJson, check_draft hpos, assemble, if_neg hlength, huneven, Nat.zero_add]
    rfl

/-! ## Reading a layout -/

/-- An unknown character is told before anything is said of the shape. -/
theorem ofLayout_of_symbols {symbol : CodePoint}
    (h : Grid.ofSymbols rows = .error symbol) :
    ofLayout (.str id) (.str name) rows = .error (.unknownSymbol symbol) := by
  rw [ofLayout, h]

/-- The layout of a grid is read as the draft of a maze with that grid. -/
theorem ofLayout_layout (id name : Text) (g : Grid) :
    ofLayout (.str id) (.str name) g.layout = ofJson (draft (.str id) (.str name) g) := by
  rw [ofLayout, Grid.ofSymbols_eq_ok_iff.mpr rfl]

/-- A maze comes out of the layout of its own grid, and of no other. -/
theorem ofLayout_eq_ok_iff :
    ofLayout (.str id) (.str name) rows = .ok m ↔
      m.WellFormed ∧ m.id = id ∧ m.name = name ∧ m.grid.layout = rows := by
  cases hread : Grid.ofSymbols rows with
  | error symbol =>
    rw [ofLayout_of_symbols hread]
    refine ⟨nofun, fun h => ?_⟩
    rw [Grid.ofSymbols_eq_ok_iff.mpr h.2.2.2.symm] at hread
    cases hread
  | ok tiles =>
    obtain rfl := Grid.ofSymbols_eq_ok_iff.mp hread
    rw [ofLayout_layout, ofJson_draft_eq_ok_iff, Grid.layout_inj]

/-- Lines become a maze if they can be drawn, and only then. -/
theorem exists_ofLayout_iff :
    (∃ m, ofLayout (.str id) (.str name) rows = .ok m) ↔ Drawable rows := by
  simp only [ofLayout_eq_ok_iff]
  constructor
  · rintro ⟨m, hm, -, -, rfl⟩
    exact Grid.drawable_layout_iff.mpr ⟨hm.square, hm.size_grid_pos⟩
  · intro hrows
    obtain ⟨g, ⟨hg, hpos⟩, rfl⟩ := Grid.bijOn_layout.surjOn hrows
    exact ⟨⟨id, name, g.size, g⟩, ⟨hpos, rfl, hg.row_length⟩, rfl, rfl, rfl⟩

/-- The only failure of a layout that names a symbol is that of its first unknown one. -/
theorem ofLayout_eq_unknownSymbol_iff {symbol : CodePoint} :
    ofLayout (.str id) (.str name) rows = .error (.unknownSymbol symbol) ↔
      (rows.flatMap Text.points).find? (fun p => decide (p ∉ Tile.legend)) = some symbol := by
  rw [← Grid.ofSymbols_eq_error_iff, ofLayout]
  cases Grid.ofSymbols rows with
  | error p => simp
  | ok tiles =>
    -- what is wrong with a record is not put down to a symbol
    simp only [ofJson]
    cases check .value (draft (.str id) (.str name) ⟨tiles⟩) with
    | error issues =>
      refine iff_of_false (fun h => ?_) fun h => ?_
      · cases h
      · cases h
    | ok m =>
      refine iff_of_false (fun h => ?_) fun h => ?_
      · cases h
      · cases h

/-- A layout of known characters that draws no square is refused for its first row of another
length. -/
theorem ofLayout_of_not_drawable (hne : rows ≠ [])
    (hknown : ∀ line ∈ rows, ∀ p ∈ line.points, p ∈ Tile.legend) (hrows : ¬ Drawable rows) :
    ∃ before line after, rows = before ++ line :: after ∧
      (∀ l ∈ before, l.points.length = rows.length) ∧ line.points.length ≠ rows.length ∧
      ofLayout (.str id) (.str name) rows =
        .error (.invalid ⟨.maze, [⟨[], .rule
          s!"row {before.length} has {line.points.length} tiles but size is {rows.length}"⟩]⟩) := by
  -- every character is known, so the rows are the layout of a grid, which cannot be square
  obtain ⟨g, rfl⟩ := Grid.exists_layout_iff.mpr hknown
  have hpos : 1 ≤ g.size := by
    rw [← Grid.length_layout]
    exact List.length_pos_iff.mpr hne
  have hg : ¬ g.Square := fun hg => hrows (Grid.drawable_layout_iff.mpr ⟨hg, hpos⟩)
  obtain ⟨before, row, after, hsplit, hbefore, hrow, herror⟩ :=
    ofJson_draft_of_not_square id name hpos hg
  refine ⟨before.map Grid.rowText, Grid.rowText row, after.map Grid.rowText, ?_, ?_, ?_, ?_⟩
  · rw [Grid.layout_eq, hsplit, List.map_append, List.map_cons]
  · rw [List.forall_mem_map, Grid.length_layout]
    exact fun r hr => (Grid.length_rowText r).trans (hbefore r hr)
  · rwa [Grid.length_rowText, Grid.length_layout]
  · rw [ofLayout_layout, herror, List.length_map, Grid.length_rowText, Grid.length_layout]

/-- A layout is accepted exactly if it draws a square, and then it is the layout of the grid that
comes out; so layouts of squares and squares go with each other one to one.  Of unknown characters
the first one is reported, whatever the shape.  Without any, it is reported that there is no row,
or which row is the first one of another length. -/
theorem layout_faithful (id name : Text) (rows : List Text) :
    let read := ofLayout (.str id) (.str name) rows
    ((∃ m, read = .ok m) ↔ Drawable rows) ∧
    (∀ m, read = .ok m ↔ m.WellFormed ∧ m.id = id ∧ m.name = name ∧ m.grid.layout = rows) ∧
    Set.BijOn Grid.layout {g | g.Square ∧ 1 ≤ g.size} {rows | Drawable rows} ∧
    (∀ symbol, read = .error (.unknownSymbol symbol) ↔
      (rows.flatMap Text.points).find? (fun p => decide (p ∉ Tile.legend)) = some symbol) ∧
    (rows = [] → read = .error (.invalid ⟨.maze, [⟨[.field "size"], .tooSmall 1⟩]⟩)) ∧
    (rows ≠ [] → (∀ line ∈ rows, ∀ p ∈ line.points, p ∈ Tile.legend) → ¬ Drawable rows →
      ∃ before line after, rows = before ++ line :: after ∧
        (∀ l ∈ before, l.points.length = rows.length) ∧ line.points.length ≠ rows.length ∧
        read = .error (.invalid ⟨.maze, [⟨[], .rule
          s!"row {before.length} has {line.points.length} tiles but size is {rows.length}"⟩]⟩)) := by
  refine ⟨exists_ofLayout_iff, fun m => ofLayout_eq_ok_iff, Grid.bijOn_layout,
    fun symbol => ofLayout_eq_unknownSymbol_iff, ?_, ofLayout_of_not_drawable⟩
  rintro rfl
  exact ofJson_draft_nil

/-- An unknown character is reported although a row before it is too short; without it, that row
is. -/
theorem layout_faithful_uneven :
    let uneven : List Text := ["S..", "GO", "..."]
    let unknown : List Text := ["S..", "GO", ".x."]
    ofLayout (.str "m") (.str "M") unknown = .error (.unknownSymbol (.char 'x')) ∧
      uneven ≠ [] ∧ (∀ line ∈ uneven, ∀ p ∈ line.points, p ∈ Tile.legend) ∧ ¬ Drawable uneven ∧
      ofLayout (.str "m") (.str "M") uneven =
        .error (.invalid ⟨.maze, [⟨[], .rule "row 1 has 2 tiles but size is 3"⟩]⟩) ∧
      ofLayout (.str "m") (.str "M") [] =
        .error (.invalid ⟨.maze, [⟨[.field "size"], .tooSmall 1⟩]⟩) := by
  intro uneven unknown
  have hknown : ∀ line ∈ uneven, ∀ p ∈ line.points, p ∈ Tile.legend := by decide
  have huneven : ¬ Drawable uneven := fun h => absurd h.square (by decide)
  obtain ⟨-, -, -, hunknown, -⟩ := layout_faithful "m" "M" unknown
  obtain ⟨-, -, -, -, -, hshape⟩ := layout_faithful "m" "M" uneven
  obtain ⟨-, -, -, -, hnil, -⟩ := layout_faithful "m" "M" []
  refine ⟨(hunknown _).mpr (by decide), by decide, hknown, huneven, ?_, hnil rfl⟩
  obtain ⟨before, line, after, hsplit, hbefore, hline, herror⟩ :=
    hshape (by decide) hknown huneven
  -- only the second row has an even row before it and is not even itself
  rcases before with _ | ⟨first, _ | ⟨second, before⟩⟩
  · obtain ⟨rfl, -⟩ := List.cons.inj hsplit
    exact absurd rfl hline
  · obtain ⟨-, hrest⟩ := List.cons.inj hsplit
    obtain ⟨rfl, -⟩ := List.cons.inj hrest
    have htext : s!"row {1} has {2} tiles but size is {3}" = "row 1 has 2 tiles but size is 3" := by
      decide
    rw [← htext]
    exact herror
  · obtain ⟨-, hrest⟩ := List.cons.inj hsplit
    obtain ⟨rfl, -⟩ := List.cons.inj hrest
    exact absurd (hbefore _ (List.mem_cons_of_mem _ List.mem_cons_self)) (by decide)

end Maze

end MazeRobot
