import MazeRobot.Json.Writer
import MazeRobot.Maze.Record
import MazeRobot.Store.Basic
import MazeRobot.Store.Table

/-! # Mazes kept in a database

A `DatabaseStore` talks to a database through a connection that it opens and closes.
The grid of a maze is stored as JSON in a single column; depending on the connection it
comes back as a text or already decoded (`Database.decodes`), and `Maze.ofRow` reads
both.  A connection that decodes does so for every row that it hands out, before the
store looks at any of them.

The database is a table of rows by id, together with a journal of everything it was
asked to do. -/

namespace MazeRobot

/-- What a database can be asked to do. -/
inductive Request where
  | connect (url : String)
  | disconnect
  /-- A statement without an answer. -/
  | execute (statement : String) (arguments : List Json)
  /-- A query for at most one row. -/
  | fetchRow (statement : String) (arguments : List Json)
  /-- A query for any number of rows. -/
  | fetch (statement : String)

/-- A table of rows, and all requests so far, the latest first. -/
structure Database where
  table : Table := {}
  /-- Whether a stored grid comes back decoded. -/
  decodes : Bool := false
  journal : List Request := []
  deriving Inhabited

/-- How deep the grid of a row may be nested. -/
def Row.maxNesting : Nat := 991

/-- The value that the text of a grid stands for. -/
def Row.decodeGrid (nesting : Nat) (text : Text) : Except Failure Json :=
  (Json.read .lenient nesting text).mapError fun
    | .malformed => .malformedText
    | .tooDeep container => .nestedTooDeep container
    | .tooManyDigits count => .tooManyDigits count

/-- The value of a grid's column; a text is decoded. -/
def Row.decodeColumn (nesting : Nat) : Json → Except Failure Json
  | .str text => decodeGrid nesting text
  | v => .ok v

namespace Database

/-- How deep the grid of a row may be nested that is fetched alone: a connection at work
leaves less room. -/
def maxNesting : Nat := 980

/-- How deep the grids of rows may be nested that are fetched together. -/
def maxNestingOfMany : Nat := 979

/-- A row as the connection hands it out. -/
def handOut (db : Database) (nesting : Nat) (row : Row) : Except Failure Row :=
  if db.decodes then do
    let grid ← Row.decodeColumn nesting (← row.column "grid")
    return row ++ ([("grid", grid)] : Row)
  else .ok row

/-- Puts a request on record. -/
def note (db : Database) (r : Request) : Database := { db with journal := r :: db.journal }

/-- The row with the given id, as the connection hands it out. -/
def fetchRow (db : Database) (id : Text) : Except Failure (Option Row) :=
  match db.table.find? (.text id) with
  | none => .ok none
  | some row => (db.handOut maxNesting row).map some

/-- All rows in the order of their ids, as the connection hands them out. -/
def fetch (db : Database) : Except Failure (List Row) := do
  (← db.table.sorted).mapM (db.handOut maxNestingOfMany)

end Database

namespace Maze

/-- The maze in a row.  The grid is looked at first; a text is decoded. -/
def ofRow (row : Row) (nesting : Nat := Row.maxNesting) : Except Failure Maze := do
  let grid ← Row.decodeColumn nesting (← row.column "grid")
  let id ← row.column "id"
  let name ← row.column "name"
  let size ← row.column "size"
  ofJson (.obj [("id", id), ("name", name), ("size", size), ("grid", grid)])

/-- The text of a grid in its column. -/
def gridText (m : Maze) : Text := m.grid.toJson.render .spaced

/-- The row for a maze. -/
def toRow (m : Maze) : Row :=
  [("id", .str m.id), ("name", .str m.name), ("size", .int m.size), ("grid", .str m.gridText)]

end Maze

/-- The address of the database unless told otherwise. -/
def standardDatabaseUrl : String := "postgresql://localhost/progpath"

/-- A store on a database, whether or not it is open. -/
structure DatabaseStore where
  url : String := standardDatabaseUrl
  isOpen : Bool := false
  database : Database := {}
  deriving Inhabited

namespace DatabaseStore

/-- The statement that makes the table unless it is there. -/
def createTable : String :=
  "CREATE TABLE IF NOT EXISTS mazes ( id TEXT PRIMARY KEY, name TEXT NOT NULL, "
    ++ "size INTEGER NOT NULL, grid JSONB NOT NULL, "
    ++ "updated_at TIMESTAMPTZ NOT NULL DEFAULT now() )"

/-- The statement that asks for one maze. -/
def selectOne : String := "SELECT id, name, size, grid FROM mazes WHERE id = $1"

/-- The statement that asks for all mazes. -/
def selectAll : String := "SELECT id, name, size, grid FROM mazes ORDER BY id"

/-- The statement that writes a maze, over an older one if there is one. -/
def insert : String :=
  "INSERT INTO mazes (id, name, size, grid) VALUES ($1, $2, $3, $4::jsonb) "
    ++ "ON CONFLICT (id) DO UPDATE SET name = $2, size = $3, grid = $4::jsonb, "
    ++ "updated_at = now()"

/-- The statement that removes a maze. -/
def deleteOne : String := "DELETE FROM mazes WHERE id = $1"

/-- A store at an address; the empty address stands for the standard one. -/
def create (url : Option String) (database : Database) : DatabaseStore :=
  let standard : DatabaseStore := { database }
  match url with
  | none | some "" => standard
  | some url => { standard with url }

/-- The store after a request. -/
def ask (s : DatabaseStore) (r : Request) : DatabaseStore :=
  { s with database := s.database.note r }

/-- Opens the store and makes sure that the table exists. -/
def openStore (s : DatabaseStore) : DatabaseStore :=
  if s.isOpen then s
  else { (s.ask (.connect s.url)).ask (.execute createTable []) with isOpen := true }

/-- Gives the connections back; requests are refused from then on. -/
def close (s : DatabaseStore) : DatabaseStore :=
  if s.isOpen then { s.ask .disconnect with isOpen := false } else s

/-- The store with another table. -/
def withTable (s : DatabaseStore) (table : Table) : DatabaseStore :=
  { s with database := { s.database with table } }

/-- An operation that needs the store to be open. -/
def whenOpen (s : DatabaseStore) (f : DatabaseStore → DatabaseStore × Except Failure α) :
    DatabaseStore × Except Failure α :=
  if s.isOpen then f s else (s, .error .storeNotOpen)

instance : MazeStore DatabaseStore where
  load s id := s.whenOpen fun s =>
    let s := s.ask (.fetchRow selectOne [.str id])
    (s, do
      match ← s.database.fetchRow id with
      | none => return none
      | some row => return some (← Maze.ofRow row Database.maxNesting))
  save s m := s.whenOpen fun s =>
    let row := m.toRow
    let s := s.ask (.execute insert (row.map Prod.snd))
    (s.withTable (s.database.table.put (.ofText m.id) row), .ok ())
  delete s id := s.whenOpen fun s =>
    let s := s.ask (.execute deleteOne [.str id])
    (s.withTable (s.database.table.erase (.text id)), .ok ())
  list s := s.whenOpen fun s =>
    let s := s.ask (.fetch selectAll)
    (s, do (← s.database.fetch).mapM fun row => Maze.ofRow row Database.maxNestingOfMany)

end DatabaseStore

end MazeRobot
