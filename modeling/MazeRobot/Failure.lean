import MazeRobot.Command.Basic
import MazeRobot.Grid
import MazeRobot.Json.Dialect
import MazeRobot.Json.Shown
import MazeRobot.Text.Encoding
import MazeRobot.Validation

/-! # What can go wrong

`Failure` lists every cause for which an operation is refused, and `Failure.message`
is the one place where the causes are put into words. -/

namespace MazeRobot

/-- Why an operation was refused. -/
inductive Failure where
  /-- A record does not check out. -/
  | invalid (report : Report)
  /-- A text that should hold JSON does not. -/
  | malformedText
  /-- A JSON text is nested too deep. -/
  | nestedTooDeep (container : Json.Container)
  /-- A command has more levels than are written. -/
  | writtenTooDeep
  /-- Two commands have more levels than are compared. -/
  | comparedTooDeep
  /-- A file does not hold text. -/
  | undecodable
  /-- An edit that needs a loop was tried on another command. -/
  | loopOnly (kind : Kind) (edit : LoopEdit)
  /-- A text that should write a whole number does not. -/
  | notANumeral (text : Text)
  /-- A whole number is written with more digits than are taken. -/
  | tooManyDigits (count : Nat)
  /-- A text that should write a decimal number does not. -/
  | notADecimal (text : Text)
  /-- A value that can be no count at all; `sort` names its sort. -/
  | notACount (sort : String)
  | infiniteCount
  | undefinedCount
  /-- A whole number of seconds that is beyond all doubles. -/
  | endlessSeconds
  /-- No command of a program of `size` stands at `index`. -/
  | commandIndex (index : Int) (size : Nat)
  /-- No command of a loop body of `size` stands at `index`. -/
  | childIndex (index : Int) (size : Nat)
  /-- No command stands at a signed position. -/
  | position (fault : Position.Fault)
  | cell (fault : CellFault)
  /-- A value that names no tile. -/
  | notATile (value : Json)
  /-- A layout character that stands for no tile. -/
  | unknownSymbol (symbol : CodePoint)
  /-- A database row lacks a column. -/
  | missingColumn (name : String)
  /-- A value that cannot be the id of a row; `sort` names its sort. -/
  | notAnId (sort : String)
  /-- Two ids of rows have no order; the sorts of both. -/
  | unorderedIds (sort other : String)
  | unknownMarker (payload : Text) (known : List String)
  /-- A maze that cannot be played, with everything that is wrong with it. -/
  | unplayable (id : Text) (issues : List String)
  | mazeNotFound (id : Text)
  /-- A maze id that cannot name a file. -/
  | badFileName (id : Text)
  /-- A name or a value holds the null character, which would end it. -/
  | nullCharacter
  /-- A text is to be written as bytes, but halves of surrogate pairs have none. -/
  | notEncodable (run : HalfRun)
  /-- A file name that is longer than the file system takes. -/
  | longFileName
  /-- A database store is used before it is opened. -/
  | storeNotOpen
  /-- No database driver is present. -/
  | noDatabase
  | unknownStore (kind : String)
  /-- The storage could not be read for the moment. -/
  | outage (text : String)
  /-- The storage reports a missing entry. -/
  | missingEntry (key : Text)
  /-- The storage refuses the request. -/
  | refused (text : String)
  | noMaze
  /-- A listener failed on a trace of this length. -/
  | listener (traceLength : Nat)
  /-- The trace holds a loop where a step is due. -/
  | loopInTrace (index : Nat)
  | negativeTick
  /-- The name of a variable holds an equals sign. -/
  | equalsInVariable
  /-- A variable has the empty name. -/
  | namelessVariable
  /-- A value that should be a string is none; `sort` names its sort. -/
  | notAString (sort : String)
  | loopCountSetting (count : Int)
  | storeSetting (kind : String) (known : List String)
  | attemptsSetting

namespace Failure

/-- The most characters of a faulty numeral that are shown. -/
def shownNumeral : Nat := 200

/-- The text of a failure. -/
def message : Failure → String
  | invalid _ | malformedText | undecodable | longFileName | namelessVariable => ""
  | nestedTooDeep container =>
    "maximum recursion depth exceeded while decoding a JSON "
      ++ (match container with
        | .array => "array"
        | .object => "object")
      ++ " from a unicode string"
  | writtenTooDeep => "Circular reference detected (depth exceeded)"
  | comparedTooDeep => "maximum recursion depth exceeded in comparison"
  | loopOnly kind edit =>
    s!"Cannot {edit.phrase} on a '{kind.word}' command; "
      ++ "only loop commands carry a count and children."
  | notANumeral text =>
    s!"invalid literal for int() with base 10: {(Text.quoted text).take shownNumeral}"
  | tooManyDigits count =>
    s!"Exceeds the limit ({Numeral.maxWholeDigits} digits) for integer string conversion: "
      ++ s!"value has {count} digits; use sys.set_int_max_str_digits() to increase the limit"
  | notADecimal text => s!"could not convert string to float: {Text.quoted text}"
  | notACount sort =>
    s!"int() argument must be a string, a bytes-like object or a real number, not '{sort}'"
  | infiniteCount => "cannot convert float infinity to integer"
  | undefinedCount => "cannot convert float NaN to integer"
  | commandIndex index size =>
    s!"Command index {index} out of range for a program of {size} commands"
  | childIndex index size =>
    s!"Child index {index} out of range for a loop of {size} commands"
  | endlessSeconds => "int too large to convert to float"
  | position .outside => "tuple index out of range"
  | position .tooWide | cell .tooWide => "cannot fit 'int' into an index-sized integer"
  | cell .reading => "list index out of range"
  | cell .writing => "list assignment index out of range"
  | notATile value => s!"{value.shown} is not a valid Tile"
  | unknownSymbol symbol => Text.quoted ⟨[symbol]⟩
  | missingColumn name => Text.quoted name
  | notAnId sort => s!"unhashable type: '{sort}'"
  | unorderedIds sort other =>
    s!"'<' not supported between instances of '{sort}' and '{other}'"
  | unknownMarker payload known =>
    s!"Unknown marker payload {Text.quoted payload}; expected one of: "
      ++ ", ".intercalate known
  | unplayable id issues =>
    "\n".intercalate (s!"Maze '{id}' is not playable:" :: issues.map fun i => s!"  - {i}")
  | mazeNotFound id =>
    s!"Maze '{id}' not found.\n\nRemediation tips:\n"
      ++ "  - List available mazes with `await store.list()`\n"
      ++ "  - Seed the built-in catalog with `await seed_store(store)`\n"
      ++ "  - Check PROGPATH_MAZE_STORE / PROGPATH_MAZE_DIR point at the right backend"
  | nullCharacter => "embedded null byte"
  | notEncodable run =>
    let last := run.start + run.length - 1
    "'utf-8' codec can't encode character"
      ++ (if run.length = 1 then
            s!" '\\u{Text.hex 4 run.first.toNat}' in position {run.start}"
          else s!"s in position {run.start}-{last}")
      ++ ": surrogates not allowed"
  | badFileName id => s!"Maze id {Text.quoted id} cannot be used as a file name"
  | storeNotOpen => "Maze store not initialized"
  | noDatabase =>
    "asyncpg is required for PostgresMazeStore. Install with `pip install progpath[postgres]`."
  | unknownStore kind => s!"Unknown maze store '{kind}'; expected memory, json or postgres"
  | outage text => text
  | missingEntry key => Text.quoted key
  | refused text => text
  | noMaze => "No maze loaded; call `await session.load(maze_id)` first."
  | listener n => s!"listener failed on {n}"
  | loopInTrace index =>
    s!"Trace contains unflattened '{Kind.loop.word}' command at index {index}"
  | negativeTick => "PROGPATH_TICK_SECONDS must be >= 0 (use 0 for as-fast-as-possible runs)"
  | equalsInVariable => "illegal environment variable name"
  | notAString sort => s!"str expected, not {sort}"
  | loopCountSetting count =>
    s!"PROGPATH_DEFAULT_LOOP_COUNT must be between {minLoopCount} and {maxLoopCount}, got {count}"
  | storeSetting kind known =>
    "PROGPATH_MAZE_STORE must be one of " ++ ", ".intercalate known ++ s!"; got '{kind}'"
  | attemptsSetting => "PROGPATH_STORE_LOAD_ATTEMPTS must be >= 1"

end Failure

end MazeRobot
