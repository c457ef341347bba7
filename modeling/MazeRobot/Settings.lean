import MazeRobot.Decimal.Shortest
import MazeRobot.Ingestion
import MazeRobot.Marker
import MazeRobot.Store.Database
import MazeRobot.Store.Kind
import MazeRobot.Store.Retry
import MazeRobot.Text.Numeral
import MazeRobot.Text.Path

/-! # Settings

`Settings.read` takes the settings from environment variables; one that is not set
leaves the standard value in force.  A number that cannot be read is a failure at once.
Whether the values are usable is a question of its own, `Settings.check`, so that
unusable settings can still be shown. -/

namespace MazeRobot

/-- What can be configured. -/
structure Settings where
  /-- Seconds before every step of a run. -/
  tick : Float := 0.5
  /-- Seconds for which a detection is announced. -/
  display : Float := standardDisplay
  /-- Seconds between two uses of the same card. -/
  cooldown : Float := standardCooldown
  /-- The count proposed for a new loop. -/
  loopCount : Int := standardLoopCount
  /-- The word for the kind of store. -/
  store : String := StoreKind.memory.word
  /-- The folder of a store that keeps files. -/
  folder : String := "mazes"
  databaseUrl : String := standardDatabaseUrl
  /-- The most reads for one load. -/
  attempts : Int := Retry.standardAttempts
  deriving Inhabited

namespace Settings

/-- The variables that hold the settings. -/
structure Variables where
  tick : Option Text := none
  display : Option Text := none
  cooldown : Option Text := none
  loopCount : Option Text := none
  store : Option Text := none
  folder : Option Text := none
  databaseUrl : Option Text := none
  attempts : Option Text := none
  deriving DecidableEq, Repr, Inhabited

/-- The variables, looked up by name. -/
def Variables.ofEnvironment [Monad m] (value : String → m (Option Text)) : m Variables := do
  return {
    tick := ← value "PROGPATH_TICK_SECONDS"
    display := ← value "PROGPATH_DETECTION_DISPLAY_SECONDS"
    cooldown := ← value "PROGPATH_MARKER_COOLDOWN_SECONDS"
    loopCount := ← value "PROGPATH_DEFAULT_LOOP_COUNT"
    store := ← value "PROGPATH_MAZE_STORE"
    folder := ← value "PROGPATH_MAZE_DIR"
    databaseUrl := ← value "DATABASE_URL"
    attempts := ← value "PROGPATH_STORE_LOAD_ATTEMPTS" }

/-- A decimal number, if the variable is set. -/
def decimal (value : Option Text) (standard : Float) : Except Failure Float :=
  match value with
  | none => .ok standard
  | some text =>
    match Numeral.decimal? text.lossy with
    | some x => .ok x
    | none => .error (.notADecimal text)

/-- A whole number, if the variable is set. -/
def whole (value : Option Text) (standard : Int) : Except Failure Int :=
  match value with
  | none => .ok standard
  | some text => Command.countOfText text

/-- The settings; of several numbers that cannot be read the first one counts. -/
def read (v : Variables) : Except Failure Settings := do
  let standard : Settings := {}
  let tick ← decimal v.tick standard.tick
  let display ← decimal v.display standard.display
  let cooldown ← decimal v.cooldown standard.cooldown
  let loopCount ← whole v.loopCount standard.loopCount
  let attempts ← whole v.attempts standard.attempts
  return {
    tick, display, cooldown, loopCount, attempts
    store := (v.store.map Text.lossy).getD standard.store
    folder := Text.tidyPath ((v.folder.map Text.lossy).getD standard.folder)
    databaseUrl := (v.databaseUrl.map Text.lossy).getD standard.databaseUrl }

/-- Refuses values that are of no use; the first one counts. -/
def check (s : Settings) : Except Failure Unit := do
  if s.tick < 0 then throw .negativeTick
  if !(minLoopCount ≤ s.loopCount && s.loopCount ≤ maxLoopCount) then
    throw (.loopCountSetting s.loopCount)
  if !StoreKind.words.contains s.store then throw (.storeSetting s.store StoreKind.words)
  if s.attempts < 1 then throw .attemptsSetting

/-- The settings for a reader; where mazes are kept is told if they are kept at all. -/
def shown (s : Settings) : String :=
  let seconds (x : Float) := Shortest.render shownDecimal x ++ "s"
  let place :=
    match StoreKind.ofWord? s.store with
    | some .files => [s!"  Maze directory: {s.folder}"]
    | some .database => [s!"  Database: {s.databaseUrl}"]
    | _ => []
  "\n".intercalate
    (["Progpath Configuration:",
      "  Tick: " ++ seconds s.tick,
      "  Detection display: " ++ seconds s.display,
      "  Marker cooldown: " ++ seconds s.cooldown,
      s!"  Default loop count: {s.loopCount}",
      s!"  Maze store: {s.store}"] ++ place)

end Settings

end MazeRobot
