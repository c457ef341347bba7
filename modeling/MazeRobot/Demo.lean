import MazeRobot.Maze.Sketch
import MazeRobot.Session.Tasks
import MazeRobot.Settings
import MazeRobot.Store.Memory
import MazeRobot.Store.Seed

/-! # A demonstration

Cards are shown one after the other, the program they write is run on a maze from a
store, and every step is drawn.  `Demo.opening` is what is printed before the store is
opened, `Demo.perform` is all that follows.

The demonstration is pure: it yields pieces of output, each with the information whether
a tick passes before it. -/

namespace MazeRobot

namespace Demo

/-- The cards that are shown unless told otherwise. -/
def standardCards : List Text :=
  ["loop", "forward", "loop", "turnRight", "loop", "forward", "loop"]

/-- The maze that is loaded unless told otherwise. -/
def standardMaze : Text := "maze3"

/-- Seconds between two cards. -/
def cardGap : Float := 2.0

/-- The count chosen for every loop that a card opens. -/
def loopCount : Nat := 4

/-- A piece of output. -/
structure Output where
  text : String
  /-- Whether a tick passes before it. -/
  ticked : Bool := false
  deriving DecidableEq, Repr, Inhabited

/-- A line of output. -/
def line (text : String) : Output := ⟨text ++ "\n", false⟩

/-- A picture, followed by an empty line. -/
def picture (g : Grid) (robot : Option Pose := none) : Output := line (g.sketch robot ++ "\n")

/-- What is printed before the store is opened, unless the settings are of no use. -/
def opening (settings : Settings) : Except Failure (List Output) :=
  settings.check.map fun _ => [line (settings.shown ++ "\n")]

/-- What is printed for an entry of the journal.  An idle maze is not drawn. -/
def ofEvent (colors : Bool) : Event → List Output
  | .logged entry => [⟨entry.render colors ++ "\n", entry.kind = .step⟩]
  | .viewed v =>
    if v.execution.status = .idle then [] else [picture v.execution.grid v.execution.robot]

/-- A session on a maze together with what stands between it and the cards. -/
structure Table where
  session : Session
  debouncer : Debouncer
  /-- When the latest card was shown. -/
  now : Float := 0

/-- Shows one card.  A card that opens a loop, and any further one of its kind while the
loop is open, is followed by the choice of the loop's count. -/
def showCard (t : Table) (card : Text) : Table × Except Failure Unit :=
  match Marker.parse? card with
  | none => (t, .ok ())
  | some _ =>
    let now := t.now + cardGap
    let (debouncer, found) := t.debouncer.onPayload card now
    let offered : Session × Except Failure Bool :=
      match found with
      | none => (t.session, .ok false)
      | some c => t.session.detect c
    match offered with
    | (session, .error e) => (⟨session, debouncer, now⟩, .error e)
    | (session, .ok _) =>
      if card == Kind.loop.word then
        let (session, chosen) := session.onIngestion
          (session.ingestion.choosePendingCount (.int loopCount))
        (⟨session, debouncer, now⟩, chosen.map fun _ => ())
      else (⟨session, debouncer, now⟩, .ok ())

/-- Shows cards in turn until one is refused. -/
def showCards (t : Table) : (cards : List Text) → Table × Except Failure Unit
  | [] => (t, .ok ())
  | card :: rest =>
    match showCard t card with
    | (t, .ok _) => showCards t rest
    | (t, .error e) => (t, .error e)

/-- How a demonstration went. -/
structure Performance (σ : Type) where
  store : σ
  output : List Output
  result : Except Failure Unit

/-- The session at the table, from the shown cards to the end of the run. -/
def play (t : Table) (cards : List Text) : Session × Except Failure Snapshot :=
  match showCards t cards with
  | (t, .error e) => (t.session, .error e)
  | (t, .ok _) => t.session.run

/-- Fills the store if it is empty, loads the maze, shows the cards and runs the
program. -/
def perform [MazeStore σ] (settings : Settings) (colors : Bool) (store : σ)
    (mazeId : Text := standardMaze) (cards : List Text := standardCards) :
    Performance σ :=
  let (store, seeded) := MazeStore.seed store
  match seeded with
  | .error e => ⟨store, [], .error e⟩
  | .ok count =>
    let info (text : String) := LogEntry.of .info text
    let seededLine :=
      if count = 0 then []
      else [line ((info s!"Seeded {count} built-in mazes").render colors)]
    let program := Program.ofCommands []
    match Ingestion.create program (.int settings.loopCount) (some settings.display) with
    | .error e => ⟨store, seededLine, .error e⟩
    | .ok ingestion =>
      let loading :=
        Retry.load (fun _ => (MazeStore.load store mazeId).2) mazeId none settings.attempts
      let (session, loaded) := Session.load { ingestion } loading
      let told (s : Session) : List Output := s.journal.flatMap (ofEvent colors)
      match loaded with
      | .error e => ⟨store, seededLine ++ told session, .error e⟩
      | .ok m =>
        let before := seededLine ++ told session ++ [picture m.grid]
        let debouncer : Debouncer := { cooldown := settings.cooldown }
        let (session, ended) := play ⟨{ session with journal := [] }, debouncer, 0⟩ cards
        match ended with
        | .error e => ⟨store, before ++ told session, .error e⟩
        | .ok last =>
          let finished := (info s!"Finished: {last.status.word}").text
          ⟨store, before ++ told session ++ [line (paint colors .bold finished)], .ok ()⟩

/-- All that is printed by a demonstration with mazes kept in memory, and how it ended. -/
def inMemory (settings : Settings) (colors : Bool) (mazeId : Text := standardMaze)
    (cards : List Text := standardCards) : List Output × Except Failure Unit :=
  match opening settings with
  | .error e => ([], .error e)
  | .ok opened =>
    let performance := perform settings colors ({} : MemoryStore) mazeId cards
    (opened ++ performance.output, performance.result)

end Demo

end MazeRobot
